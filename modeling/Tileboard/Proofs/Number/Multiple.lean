import Mathlib
import Tileboard.Number.Places

namespace Tileboard

-- A multiple of the unit that no other is nearer to the quantity; of two that are equally near it
-- is the one that is farther from zero.
structure NearestMultiple (unit q m : ℚ) : Prop where
  multiple : ∃ n : ℤ, m = n * unit
  nearest : ∀ n : ℤ, |q - m| ≤ |q - n * unit|
  away : ∀ n : ℤ, |q - n * unit| = |q - m| → |n * unit| ≤ |m|

-- The nearest whole number, a tie away from zero.
def awayFromZero (q : ℚ) : ℤ := if 0 ≤ q then round q else -round (-q)

section Whole

variable {p q : ℚ}

theorem awayFromZero_of_nonneg (h : 0 ≤ q) : awayFromZero q = round q := if_pos h

theorem awayFromZero_neg (q : ℚ) : awayFromZero (-q) = -awayFromZero q := by
  unfold awayFromZero
  rcases lt_trichotomy q 0 with h | rfl | h
  · rw [if_pos (by linarith), if_neg (by linarith), neg_neg]
  · simp
  · rw [if_neg (by linarith), if_pos h.le, neg_neg]

theorem round_mono (h : p ≤ q) : round p ≤ round q := by
  rw [round_eq, round_eq]
  exact Int.floor_le_floor (by linarith)

theorem round_nonneg (h : 0 ≤ q) : 0 ≤ round q := by
  have hzero := round_mono h
  rwa [round_zero] at hzero

theorem awayFromZero_mono : Monotone awayFromZero := by
  intro p q h
  unfold awayFromZero
  split_ifs with hp hq hq
  · exact round_mono h
  · linarith
  · have hleft := round_nonneg (neg_nonneg.mpr (le_of_not_ge hp))
    have hright := round_nonneg hq
    omega
  · exact neg_le_neg (round_mono (neg_le_neg h))

-- On the positive side the upper one of two neighbours is the one away from zero.
theorem natAbs_le_round (h : 0 ≤ q) {n : ℤ} (hn : |q - n| = |q - round q|) : |n| ≤ round q := by
  have hupper : (round q : ℚ) ≤ q + 1 / 2 := round_le_add_half q
  have hlower : q < round q + 1 / 2 := (round_eq_iff.mp rfl).2
  have hround := round_nonneg h
  rcases abs_eq_abs.mp hn with h' | h'
  · have hsame : (n : ℚ) = round q := by linarith
    rw [Int.cast_inj.mp hsame, abs_of_nonneg hround]
  · have hleast : -(round q : ℚ) ≤ n := by linarith
    have hmost : (n : ℚ) < round q + 1 := by linarith
    rw [abs_le]
    exact ⟨by exact_mod_cast hleast, Int.lt_add_one_iff.mp (by exact_mod_cast hmost)⟩

-- A quotient of whole numbers is rounded as the quantity is.
theorem awayFromZero_div {n d : Nat} (hd : 0 < d) :
    awayFromZero ((n : ℚ) / d) = Decimal.divideHalfUp n d := by
  have hd' : (0 : ℚ) < d := Nat.cast_pos.mpr hd
  have hquotient : (n : ℚ) / d + 1 / 2 = ((2 * n + d : Nat) : ℚ) / ((2 * d : Nat) : ℚ) := by
    push_cast
    field_simp
  rw [awayFromZero_of_nonneg (by positivity), round_eq, hquotient, Decimal.divideHalfUp,
    ← Int.natCast_floor_eq_floor (by positivity), Nat.floor_div_eq_div]

theorem awayFromZero_natCast (n : Nat) : awayFromZero n = n := by
  rw [awayFromZero_of_nonneg (Nat.cast_nonneg n), round_natCast]

theorem awayFromZero_eq_zero {q : ℚ} (hq : 0 ≤ q) (h : q < 1 / 2) : awayFromZero q = 0 := by
  rw [awayFromZero_of_nonneg hq, round_eq_zero_iff]
  exact ⟨by linarith, h⟩

theorem le_awayFromZero {q : ℚ} {n : Nat} (h : (n : ℚ) ≤ q) : (n : Int) ≤ awayFromZero q := by
  have hle := awayFromZero_mono h
  rwa [awayFromZero_natCast] at hle

end Whole

namespace NearestMultiple

variable {unit q m : ℚ}

-- The mirror images at zero are in the same order of distance.
theorem neg (h : NearestMultiple unit q m) : NearestMultiple unit (-q) (-m) := by
  have hdistance : ∀ n : ℤ, |-q - n * unit| = |q - (-n : ℤ) * unit| := by
    intro n
    rw [← abs_neg]
    congr 1
    push_cast
    ring
  have hleft : |-q - -m| = |q - m| := by
    rw [← abs_neg]
    congr 1
    ring
  obtain ⟨⟨n, hn⟩, hnearest, haway⟩ := h
  refine ⟨⟨-n, by rw [hn]; push_cast; ring⟩, fun k => ?_, fun k hk => ?_⟩
  · rw [hleft, hdistance]
    exact hnearest (-k)
  · rw [hleft, hdistance] at hk
    have hle := haway (-k) hk
    rwa [abs_neg, ← abs_neg ((k : ℚ) * unit), ← neg_mul, ← Int.cast_neg]

-- What is so in units is so in the quantities.
theorem scale (hunit : 0 < unit) (h : NearestMultiple 1 (q / unit) m) :
    NearestMultiple unit q (m * unit) := by
  have hdistance : ∀ x : ℚ, |q - x * unit| = |q / unit - x| * unit := by
    intro x
    rw [← abs_of_pos hunit, ← abs_mul, abs_of_pos hunit, sub_mul, div_mul_cancel₀ q hunit.ne']
  obtain ⟨⟨n, hn⟩, hnearest, haway⟩ := h
  refine ⟨⟨n, by rw [hn, mul_one]⟩, fun k => ?_, fun k hk => ?_⟩
  · have hle := hnearest k
    rw [mul_one] at hle
    rw [hdistance, hdistance]
    exact mul_le_mul_of_nonneg_right hle hunit.le
  · rw [hdistance, hdistance] at hk
    have hsame := haway k (by rw [mul_one]; exact mul_right_cancel₀ hunit.ne' hk)
    rw [mul_one] at hsame
    rw [abs_mul, abs_mul]
    exact mul_le_mul_of_nonneg_right hsame (abs_nonneg unit)

theorem one_of_nonneg (h : 0 ≤ q) : NearestMultiple 1 q (awayFromZero q) := by
  have hround : (0 : ℚ) ≤ round q := by exact_mod_cast round_nonneg h
  rw [awayFromZero_of_nonneg h]
  refine ⟨⟨round q, by rw [mul_one]⟩, fun n => ?_, fun n hn => ?_⟩
  · rw [mul_one]
    exact round_le q n
  · rw [mul_one] at hn ⊢
    rw [abs_of_nonneg hround]
    exact_mod_cast natAbs_le_round h hn

end NearestMultiple

def toMultiple (unit q : ℚ) : ℚ := awayFromZero (q / unit) * unit

section Multiple

variable {unit : ℚ}

theorem nearestMultiple_toMultiple (hunit : 0 < unit) (q : ℚ) :
    NearestMultiple unit q (toMultiple unit q) := by
  refine .scale hunit ?_
  rcases le_total 0 (q / unit) with h | h
  · exact .one_of_nonneg h
  · have hneg := NearestMultiple.neg (.one_of_nonneg (neg_nonneg.mpr h))
    rw [awayFromZero_neg, neg_neg] at hneg
    push_cast at hneg
    rwa [neg_neg] at hneg

theorem toMultiple_neg (unit q : ℚ) : toMultiple unit (-q) = -toMultiple unit q := by
  unfold toMultiple
  rw [neg_div, awayFromZero_neg]
  push_cast
  ring

theorem toMultiple_mono (hunit : 0 < unit) : Monotone (toMultiple unit) := by
  intro p q h
  have hwhole := awayFromZero_mono (div_le_div_of_nonneg_right h hunit.le)
  exact mul_le_mul_of_nonneg_right (by exact_mod_cast hwhole) hunit.le

end Multiple

end Tileboard
