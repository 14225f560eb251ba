import Mathlib
import Tileboard.Value.Rounding
import Tileboard.Proofs.Number.Multiple
import Tileboard.Proofs.Number.Written

namespace Tileboard

namespace Decimal

section Width

variable {n k : Nat}

theorem width_pos (n : Nat) : 0 < width n := Nat.length_toDigits_pos

theorem width_le_iff (hk : 0 < k) : width n ≤ k ↔ n < 10 ^ k :=
  Nat.length_toDigits_le_iff (by decide) hk

theorem lt_ten_pow_width (n : Nat) : n < 10 ^ width n := (width_le_iff (width_pos n)).mp le_rfl

theorem ten_pow_width_le (hn : n ≠ 0) : 10 ^ (width n - 1) ≤ n := by
  have hpos := width_pos n
  by_cases hone : width n = 1
  · rw [hone]
    exact Nat.one_le_iff_ne_zero.mpr hn
  · have hnot : ¬width n ≤ width n - 1 := by omega
    rw [width_le_iff (by omega)] at hnot
    exact Nat.le_of_not_lt hnot

-- The powers of ten between which a coefficient with an exponent lies.
theorem ten_zpow_le (hn : n ≠ 0) (shift : Int) :
    (10 : ℚ) ^ ((width n : Int) + shift - 1) ≤ n * 10 ^ shift := by
  have hpos := width_pos n
  have hcast : ((10 ^ (width n - 1) : Nat) : ℚ) ≤ n := Nat.cast_le.mpr (ten_pow_width_le hn)
  have hexponent : (width n : Int) + shift - 1 = (width n - 1 : Nat) + shift := by omega
  rw [hexponent, zpow_add₀ (by norm_num), zpow_natCast]
  push_cast at hcast
  exact mul_le_mul_of_nonneg_right hcast (by positivity)

theorem lt_ten_zpow (n : Nat) (shift : Int) :
    (n * 10 ^ shift : ℚ) < 10 ^ ((width n : Int) + shift) := by
  have hcast : (n : ℚ) < ((10 ^ width n : Nat) : ℚ) := Nat.cast_lt.mpr (lt_ten_pow_width n)
  rw [zpow_add₀ (by norm_num), zpow_natCast]
  push_cast at hcast
  exact mul_lt_mul_of_pos_right hcast (by positivity)

end Width

section Units

variable {coefficient : Nat} {shift : Int}

theorem cast_tenTo (k : Nat) : (tenTo k : ℚ) = 10 ^ k := by
  have hpower : tenTo k = 10 ^ k := rfl
  rw [hpower, Nat.cast_pow]
  rfl

-- The coefficient in another unit, before it is asked whether it fits.
def inUnits (coefficient : Nat) (shift : Int) : Nat :=
  (awayFromZero (coefficient * 10 ^ shift)).toNat

theorem inUnits_of_nonneg (h : 0 ≤ shift) :
    inUnits coefficient shift = coefficient * tenTo shift.toNat := by
  obtain ⟨k, rfl⟩ := Int.eq_ofNat_of_zero_le h
  have hcast : (coefficient : ℚ) * 10 ^ (k : Int) = ((coefficient * tenTo k : Nat) : ℚ) := by
    rw [zpow_natCast, Nat.cast_mul, cast_tenTo]
  rw [inUnits, hcast, awayFromZero_natCast, Int.toNat_natCast, Int.toNat_natCast]

theorem inUnits_of_neg (h : shift < 0) :
    inUnits coefficient shift = divideHalfUp coefficient (tenTo (-shift).toNat) := by
  obtain ⟨k, hk⟩ := Int.eq_ofNat_of_zero_le (Int.neg_nonneg.mpr h.le)
  have hshift : shift = -(k : Int) := by omega
  have hcast : (coefficient : ℚ) * 10 ^ (-(k : Int)) = (coefficient : ℚ) / (tenTo k : Nat) := by
    rw [zpow_neg, zpow_natCast, cast_tenTo, div_eq_mul_inv]
  rw [hk, hshift, inUnits, hcast, awayFromZero_div (tenTo_pos k), Int.toNat_natCast,
    Int.toNat_natCast]

theorem inUnits_zero (shift : Int) : inUnits 0 shift = 0 := by
  have hzero := awayFromZero_natCast 0
  rw [inUnits, Nat.cast_zero, zero_mul]
  rw [Nat.cast_zero] at hzero
  rw [hzero]
  rfl

-- The lengths alone decide that a coefficient does not fit, or that nothing is left of it.
theorem precision_lt_width (hzero : coefficient ≠ 0)
    (h : (precision : Int) < width coefficient + shift) :
    precision < width (inUnits coefficient shift) := by
  have hle : ((10 ^ precision : Nat) : ℚ) ≤ coefficient * 10 ^ shift := by
    refine le_trans ?_ (ten_zpow_le hzero shift)
    push_cast
    rw [← zpow_natCast]
    exact zpow_le_zpow_right₀ (by norm_num) (by omega)
  have hround := le_awayFromZero hle
  rw [← Nat.not_le, width_le_iff (by decide), inUnits]
  omega

theorem inUnits_eq_zero (h : (width coefficient : Int) + shift < 0) :
    inUnits coefficient shift = 0 := by
  have hlt : (coefficient * 10 ^ shift : ℚ) < 1 / 2 := by
    have hle : (10 : ℚ) ^ ((width coefficient : Int) + shift) ≤ 10 ^ (-1 : Int) :=
      zpow_le_zpow_right₀ (by norm_num) (by omega)
    have htenth : (10 : ℚ) ^ (-1 : Int) < 1 / 2 := by norm_num
    exact (lt_ten_zpow coefficient shift).trans (hle.trans_lt htenth)
  rw [inUnits, awayFromZero_eq_zero (by positivity) hlt]
  rfl

theorem inUnits?_eq (coefficient : Nat) (exponent unit : Int) :
    inUnits? coefficient exponent unit =
      if width (inUnits coefficient (exponent - unit)) ≤ precision
      then some (inUnits coefficient (exponent - unit)) else none := by
  have hnothing : width 0 ≤ precision := by decide
  unfold inUnits?
  dsimp only
  generalize exponent - unit = shift
  by_cases hzero : coefficient = 0
  · rw [if_pos hzero, hzero, inUnits_zero, if_pos hnothing]
  rw [if_neg hzero]
  by_cases hlong : (precision : Int) < width coefficient + shift
  · rw [if_pos hlong, if_neg (Nat.not_le.mpr (precision_lt_width hzero hlong))]
  rw [if_neg hlong]
  by_cases hshort : (width coefficient : Int) + shift < 0
  · rw [if_pos hshort, inUnits_eq_zero hshort, if_pos hnothing]
  rw [if_neg hshort]
  by_cases hshift : 0 ≤ shift
  · rw [if_pos hshift, inUnits_of_nonneg hshift]
  · rw [if_neg hshift, inUnits_of_neg (Int.not_le.mp hshift)]

end Units

section Round

variable {places : Int}

theorem unitFor_of_ge (h : -27 ≤ places) : unitFor places = -max places 0 := by
  unfold unitFor
  split_ifs <;> omega

theorem unitFor_of_lt (h : places < -27) : unitFor places = -places - 27 := by
  unfold unitFor
  rw [if_neg (by omega)]
  omega

variable {negative negative' : Bool} {coefficient coefficient' : Nat} {exponent exponent' : Int}

theorem inUnits_sub (coefficient : Nat) (exponent unit : Int) :
    inUnits coefficient (exponent - unit) =
      (awayFromZero (coefficient * 10 ^ exponent / 10 ^ unit)).toNat := by
  rw [inUnits, zpow_sub₀ (by norm_num), mul_div_assoc]

theorem round_finite (hplaces : -999999 ≤ places) :
    (finite negative coefficient exponent).round places =
      if width (inUnits coefficient (exponent - unitFor places)) ≤ precision
      then .ok (.finite negative (inUnits coefficient (exponent - unitFor places)) (unitFor places))
      else .error .notRoundable := by
  unfold round
  rw [if_neg (Int.not_lt.mpr hplaces)]
  dsimp only
  rw [inUnits?_eq]
  split_ifs <;> rfl

theorem Alike.round_eq {x y : Decimal} (h : Alike x y) (hplaces : -999999 ≤ places) :
    x.round places = y.round places := by
  cases x <;> cases y
  case finite.finite =>
    obtain ⟨rfl, hvalue⟩ := h
    rw [round_finite hplaces, round_finite hplaces, inUnits_sub, inUnits_sub, hvalue]
  case infinite.infinite => rfl
  case quiet.quiet => rfl
  all_goals cases h

-- The multiple that a decimal is rounded to, in units: the sign is taken off before, and given
-- back.
theorem awayFromZero_signed (negative : Bool) (coefficient : Nat) (exponent unit : Int) :
    awayFromZero ((if negative then -(coefficient * 10 ^ exponent : ℚ)
        else coefficient * 10 ^ exponent) / 10 ^ unit) =
      if negative then -(inUnits coefficient (exponent - unit) : Int)
      else inUnits coefficient (exponent - unit) := by
  have hpos : 0 ≤ awayFromZero (coefficient * 10 ^ exponent / 10 ^ unit : ℚ) := by
    rw [awayFromZero_of_nonneg (by positivity)]
    exact round_nonneg (by positivity)
  rw [inUnits_sub, Int.toNat_of_nonneg hpos]
  cases negative with
  | false => rfl
  | true => exact (congrArg awayFromZero (neg_div _ _)).trans (awayFromZero_neg _)

theorem natAbs_awayFromZero (negative : Bool) (coefficient : Nat) (exponent unit : Int) :
    (awayFromZero ((if negative then -(coefficient * 10 ^ exponent : ℚ)
        else coefficient * 10 ^ exponent) / 10 ^ unit)).natAbs =
      inUnits coefficient (exponent - unit) := by
  rw [awayFromZero_signed]
  cases negative <;> simp

theorem round_eq_toMultiple {x : Decimal} {q : ℚ} (hplaces : -999999 ≤ places)
    (hq : x.toRat? = some q) :
    (width (awayFromZero (q / 10 ^ unitFor places)).natAbs ≤ precision ∧
      ∃ r, x.round places = .ok r ∧ r.toRat? = some (toMultiple (10 ^ unitFor places) q)) ∨
    (precision < width (awayFromZero (q / 10 ^ unitFor places)).natAbs ∧
      x.round places = .error .notRoundable) := by
  cases x with
  | finite negative coefficient exponent =>
      cases Option.some.inj hq
      rw [round_finite hplaces, natAbs_awayFromZero]
      by_cases hfits : width (inUnits coefficient (exponent - unitFor places)) ≤ precision
      · refine .inl ⟨hfits, _, if_pos hfits, ?_⟩
        rw [toMultiple, awayFromZero_signed, toRat?]
        cases negative <;> simp
      · exact .inr ⟨Nat.not_le.mp hfits, if_neg hfits⟩
  | infinite => cases hq
  | quiet => cases hq

end Round

end Decimal

namespace Value

variable {x : Number} {d : Decimal} {q : ℚ} {places : Int}

-- A number is rounded as the decimal that is read from its text.
theorem round_number (htext : Decimal.ofText? x.text = some d) (hq : d.toRat? = some q)
    (hplaces : -999999 ≤ places) : (Value.number x).round places =
      ((d.round places).map fun r => some r.toBinary64).mapError Fault.ofRounding := by
  have halike := Number.alike_of_ofText?_text htext
  have hnan : x.isNan = false := by
    rw [halike.toRat?_eq] at hq
    cases x with
    | int n => rfl
    | real value => cases value <;> first | rfl | cases hq
  rw [halike.round_eq hplaces]
  unfold Value.round
  simp [isMissing, hnan, Number.round, bind, Except.bind]

-- For every number of places within the limits: the decimal that is computed from a number is the
-- nearest multiple of the unit, a tie away from zero, as long as it has at most 28 digits; the
-- others are refused. The rounding is odd and monotone.
theorem round_nearest (hplaces : -999999 ≤ places) :
    (-27 ≤ places → Decimal.unitFor places = -max places 0) ∧
    (places < -27 → Decimal.unitFor places = -places - 27) ∧
    (∀ q, NearestMultiple (10 ^ Decimal.unitFor places) q
      (toMultiple (10 ^ Decimal.unitFor places) q)) ∧
    (∀ q, toMultiple (10 ^ Decimal.unitFor places) (-q) =
      -toMultiple (10 ^ Decimal.unitFor places) q) ∧
    Monotone (toMultiple (10 ^ Decimal.unitFor places)) ∧
    ∀ x d q, Decimal.ofText? (Number.text x) = some d → d.toRat? = some q →
      (Decimal.width (awayFromZero (q / 10 ^ Decimal.unitFor places)).natAbs ≤ 28 →
        ∃ r, d.round places = .ok r ∧
          r.toRat? = some (toMultiple (10 ^ Decimal.unitFor places) q) ∧
          (Value.number x).round places = .ok (some r.toBinary64)) ∧
      ((Value.number x).round places = .error .notRoundable ↔
        28 < Decimal.width (awayFromZero (q / 10 ^ Decimal.unitFor places)).natAbs) := by
  have hunit : (0 : ℚ) < 10 ^ Decimal.unitFor places := by positivity
  refine ⟨Decimal.unitFor_of_ge, Decimal.unitFor_of_lt, nearestMultiple_toMultiple hunit,
    toMultiple_neg _, toMultiple_mono hunit, fun x d q htext hq => ?_⟩
  rw [round_number htext hq hplaces]
  rcases Decimal.round_eq_toMultiple hplaces hq with ⟨hfits, r, hr, hvalue⟩ | ⟨hlong, hr⟩
  · refine ⟨fun _ => ⟨r, hr, hvalue, by rw [hr]; rfl⟩, ?_⟩
    rw [hr]
    refine ⟨fun h => ?_, fun h => absurd hfits (Nat.not_le.mpr h)⟩
    cases h
  · refine ⟨fun h => absurd h (Nat.not_le.mpr hlong), ?_⟩
    rw [hr]
    exact ⟨fun _ => hlong, fun _ => rfl⟩

def twentieth : Binary64 := .finite false 7205759403792794 (-57) (by decide)

def nines : Int := 99999999999999999999999999999

-- The number nearest to a twentieth, at one place: the tie goes up. Twenty-nine nines in tens: only
-- the carry makes the twenty-ninth digit.
theorem tie_and_carry_rounded :
    (-999999 : Int) ≤ 1 ∧ (-999999 : Int) ≤ -28 ∧
    Decimal.ofText? (Number.text (.real twentieth)) = some (.finite false 5 (-2)) ∧
    Decimal.ofText? (Number.text (.int nines)) = some (.finite false nines.natAbs 0) ∧
    (∃ r, Decimal.round (.finite false 5 (-2)) 1 = .ok r ∧ r.toRat? = some (1 / 10) ∧
      (Value.number (.real twentieth)).round 1 = .ok (some r.toBinary64)) ∧
    (Value.number (.int nines)).round (-28) = .error .notRoundable := by
  have htwentieth : Decimal.ofText? (Number.text (.real twentieth)) = some (.finite false 5 (-2)) := by
    decide +kernel
  have hnines : Decimal.ofText? (Number.text (.int nines)) = some (.finite false nines.natAbs 0) := by
    decide +kernel
  refine ⟨by decide, by decide, htwentieth, hnines, ?_, ?_⟩
  · obtain ⟨hunit, -, -, -, -, h⟩ := @round_nearest 1 (by decide)
    have htie : awayFromZero (((5 : Nat) * 10 ^ (-2 : Int) : ℚ) / 10 ^ Decimal.unitFor 1) = 1 := by
      rw [hunit (by decide), awayFromZero_of_nonneg (by positivity), round_eq_iff]
      norm_num
    have hfits : Decimal.width (1 : Int).natAbs ≤ 28 := by decide
    obtain ⟨r, hr, hvalue, hround⟩ := (h _ _ _ htwentieth rfl).1 (by
      rw [if_neg Bool.false_ne_true, htie]
      exact hfits)
    refine ⟨r, hr, ?_, hround⟩
    rw [hvalue, toMultiple, if_neg Bool.false_ne_true, htie, hunit (by decide)]
    norm_num
  · obtain ⟨-, hunit, -, -, -, h⟩ := @round_nearest (-28) (by decide)
    have hcarry : awayFromZero ((nines.natAbs * 10 ^ (0 : Int) : ℚ) / 10 ^ Decimal.unitFor (-28)) =
        10000000000000000000000000000 := by
      rw [hunit (by decide), awayFromZero_of_nonneg (by positivity), round_eq_iff]
      norm_num [nines]
    have hlong : 28 < Decimal.width (10000000000000000000000000000 : Int).natAbs := by decide +kernel
    refine (h _ _ _ hnines rfl).2.mpr ?_
    rw [if_neg Bool.false_ne_true, hcarry]
    exact hlong

-- So far before the point the unit is not one: thirty places are rounded to thousands.
theorem rounded_to_thousands :
    Decimal.ofText? (Number.text (.int 12345)) = some (.finite false 12345 0) ∧
    ∃ r, Decimal.round (.finite false 12345 0) (-30) = .ok r ∧ r.toRat? = some 12000 ∧
      (Value.number (.int 12345)).round (-30) = .ok (some r.toBinary64) ∧
      ¬NearestMultiple (10 ^ (-max (-30 : Int) 0)) 12345 12000 := by
  have hround : Decimal.round (.finite false 12345 0) (-30) = .ok (.finite false 12 3) := by
    decide +kernel
  have htext : Decimal.ofText? (Number.text (.int 12345)) = some (.finite false 12345 0) := by
    decide +kernel
  refine ⟨htext, .finite false 12 3, hround, ?_, ?_, fun h => ?_⟩
  · simp [Decimal.toRat?]
    norm_num
  · rw [round_number htext rfl (by decide), hround]
    rfl
  · have hnearer := h.nearest 12345
    norm_num at hnearer

end Value

end Tileboard
