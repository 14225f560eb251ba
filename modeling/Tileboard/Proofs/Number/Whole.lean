import Mathlib
import Tileboard.Number.Basic

namespace Tileboard

namespace Binary64

variable {n d k : Nat}

theorem div_le_divideToEven (n d : Nat) : n / d ≤ divideToEven n d := by
  unfold divideToEven
  dsimp only
  split_ifs <;> omega

theorem divideToEven_le (n d : Nat) : divideToEven n d ≤ n / d + 1 := by
  unfold divideToEven
  dsimp only
  split_ifs <;> omega

-- What is at most a multiple is so after rounding.
theorem divideToEven_le_of_le_mul (hd : 0 < d) (h : n ≤ k * d) : divideToEven n d ≤ k := by
  rcases Nat.lt_or_ge (n / d) k with hlt | hge
  · exact (divideToEven_le n d).trans hlt
  · have hquotient : n / d = k := by
      have hle : n / d ≤ k := by
        rw [← Nat.mul_div_cancel k hd]
        exact Nat.div_le_div_right h
      omega
    have hexact : n % d = 0 := by
      have hsum := Nat.div_add_mod n d
      rw [hquotient, Nat.mul_comm] at hsum
      omega
    unfold divideToEven
    dsimp only
    rw [hexact, hquotient, if_pos (by omega)]

theorem isFinite_ofParts {negative : Bool} {mantissa : Nat} {exponent : Int}
    (h : Canonical mantissa exponent) : (ofParts negative mantissa exponent).isFinite = true := by
  unfold ofParts
  rw [dif_pos h]
  rfl

-- The greatest whole number of the format.
def greatestWhole : Nat := 9007199254740991 * twoTo 971

-- A quotient that fits the 53 bits, or is rounded to just past them below the greatest exponent, is
-- no infinity.
theorem isFinite_rounded {negative : Bool} {mantissa : Nat} {exponent : Int}
    (hleast : 4503599627370496 ≤ mantissa) (hmost : mantissa ≤ 9007199254740992)
    (hlow : -1074 ≤ exponent) (hhigh : exponent ≤ 971)
    (hlast : exponent = 971 → mantissa < 9007199254740992) :
    (if mantissa = 9007199254740992 then ofParts negative 4503599627370496 (exponent + 1)
      else ofParts negative mantissa exponent).isFinite = true := by
  split
  · rename_i hfull
    have hbelow : exponent ≠ 971 := fun h => absurd hfull (Nat.ne_of_lt (hlast h))
    exact isFinite_ofParts ⟨by decide, by omega, by omega, .inl (Nat.le_refl _)⟩
  · exact isFinite_ofParts ⟨by omega, hlow, hhigh, .inl hleast⟩

-- The unit in which a whole number has 53 bits.
def unitOf (n : Nat) : Int := (n.log2 : Int) - 52

theorem scaled_unitOf (hn : n ≠ 0) : 0 < (scaled n 1 (unitOf n)).2 ∧
    4503599627370496 * (scaled n 1 (unitOf n)).2 ≤ (scaled n 1 (unitOf n)).1 ∧
    (scaled n 1 (unitOf n)).1 ≤ 9007199254740992 * (scaled n 1 (unitOf n)).2 := by
  have hlower := Nat.log2_self_le hn
  have hupper : n < 2 ^ (n.log2 + 1) := Nat.lt_log2_self
  unfold scaled unitOf twoTo
  rcases Nat.lt_or_ge n.log2 52 with hsmall | hlarge
  · have hunit : (-((n.log2 : Int) - 52)).toNat = 52 - n.log2 := by omega
    rw [if_neg (by omega), hunit]
    have hfirst := Nat.mul_le_mul_right (2 ^ (52 - n.log2)) hlower
    have hsecond := Nat.mul_le_mul_right (2 ^ (52 - n.log2)) hupper.le
    rw [← pow_add, Nat.add_sub_cancel' hsmall.le] at hfirst
    rw [← pow_add, Nat.add_right_comm, Nat.add_sub_cancel' hsmall.le] at hsecond
    exact ⟨Nat.one_pos, hfirst, hsecond⟩
  · have hunit : ((n.log2 : Int) - 52).toNat = n.log2 - 52 := by omega
    rw [if_pos (by omega), hunit]
    have hpower : ∀ k, 2 ^ (k + 52) * 2 ^ (n.log2 - 52) = 2 ^ (n.log2 + k) := fun k => by
      rw [← pow_add]
      congr 1
      omega
    dsimp only
    rw [Nat.one_mul]
    exact ⟨Nat.two_pow_pos _, (hpower 0).trans_le hlower, hupper.le.trans (hpower 1).ge⟩

theorem exponentFor_one (hn : n ≠ 0) : exponentFor n 1 = max (unitOf n) (-1074) := by
  obtain ⟨hpos, hleast, -⟩ := scaled_unitOf hn
  have hguess : (n.log2 : Int) - (Nat.log2 1 : Int) - 52 = unitOf n := by
    have hone : Nat.log2 1 = 0 := by decide
    rw [hone, unitOf]
    omega
  unfold exponentFor
  dsimp only
  rw [hguess, if_neg (Nat.not_lt.mpr ((Nat.le_div_iff_mul_le hpos).mpr hleast))]

theorem isFinite_ofQuotient_one (negative : Bool) (h : n ≤ greatestWhole) :
    (ofQuotient negative n 1).isFinite = true := by
  unfold ofQuotient
  by_cases hzero : n = 0
  · rw [if_pos hzero]
    rfl
  obtain ⟨hpos, hleast, hmost⟩ := scaled_unitOf hzero
  have hlog : n.log2 < 1024 := by
    rw [Nat.log2_lt hzero]
    exact h.trans_lt (by decide +kernel)
  have hexponent : exponentFor n 1 = unitOf n := by
    rw [exponentFor_one hzero, unitOf]
    omega
  -- at the greatest exponent the number itself is divided
  have hlast : unitOf n = 971 → scaled n 1 (unitOf n) = (n, 1 * twoTo 971) := fun hunit => by
    have hnat : (971 : Int).toNat = 971 := by decide
    rw [hunit, scaled, if_pos (by decide), hnat]
  rw [if_neg hzero, hexponent]
  dsimp only
  generalize scaled n 1 (unitOf n) = quotient at hpos hleast hmost hlast ⊢
  obtain ⟨a, b⟩ := quotient
  dsimp only at hpos hleast hmost ⊢
  refine isFinite_rounded ?_ (divideToEven_le_of_le_mul hpos hmost) ?_ ?_ fun hunit => ?_
  · exact ((Nat.le_div_iff_mul_le hpos).mpr hleast).trans (div_le_divideToEven a b)
  · rw [unitOf]
    omega
  · rw [unitOf]
    omega
  · obtain ⟨ha, hb⟩ := Prod.mk.inj (hlast hunit)
    have hbelow : a ≤ 9007199254740991 * b := by
      rw [ha, hb, Nat.one_mul]
      exact h
    exact Nat.lt_succ_of_le (divideToEven_le_of_le_mul hpos hbelow)

theorem cast_twoTo (k : Nat) : (twoTo k : ℚ) = 2 ^ k := by
  have hpower : twoTo k = 2 ^ k := rfl
  rw [hpower, Nat.cast_pow]
  rfl

theorem powerOfTwo_eq (exponent : Int) : powerOfTwo exponent = 2 ^ exponent := by
  unfold powerOfTwo
  split_ifs with h
  · obtain ⟨k, rfl⟩ := Int.eq_ofNat_of_zero_le h
    rw [Int.toNat_natCast, cast_twoTo, zpow_natCast]
  · obtain ⟨k, hk⟩ := Int.eq_ofNat_of_zero_le (Int.neg_nonneg.mpr (Int.not_le.mp h).le)
    have hexponent : exponent = -(k : Int) := by omega
    rw [hk, Int.toNat_natCast, Rat.mkRat_eq_div, hexponent, zpow_neg, zpow_natCast, Int.cast_one,
      one_div, cast_twoTo]

theorem powerOfTwo_nonneg (exponent : Int) : 0 ≤ powerOfTwo exponent := by
  rw [powerOfTwo_eq]
  positivity

theorem powerOfTwo_le {exponent : Int} {k : Nat} (h : exponent ≤ k) :
    powerOfTwo exponent ≤ (twoTo k : Rat) := by
  rw [powerOfTwo_eq, cast_twoTo, ← zpow_natCast]
  exact zpow_le_zpow_right₀ (by norm_num) h

theorem magnitude_nonneg (mantissa : Nat) (exponent : Int) : 0 ≤ magnitude mantissa exponent :=
  mul_nonneg (Nat.cast_nonneg _) (powerOfTwo_nonneg exponent)

-- What a whole binary64 number can be.
theorem natAbs_toInt?_le {x : Binary64} {n : Int} (h : x.toInt? = some n) :
    n.natAbs ≤ greatestWhole := by
  cases x with
  | nan | infinite => cases h
  | finite negative mantissa exponent hcanonical =>
      have hmagnitude := magnitude_nonneg mantissa exponent
      obtain ⟨q, hq, habs⟩ : ∃ q, (finite negative mantissa exponent hcanonical).toRat? = some q ∧
          |q| = magnitude mantissa exponent := by
        refine ⟨_, rfl, ?_⟩
        split_ifs
        · rw [abs_neg, abs_of_nonneg hmagnitude]
        · exact abs_of_nonneg hmagnitude
      unfold toInt? at h
      rw [hq] at h
      dsimp only at h
      split at h
      · rename_i hden
        have hnum : (n : Rat) = q := by
          rw [← Option.some.inj h]
          exact Rat.coe_int_num_of_den_eq_one hden
        have hmantissa : (mantissa : Rat) ≤ (9007199254740991 : Nat) :=
          Nat.cast_le.mpr (Nat.le_of_lt_succ hcanonical.1)
        have hle : |(n : Rat)| ≤ (greatestWhole : Nat) := by
          rw [hnum, habs, magnitude, greatestWhole, Nat.cast_mul]
          exact mul_le_mul hmantissa (powerOfTwo_le (by exact_mod_cast hcanonical.2.2.1))
            (powerOfTwo_nonneg exponent) (Nat.cast_nonneg _)
        rw [← Int.cast_abs, Int.abs_eq_natAbs, Int.cast_natCast] at hle
        exact Nat.cast_le.mp hle
      · cases h

theorem isFinite_ofInt_toInt? {x : Binary64} {n : Int} (h : x.toInt? = some n) :
    (ofInt n).isFinite = true :=
  isFinite_ofQuotient_one _ (natAbs_toInt?_le h)

end Binary64

end Tileboard
