import Mathlib
import Tileboard.Proofs.Number.Exact

namespace Tileboard

namespace Binary64

variable {n d : Nat} {exponent : Int}

theorem shifted_quotient (base : Nat) (hbase : 0 < base) (hd : 0 < d) (n : Nat) (exponent : Int) :
    let pair := if 0 ≤ exponent then (n, d * base ^ exponent.toNat)
      else (n * base ^ (-exponent).toNat, d)
    0 < pair.2 ∧ (pair.1 : ℚ) / pair.2 = (n : ℚ) / d / base ^ exponent := by
  split_ifs with h
  · obtain ⟨k, rfl⟩ := Int.eq_ofNat_of_zero_le h
    refine ⟨Nat.mul_pos hd (Nat.pow_pos hbase), ?_⟩
    rw [Nat.cast_mul, Int.toNat_natCast, Nat.cast_pow, zpow_natCast, div_div]
  · obtain ⟨k, hk⟩ := Int.eq_ofNat_of_zero_le (Int.neg_nonneg.mpr (Int.not_le.mp h).le)
    have hexponent : exponent = -(k : Int) := by omega
    refine ⟨hd, ?_⟩
    rw [hk, Int.toNat_natCast, Nat.cast_mul, Nat.cast_pow, hexponent, zpow_neg, zpow_natCast,
      div_inv_eq_mul]
    ring

theorem scaled_quotient (hd : 0 < d) (n : Nat) (exponent : Int) :
    0 < (scaled n d exponent).2 ∧
      ((scaled n d exponent).1 : ℚ) / (scaled n d exponent).2 = (n : ℚ) / d / 2 ^ exponent :=
  shifted_quotient 2 Nat.two_pos hd n exponent

-- The unit that the binary lengths suggest.
def guessFor (n d : Nat) : Int := (Nat.log2 n : Int) - (Nat.log2 d : Int) - 52

-- In the unit of the guess a quotient has 52 bits or 53.
theorem quotient_guess (hn : n ≠ 0) (hd : 0 < d) :
    2 ^ 51 < (n : ℚ) / d / 2 ^ guessFor n d ∧ (n : ℚ) / d / 2 ^ guessFor n d < 2 ^ 53 := by
  have hd' : (0 : ℚ) < d := Nat.cast_pos.mpr hd
  have hunit : (0 : ℚ) < 2 ^ guessFor n d := by positivity
  have hnlow : (2 : ℚ) ^ (n.log2 : Int) ≤ n := by
    rw [zpow_natCast]
    exact_mod_cast Nat.log2_self_le hn
  have hnhigh : (n : ℚ) < 2 ^ ((n.log2 : Int) + 1) := by
    exact_mod_cast (Nat.lt_log2_self : n < 2 ^ (n.log2 + 1))
  have hdlow : (2 : ℚ) ^ (d.log2 : Int) ≤ d := by
    rw [zpow_natCast]
    exact_mod_cast Nat.log2_self_le hd.ne'
  have hdhigh : (d : ℚ) < 2 ^ ((d.log2 : Int) + 1) := by
    exact_mod_cast (Nat.lt_log2_self : d < 2 ^ (d.log2 + 1))
  have htwo : (2 : ℚ) ≠ 0 := by norm_num
  rw [lt_div_iff₀ hunit, lt_div_iff₀ hd', div_lt_iff₀ hunit, div_lt_iff₀ hd']
  constructor
  · calc (2 : ℚ) ^ 51 * 2 ^ guessFor n d * d
        < 2 ^ 51 * 2 ^ guessFor n d * 2 ^ ((d.log2 : Int) + 1) :=
          mul_lt_mul_of_pos_left hdhigh (by positivity)
      _ = 2 ^ (n.log2 : Int) := by
          rw [← zpow_natCast, ← zpow_add₀ htwo, ← zpow_add₀ htwo, guessFor]
          congr 1
          push_cast
          omega
      _ ≤ n := hnlow
  · calc (n : ℚ) < 2 ^ ((n.log2 : Int) + 1) := hnhigh
      _ = 2 ^ 53 * 2 ^ guessFor n d * 2 ^ (d.log2 : Int) := by
          rw [← zpow_natCast, ← zpow_add₀ htwo, ← zpow_add₀ htwo, guessFor]
          congr 1
          push_cast
          omega
      _ ≤ 2 ^ 53 * 2 ^ guessFor n d * d := mul_le_mul_of_nonneg_left hdlow (by positivity)

-- A unit below doubles the quotient.
theorem quotient_sub_one (q : ℚ) (exponent : Int) : q / 2 ^ (exponent - 1) = 2 * (q / 2 ^ exponent) := by
  rw [zpow_sub_one₀ (by norm_num)]
  field_simp

-- The exponent is that at which the quotient has 53 bits, or the least one.
theorem exponentFor_spec (hn : n ≠ 0) (hd : 0 < d) :
    exponentFor n d ≤ max (guessFor n d) (-1074) ∧ -1074 ≤ exponentFor n d ∧
      (n : ℚ) / d / 2 ^ exponentFor n d < 2 ^ 53 ∧
      (2 ^ 52 ≤ (n : ℚ) / d / 2 ^ exponentFor n d ∨ exponentFor n d = -1074) := by
  obtain ⟨hlow, hhigh⟩ := quotient_guess hn hd
  obtain ⟨hpos, hratio⟩ := scaled_quotient hd n (guessFor n d)
  have hpos' : (0 : ℚ) < (scaled n d (guessFor n d)).2 := Nat.cast_pos.mpr hpos
  -- the exponent before it is held above the least one
  obtain ⟨e, he, hle, helow, hehigh⟩ : ∃ e, exponentFor n d = max e (-1074) ∧ e ≤ guessFor n d ∧
      2 ^ 52 ≤ (n : ℚ) / d / 2 ^ e ∧ (n : ℚ) / d / 2 ^ e < 2 ^ 53 := by
    by_cases hshort : (scaled n d (guessFor n d)).1 / (scaled n d (guessFor n d)).2 < 4503599627370496
    · refine ⟨guessFor n d - 1, ?_, by omega, ?_, ?_⟩
      · unfold exponentFor
        exact congrArg (max · (-1074)) (if_pos hshort)
      · rw [quotient_sub_one]
        linarith
      · rw [Nat.div_lt_iff_lt_mul hpos] at hshort
        have hlt : (n : ℚ) / d / 2 ^ guessFor n d < 2 ^ 52 := by
          rw [← hratio, div_lt_iff₀ hpos']
          exact_mod_cast hshort
        rw [quotient_sub_one]
        linarith
    · refine ⟨guessFor n d, ?_, le_rfl, ?_, hhigh⟩
      · unfold exponentFor
        exact congrArg (max · (-1074)) (if_neg hshort)
      · rw [Nat.not_lt, Nat.le_div_iff_mul_le hpos] at hshort
        rw [← hratio, le_div_iff₀ hpos']
        exact_mod_cast hshort
  rw [he]
  refine ⟨max_le_max_right _ hle, le_max_right _ _, ?_, ?_⟩
  · refine lt_of_le_of_lt ?_ hehigh
    have hunits : (2 : ℚ) ^ e ≤ 2 ^ max e (-1074) :=
      zpow_le_zpow_right₀ (by norm_num) (le_max_left _ _)
    exact div_le_div_of_nonneg_left (by positivity) (by positivity) hunits
  · rcases le_total (-1074) e with h | h
    · rw [max_eq_left h]
      exact .inl helow
    · exact .inr (max_eq_right h)

-- The carry past 53 bits: half as many of the unit above.
theorem magnitude_carry (exponent : Int) : magnitude 4503599627370496 (exponent + 1) =
    magnitude 9007199254740992 exponent := by
  rw [magnitude, magnitude, powerOfTwo_eq, powerOfTwo_eq, zpow_add_one₀ (by norm_num)]
  push_cast
  ring

def mantissaFor (n d : Nat) : Nat :=
  divideToEven (scaled n d (exponentFor n d)).1 (scaled n d (exponentFor n d)).2

-- Below the greatest exponents a quotient has a mantissa and an exponent of the format.
theorem exists_parts (negative : Bool) (hn : n ≠ 0) (hd : 0 < d) (h : exponentFor n d ≤ 970) :
    ∃ mantissa exponent, Canonical mantissa exponent ∧
      ofQuotient negative n d = ofParts negative mantissa exponent ∧
      magnitude mantissa exponent = magnitude (mantissaFor n d) (exponentFor n d) := by
  obtain ⟨-, hleast, hhigh, hlow⟩ := exponentFor_spec hn hd
  obtain ⟨hpos, hratio⟩ := scaled_quotient hd n (exponentFor n d)
  have hpos' : (0 : ℚ) < (scaled n d (exponentFor n d)).2 := Nat.cast_pos.mpr hpos
  have hmantissa : mantissaFor n d ≤ 9007199254740992 := by
    refine divideToEven_le_of_le_mul hpos ?_
    rw [← hratio, div_lt_iff₀ hpos'] at hhigh
    exact_mod_cast hhigh.le
  have hbits : 4503599627370496 ≤ mantissaFor n d ∨ exponentFor n d = -1074 := by
    refine hlow.imp_left fun hlow => ?_
    rw [← hratio, le_div_iff₀ hpos'] at hlow
    have hle : 4503599627370496 * (scaled n d (exponentFor n d)).2 ≤
        (scaled n d (exponentFor n d)).1 := by exact_mod_cast hlow
    exact ((Nat.le_div_iff_mul_le hpos).mpr hle).trans (div_le_divideToEven _ _)
  have hquotient : ofQuotient negative n d =
      if mantissaFor n d = 9007199254740992 then
        ofParts negative 4503599627370496 (exponentFor n d + 1)
      else ofParts negative (mantissaFor n d) (exponentFor n d) := by
    unfold ofQuotient
    rw [if_neg hn]
    rfl
  rw [hquotient]
  by_cases hfull : mantissaFor n d = 9007199254740992
  · rw [if_pos hfull]
    refine ⟨_, _, ⟨by decide, by omega, by omega, .inl le_rfl⟩, rfl, ?_⟩
    rw [magnitude_carry, hfull]
  · rw [if_neg hfull]
    exact ⟨_, _, ⟨by omega, hleast, by omega, hbits⟩, rfl, rfl⟩

theorem isFinite_ofQuotient (negative : Bool) (hd : 0 < d) (h : guessFor n d ≤ 970) :
    (ofQuotient negative n d).isFinite = true := by
  by_cases hn : n = 0
  · unfold ofQuotient
    rw [if_pos hn]
    rfl
  obtain ⟨hmost, -⟩ := exponentFor_spec hn hd
  obtain ⟨mantissa, exponent, hcanonical, hparts, -⟩ := exists_parts negative hn hd (by omega)
  rw [hparts]
  exact isFinite_ofParts hcanonical

section Whole

variable {mantissa : Nat} {x : Binary64}

theorem toInt?_of_toRat? {k : Int} (h : x.toRat? = some (k : ℚ)) : x.toInt? = some k := by
  unfold toInt?
  rw [h]
  dsimp only
  rw [if_pos (Rat.den_intCast k), Rat.num_intCast]

theorem natAbs_signed (negative : Bool) (n : Nat) :
    (if negative then -(n : Int) else n).natAbs = n := by
  cases negative <;> simp

-- A whole number is rounded to a whole number of at most as many bits.
theorem toInt?_ofQuotient_one (negative : Bool) {bits : Nat} (hbits : 53 ≤ bits) (hmost : bits ≤ 1023)
    (h : n < 2 ^ bits) : ∃ k : Int, (ofQuotient negative n 1).toInt? = some k ∧
      k.natAbs ≤ 2 ^ bits := by
  rcases Nat.lt_or_ge n 9007199254740992 with hsmall | hlarge
  · refine ⟨if negative then -(n : Int) else n, toInt?_of_toRat? ?_, ?_⟩
    · rw [toRat?_ofQuotient_one negative hsmall]
      cases negative <;> simp
    · rw [natAbs_signed]
      exact h.le
  have hn : n ≠ 0 := by omega
  have hlow : 53 ≤ n.log2 := (Nat.le_log2 hn).mpr hlarge
  have hhigh : n.log2 < bits := (Nat.log2_lt hn).mpr h
  obtain ⟨k, hk⟩ : ∃ k, n.log2 = k + 52 := ⟨n.log2 - 52, by omega⟩
  have hexponent : exponentFor n 1 = (k : Int) := by
    rw [exponentFor_one hn, unitOf]
    omega
  have hscaled : scaled n 1 (k : Int) = (n, twoTo k) := by
    rw [scaled, if_pos (Int.natCast_nonneg k), Int.toNat_natCast, Nat.one_mul]
  have hmantissa : mantissaFor n 1 ≤ 2 ^ 53 := by
    rw [mantissaFor, hexponent, hscaled]
    refine divideToEven_le_of_le_mul (Nat.two_pow_pos k) ?_
    have hlt : n < 2 ^ (n.log2 + 1) := Nat.lt_log2_self
    rw [hk, Nat.add_assoc, pow_add, Nat.mul_comm] at hlt
    exact hlt.le
  have hmagnitude : magnitude (mantissaFor n 1) (exponentFor n 1) =
      ((mantissaFor n 1 * 2 ^ k : Nat) : ℚ) := by
    rw [magnitude, powerOfTwo_eq, hexponent, zpow_natCast, Nat.cast_mul, Nat.cast_pow]
    rfl
  -- a number whose unit is not below one is whole
  obtain ⟨mantissa, exponent, hcanonical, hparts, hsame⟩ :=
    exists_parts negative hn Nat.one_pos (by omega)
  refine ⟨if negative then -((mantissaFor n 1 * 2 ^ k : Nat) : Int)
    else (mantissaFor n 1 * 2 ^ k : Nat), toInt?_of_toRat? ?_, ?_⟩
  · rw [hparts, toRat?_ofParts hcanonical, hsame, hmagnitude]
    cases negative <;> simp
  · rw [natAbs_signed]
    calc mantissaFor n 1 * 2 ^ k ≤ 2 ^ 53 * 2 ^ k := Nat.mul_le_mul_right _ hmantissa
      _ = 2 ^ (53 + k) := (pow_add 2 53 k).symm
      _ ≤ 2 ^ bits := Nat.pow_le_pow_right Nat.two_pos (by omega)

end Whole

end Binary64

end Tileboard
