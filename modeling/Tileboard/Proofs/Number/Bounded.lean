import Mathlib
import Tileboard.Proofs.Number.Fitting

namespace Tileboard

namespace Binary64

variable {negative : Bool} {n d k : Nat} {x y : Binary64}

-- A finite number of a sign, of at most a size.
def Within (x : Binary64) (negative : Bool) (bound : ℚ) : Prop :=
  ∃ mantissa exponent h, x = .finite negative mantissa exponent h ∧
    magnitude mantissa exponent ≤ bound

theorem Within.isFinite {bound : ℚ} (h : x.Within negative bound) : x.isFinite = true := by
  obtain ⟨mantissa, exponent, hcanonical, rfl, -⟩ := h
  rfl

theorem Within.toRat? {bound : ℚ} (h : x.Within false bound) :
    ∃ r, x.toRat? = some r ∧ 0 ≤ r ∧ r ≤ bound := by
  obtain ⟨mantissa, exponent, hcanonical, rfl, hle⟩ := h
  exact ⟨_, rfl, magnitude_nonneg mantissa exponent, hle⟩

theorem within_zero (negative : Bool) (k : Nat) : (zero negative).Within negative k := by
  refine ⟨0, -1074, by decide, rfl, ?_⟩
  rw [magnitude, Nat.cast_zero, zero_mul]
  exact Nat.cast_nonneg k

theorem within_ofParts {mantissa : Nat} {exponent : Int} (h : Canonical mantissa exponent)
    (hle : magnitude mantissa exponent ≤ k) :
    (ofParts negative mantissa exponent).Within negative k :=
  ⟨mantissa, exponent, h, dif_pos h, hle⟩

-- In the unit of a quotient the bound is whole, so rounding does not leave it.
theorem within_ofQuotient (negative : Bool) (hd : 0 < d) (hk : k < 9007199254740992)
    (h : n ≤ k * d) : (ofQuotient negative n d).Within negative k := by
  by_cases hn : n = 0
  · unfold ofQuotient
    rw [if_pos hn]
    exact within_zero negative k
  obtain ⟨-, hleast, -, hlow⟩ := exponentFor_spec hn hd
  obtain ⟨hpos, hratio⟩ := scaled_quotient hd n (exponentFor n d)
  have hquotient : (n : ℚ) / d ≤ k := by
    rw [div_le_iff₀ (Nat.cast_pos.mpr hd)]
    exact_mod_cast h
  -- a quotient of 53 bits in a unit above one would be past the bound
  obtain ⟨j, hj⟩ : ∃ j : Nat, exponentFor n d = -(j : Int) := by
    refine ⟨(-exponentFor n d).toNat, ?_⟩
    rcases hlow with hlow | hlow
    · have hunit : (2 : ℚ) ^ exponentFor n d < 2 ^ (1 : Int) := by
        rw [le_div_iff₀ (by positivity)] at hlow
        have hk' : (k : ℚ) < 2 ^ 53 := by exact_mod_cast hk
        rw [zpow_one]
        linarith
      have hlt := (zpow_lt_zpow_iff_right₀ (by norm_num)).mp hunit
      omega
    · omega
  have hwhole : mantissaFor n d ≤ k * 2 ^ j := by
    refine divideToEven_le_of_le_mul hpos ?_
    have hle : ((scaled n d (exponentFor n d)).1 : ℚ) ≤
        k * 2 ^ j * (scaled n d (exponentFor n d)).2 := by
      rw [← div_le_iff₀ (Nat.cast_pos.mpr hpos), hratio, hj, zpow_neg, zpow_natCast, div_inv_eq_mul]
      exact mul_le_mul_of_nonneg_right hquotient (by positivity)
    exact_mod_cast hle
  obtain ⟨mantissa, exponent, hcanonical, hparts, hsame⟩ := exists_parts negative hn hd (by omega)
  rw [hparts]
  refine within_ofParts hcanonical ?_
  rw [hsame, magnitude, powerOfTwo_eq, hj, zpow_neg, zpow_natCast, ← div_eq_mul_inv,
    div_le_iff₀ (by positivity)]
  exact_mod_cast hwhole

section Product

variable {a b : Bool} {p q : ℚ}

theorem within_ofRat (hk : k < 9007199254740992) (hsize : |q| ≤ k)
    (hsign : q ≠ 0 → (negative = true ↔ q < 0)) : (ofRat negative q).Within negative k := by
  unfold ofRat
  by_cases hzero : q.num = 0
  · rw [if_pos hzero]
    exact within_zero negative k
  have hnegative : decide (q.num < 0) = negative := by
    rw [Bool.eq_iff_iff, decide_eq_true_iff, Rat.num_neg]
    exact (hsign fun h => hzero (Rat.num_eq_zero.mpr h)).symm
  rw [if_neg hzero, hnegative]
  refine within_ofQuotient negative q.pos hk ?_
  have hparts : |q| = (q.num.natAbs : ℚ) / q.den := by
    rw [Nat.cast_natAbs, Int.cast_abs]
    nth_rewrite 1 [← Rat.num_div_den q]
    rw [abs_div, Nat.abs_cast]
  rw [hparts, div_le_iff₀ (Nat.cast_pos.mpr q.pos)] at hsize
  exact_mod_cast hsize

theorem within_mul (hx : x.Within a p) (hy : y.Within b q) (hk : k < 9007199254740992)
    (h : p * q ≤ k) : (x.mul y).Within (a != b) k := by
  obtain ⟨m, e, hm, rfl, hp⟩ := hx
  obtain ⟨m', e', hm', rfl, hq⟩ := hy
  have hleft := magnitude_nonneg m e
  have hright := magnitude_nonneg m' e'
  have hproduct : magnitude m e * magnitude m' e' ≤ k :=
    (mul_le_mul hp hq hright (hleft.trans hp)).trans h
  have hnonneg := mul_nonneg hleft hright
  have hmul : (finite a m e hm).mul (finite b m' e' hm') = ofRat (a != b)
      ((if a then -magnitude m e else magnitude m e) *
        (if b then -magnitude m' e' else magnitude m' e')) := rfl
  rw [hmul]
  have hsigned : (if a then -magnitude m e else magnitude m e) *
      (if b then -magnitude m' e' else magnitude m' e') =
        if a != b then -(magnitude m e * magnitude m' e') else magnitude m e * magnitude m' e' := by
    cases a <;> cases b <;> simp
  rw [hsigned]
  generalize magnitude m e * magnitude m' e' = r at hproduct hnonneg
  cases a != b with
  | false =>
      rw [if_neg Bool.false_ne_true]
      refine within_ofRat hk (by rwa [abs_of_nonneg hnonneg]) fun _ => ?_
      simpa using hnonneg
  | true =>
      rw [if_pos rfl]
      refine within_ofRat hk (by rwa [abs_neg, abs_of_nonneg hnonneg]) fun hne => ?_
      exact iff_of_true rfl (neg_lt_zero.mpr (lt_of_le_of_ne hnonneg fun h => hne (by simp [← h])))

theorem within_hundredths (hx : x.Within negative k) (hk : k * 100 < 9007199254740992) :
    (x.mul (ofInt 100)).Within negative (k * 100 : Nat) := by
  have hhundred : (ofInt 100).Within false (100 : Nat) :=
    within_ofQuotient (decide ((100 : Int) < 0)) Nat.one_pos (by decide) (by decide)
  have hmul := within_mul hx hhundred hk (by push_cast; rfl)
  rwa [Bool.bne_false] at hmul

end Product

section Shortest

variable {leading exponent : Int} {digits fuel c : Nat}

theorem tenths_quotient (hd : 0 < d) (n : Nat) (exponent : Int) :
    0 < (tenths n d exponent).2 ∧
      ((tenths n d exponent).1 : ℚ) / (tenths n d exponent).2 = (n : ℚ) / d / 10 ^ exponent :=
  shifted_quotient 10 (by decide) hd n exponent

-- The neighbours on a grid that holds the bound do not leave it.
theorem neighbour?_le (hd : 0 < d) (h : (n : ℚ) / d < 10 ^ k) (hle : exponent ≤ k)
    (hc : neighbour? x n d exponent = some c) : (c : ℚ) * 10 ^ exponent ≤ 10 ^ k := by
  obtain ⟨hpos, hratio⟩ := tenths_quotient hd n exponent
  have hnext : c ≤ (tenths n d exponent).1 / (tenths n d exponent).2 + 1 := by
    unfold neighbour? at hc
    dsimp only at hc
    split at hc
    · split_ifs at hc <;> cases hc <;> omega
    · cases hc
      omega
    · cases hc
      omega
    · cases hc
  obtain ⟨j, hj⟩ := Int.eq_ofNat_of_zero_le (Int.sub_nonneg.mpr hle)
  have hgrid : (10 : ℚ) ^ k = 10 ^ j * 10 ^ exponent := by
    rw [← zpow_natCast, ← zpow_natCast, ← zpow_add₀ (by norm_num)]
    congr 1
    omega
  have hbelow : (tenths n d exponent).1 / (tenths n d exponent).2 < 10 ^ j := by
    rw [Nat.div_lt_iff_lt_mul hpos]
    have hlt : ((tenths n d exponent).1 : ℚ) < 10 ^ j * (tenths n d exponent).2 := by
      rw [← div_lt_iff₀ (Nat.cast_pos.mpr hpos), hratio, div_lt_iff₀ (by positivity), ← hgrid]
      exact h
    exact_mod_cast hlt
  rw [hgrid]
  refine mul_le_mul_of_nonneg_right ?_ (by positivity)
  exact_mod_cast hnext.trans hbelow

theorem withoutFinalZeros_value (fuel c : Nat) (exponent : Int) :
    ((withoutFinalZeros fuel c exponent).1 : ℚ) * 10 ^ (withoutFinalZeros fuel c exponent).2 =
      c * 10 ^ exponent := by
  induction fuel generalizing c exponent with
  | zero => rfl
  | succ fuel ih =>
      unfold withoutFinalZeros
      by_cases h : c % 10 = 0
      · have hten : c = c / 10 * 10 := by omega
        rw [if_pos h, ih, zpow_add_one₀ (by norm_num)]
        nth_rewrite 2 [hten]
        push_cast
        ring
      · rw [if_neg h]

-- Induction on the grids that are left: each is finer than the one before, so the bound is on it.
theorem firstHit_le (hd : 0 < d) (h : (n : ℚ) / d < 10 ^ k) (hle : leading ≤ k)
    (fuel digits : Nat) :
    ((firstHit x n d leading fuel digits).1 : ℚ) * 10 ^ (firstHit x n d leading fuel digits).2 ≤
      10 ^ k := by
  induction fuel generalizing digits with
  | zero =>
      rw [firstHit, Nat.cast_zero, zero_mul]
      positivity
  | succ fuel ih =>
      unfold firstHit
      dsimp only
      split
      · rename_i c hc
        rw [withoutFinalZeros_value]
        exact neighbour?_le hd h (by omega) hc
      · exact ih (digits + 1)

-- How many bits a quotient has under a power of ten tells how many digits it has at most.
theorem leadingExponent_le {bits : Nat} (hn : n ≠ 0) (hd : 0 < d) (h : (n : ℚ) / d < 10 ^ k)
    (hbits : 10 ^ k ≤ 2 ^ bits) (hdigits : bits * 30103 < (k + 2) * 100000) :
    leadingExponent n d ≤ k := by
  have hreached : ∀ e : Int, (tenths n d e).2 ≤ (tenths n d e).1 → e ≤ k := fun e he => by
    obtain ⟨hpos, hratio⟩ := tenths_quotient hd n e
    have hone : (1 : ℚ) ≤ (n : ℚ) / d / 10 ^ e := by
      rw [← hratio, one_le_div (Nat.cast_pos.mpr hpos)]
      exact_mod_cast he
    rw [one_le_div (by positivity)] at hone
    have hlt := hone.trans_lt h
    rw [← zpow_natCast] at hlt
    exact ((zpow_lt_zpow_iff_right₀ (by norm_num)).mp hlt).le
  have hbinary : (n.log2 : Int) - d.log2 ≤ bits := by
    obtain ⟨hlow, -⟩ := quotient_guess hn hd
    rw [lt_div_iff₀ (by positivity), guessFor, ← zpow_natCast, ← zpow_add₀ (by norm_num)] at hlow
    have hten : (10 : ℚ) ^ k ≤ 2 ^ (bits : Int) := by exact_mod_cast hbits
    have hlt := (zpow_lt_zpow_iff_right₀ (by norm_num)).mp ((hlow.trans h).trans_le hten)
    omega
  have hguess : (((n.log2 : Int) - d.log2) * 30103).fdiv 100000 ≤ k + 1 := by
    rw [Int.fdiv_eq_ediv_of_nonneg _ (by decide)]
    omega
  unfold leadingExponent
  dsimp only
  split_ifs with hnext hhere
  · exact hreached _ (of_decide_eq_true hnext)
  · exact hreached _ (of_decide_eq_true hhere)
  · omega

-- A magnitude under a power of ten has no decimal above it.
theorem shortest_le {bits mantissa : Nat} (h : magnitude mantissa exponent < 10 ^ k)
    (hbits : 10 ^ k ≤ 2 ^ bits) (hdigits : bits * 30103 < (k + 2) * 100000) :
    ((shortest mantissa exponent).1 : ℚ) * 10 ^ (shortest mantissa exponent).2 ≤ 10 ^ k := by
  unfold shortest
  by_cases hzero : mantissa = 0
  · rw [if_pos hzero, Nat.cast_zero, zero_mul]
    positivity
  rw [if_neg hzero]
  rw [magnitude, powerOfTwo] at h
  split_ifs at h ⊢ with hexponent
  · have hn : mantissa * twoTo exponent.toNat ≠ 0 :=
      Nat.mul_ne_zero hzero (Nat.two_pow_pos exponent.toNat).ne'
    have hquotient : ((mantissa * twoTo exponent.toNat : Nat) : ℚ) / (1 : Nat) < 10 ^ k := by
      rwa [Nat.cast_one, div_one, Nat.cast_mul]
    exact firstHit_le Nat.one_pos hquotient
      (leadingExponent_le hn Nat.one_pos hquotient hbits hdigits) 18 0
  · have hd : 0 < twoTo (-exponent).toNat := Nat.two_pow_pos _
    have hquotient : (mantissa : ℚ) / (twoTo (-exponent).toNat : Nat) < 10 ^ k := by
      rwa [Rat.mkRat_eq_div, Int.cast_one, mul_one_div] at h
    exact firstHit_le hd hquotient (leadingExponent_le hzero hd hquotient hbits hdigits) 18 0

-- A hundred has one mantissa and one exponent, and its decimal is a hundred.
theorem shortest_hundred {mantissa : Nat} (hcanonical : Canonical mantissa exponent)
    (h : magnitude mantissa exponent = 100) :
    ((shortest mantissa exponent).1 : ℚ) * 10 ^ (shortest mantissa exponent).2 = 100 := by
  obtain ⟨hmost, hleast, -, hbits⟩ := hcanonical
  rw [magnitude, powerOfTwo_eq] at h
  obtain ⟨j, rfl⟩ : ∃ j : Nat, exponent = -(j : Int) := by
    refine ⟨(-exponent).toNat, ?_⟩
    rcases hbits with hbits | rfl
    · by_contra hpos
      have hunit : (1 : ℚ) ≤ 2 ^ exponent := one_le_zpow₀ (by norm_num) (by omega)
      have hlarge : (4503599627370496 : ℚ) ≤ mantissa := by exact_mod_cast hbits
      have hle := le_mul_of_one_le_right (Nat.cast_nonneg mantissa) hunit
      linarith
    · rfl
  rw [zpow_neg, zpow_natCast, ← div_eq_mul_inv, div_eq_iff (by positivity)] at h
  have hmantissa : mantissa = 100 * 2 ^ j := by exact_mod_cast h
  have hj : j = 46 := by
    have hlow : j < 47 := by
      refine (Nat.pow_lt_pow_iff_right (by decide : 1 < 2)).mp ?_
      omega
    have hhigh : 45 < j := by
      refine (Nat.pow_lt_pow_iff_right (by decide : 1 < 2)).mp ?_
      omega
    omega
  subst hj
  subst hmantissa
  have hshortest : shortest (100 * 2 ^ 46) (-(46 : Nat)) = (1, 2) := by decide +kernel
  rw [hshortest]
  norm_num

end Shortest

end Binary64

namespace Measure

open Binary64 (within_zero within_ofQuotient shortest)

variable {negative : Bool} {mantissa k : Nat} {exponent : Int} {x : Binary64}

-- Tenths up to a bound are read as a number up to the bound.
theorem within_tenths {c : Nat} (negative : Bool) (hk : k < 9007199254740992) (h : c ≤ k * 10) :
    (Decimal.finite negative c (-1)).toBinary64.Within negative k := by
  rw [Decimal.toBinary64, Binary64.ofDecimal]
  by_cases hzero : c = 0
  · rw [if_pos hzero]
    exact within_zero negative k
  have hwidth : Decimal.width c ≤ 17 := by
    rw [Decimal.width_le_iff (by decide)]
    omega
  unfold Decimal.width at hwidth
  rw [if_neg hzero]
  dsimp only
  rw [if_neg (by omega), if_neg (by omega), if_neg (by decide)]
  exact within_ofQuotient negative (by decide) hk h

-- A decimal that is not above the bound is not so after rounding to one place.
theorem rounded_of_shortest_le (hcanonical : Canonical mantissa exponent)
    (hk : k < 9007199254740992)
    (h : ((shortest mantissa exponent).1 : ℚ) * 10 ^ (shortest mantissa exponent).2 ≤ k) :
    ∃ y, rounded (.finite negative mantissa exponent hcanonical) 1 = .ok (some y) ∧
      y.Within negative k := by
  have hnumber : Decimal.ofNumber (.real (.finite negative mantissa exponent hcanonical)) =
    .finite negative (shortest mantissa exponent).1 (shortest mantissa exponent).2 := rfl
  have hunit : Decimal.unitFor 1 = -1 := by decide
  generalize shortest mantissa exponent = decimal at h hnumber
  have hunits : Decimal.inUnits decimal.1 (decimal.2 - -1) ≤ k * 10 := by
    rw [Decimal.inUnits_sub, Int.toNat_le]
    have htenths : decimal.1 * 10 ^ decimal.2 / 10 ^ (-1 : Int) ≤ ((k * 10 : Nat) : ℚ) := by
      rw [zpow_neg_one, div_inv_eq_mul, Nat.cast_mul]
      exact mul_le_mul_of_nonneg_right h (by norm_num)
    have hle := awayFromZero_mono htenths
    rwa [awayFromZero_natCast] at hle
  have hwidth : Decimal.width (Decimal.inUnits decimal.1 (decimal.2 - -1)) ≤ Decimal.precision := by
    rw [Decimal.width_le_iff (by decide)]
    refine hunits.trans_lt ?_
    rw [Decimal.precision]
    omega
  refine ⟨_, ?_, within_tenths negative hk hunits⟩
  rw [rounded_eq_round hnumber, Decimal.round_finite (by decide), hunit, if_pos hwidth]
  rfl

-- What is at most a hundred is so after rounding.
theorem rounded_within_hundred (h : x.Within negative (100 : Nat)) :
    ∃ y, rounded x 1 = .ok (some y) ∧ y.Within negative (100 : Nat) := by
  obtain ⟨mantissa, exponent, hcanonical, rfl, hle⟩ := h
  refine rounded_of_shortest_le hcanonical (by decide) ?_
  rw [Nat.cast_ofNat] at hle ⊢
  rcases hle.lt_or_eq with hlt | heq
  · have hten : (100 : ℚ) = 10 ^ 2 := by norm_num
    rw [hten] at hlt ⊢
    exact Binary64.shortest_le hlt (by decide : 10 ^ 2 ≤ 2 ^ 7) (by decide)
  · exact (Binary64.shortest_hundred hcanonical heq).le

end Measure

end Tileboard
