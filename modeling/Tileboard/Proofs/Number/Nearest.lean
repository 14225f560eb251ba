import Mathlib
import Tileboard.Proofs.Number.Quotient
import Tileboard.Proofs.Value.Equality

namespace Tileboard

namespace Binary64

variable {n d : Nat} {x y : Binary64} {p q : ℚ}

theorem divideToEven_error (hd : 0 < d) (n : Nat) :
    |(n : ℚ) / d - divideToEven n d| ≤ 1 / 2 := by
  have hd' : (0 : ℚ) < d := Nat.cast_pos.mpr hd
  have hsplit : (n : ℚ) / d = (n / d : Nat) + (n % d : Nat) / (d : ℚ) := by
    rw [eq_comm, ← eq_sub_iff_add_eq', div_eq_iff hd'.ne', sub_mul, div_mul_cancel₀ _ hd'.ne']
    have hsum : (d : ℚ) * (n / d : Nat) + (n % d : Nat) = n := by exact_mod_cast Nat.div_add_mod n d
    linarith
  have hrest : ((n % d : Nat) : ℚ) / d ≤ 1 := by
    rw [div_le_one hd']
    exact_mod_cast (Nat.mod_lt n hd).le
  have hnonneg : 0 ≤ ((n % d : Nat) : ℚ) / d := by positivity
  have hdown : 2 * (n % d) ≤ d → ((n % d : Nat) : ℚ) / d ≤ 1 / 2 := fun h => by
    rw [div_le_iff₀ hd']
    have hle : 2 * ((n % d : Nat) : ℚ) ≤ d := by exact_mod_cast h
    linarith
  have hup : d ≤ 2 * (n % d) → 1 / 2 ≤ ((n % d : Nat) : ℚ) / d := fun h => by
    rw [le_div_iff₀ hd']
    have hle : (d : ℚ) ≤ 2 * ((n % d : Nat) : ℚ) := by exact_mod_cast h
    linarith
  rw [hsplit, abs_le]
  unfold divideToEven
  dsimp only
  split_ifs with hless hmore
  · have hle := hdown hless.le
    constructor <;> linarith
  · have hge := hup hmore.le
    push_cast
    constructor <;> linarith
  · have hle := hdown (not_lt.mp hmore)
    constructor <;> linarith
  · have hge := hup (not_lt.mp hless)
    push_cast
    constructor <;> linarith

-- What is at most half a unit away from a quantity is a nearest whole number.
theorem divideToEven_nearest (hd : 0 < d) (n : Nat) (k : ℤ) :
    |(n : ℚ) / d - divideToEven n d| ≤ |(n : ℚ) / d - k| := by
  have herror := divideToEven_error hd n
  by_cases hk : (divideToEven n d : ℤ) = k
  · rw [← hk, Int.cast_natCast]
  · have hapart : (1 : ℚ) ≤ |((divideToEven n d : ℤ) : ℚ) - k| := by
      exact_mod_cast Int.one_le_abs (sub_ne_zero.mpr hk)
    have htriangle := abs_sub_le ((divideToEven n d : ℤ) : ℚ) ((n : ℚ) / d) k
    rw [Int.cast_natCast] at hapart htriangle
    rw [abs_sub_comm] at herror ⊢
    linarith

theorem toRat?_of_ofParts {negative : Bool} {mantissa : Nat} {exponent : Int}
    (h : (ofParts negative mantissa exponent).toRat? = some p) :
    p = if negative then -magnitude mantissa exponent else magnitude mantissa exponent := by
  unfold ofParts at h
  split at h
  · exact (Option.some.inj h).symm
  · cases h

theorem toRat?_of_ofQuotient {negative : Bool} (hn : n ≠ 0)
    (h : (ofQuotient negative n d).toRat? = some p) :
    p = if negative then -magnitude (mantissaFor n d) (exponentFor n d)
      else magnitude (mantissaFor n d) (exponentFor n d) := by
  have hquotient : ofQuotient negative n d =
      if mantissaFor n d = 9007199254740992 then
        ofParts negative 4503599627370496 (exponentFor n d + 1)
      else ofParts negative (mantissaFor n d) (exponentFor n d) := by
    unfold ofQuotient
    rw [if_neg hn]
    rfl
  rw [hquotient] at h
  split at h
  · rename_i hfull
    rw [toRat?_of_ofParts h, magnitude_carry, hfull]
  · exact toRat?_of_ofParts h

theorem exists_toRat?_of_isFinite (h : x.isFinite = true) : ∃ p, x.toRat? = some p := by
  cases x with
  | nan | infinite => cases h
  | finite => exact ⟨_, rfl⟩

-- A finite number is a whole multiple of its unit, of no more than 53 bits.
theorem exists_units (h : x.toRat? = some p) :
    ∃ (m e : ℤ), p = m * 2 ^ e ∧ m ≤ 9007199254740991 ∧ -1074 ≤ e := by
  cases x with
  | nan | infinite => cases h
  | finite negative mantissa exponent hcanonical =>
      refine ⟨if negative then -(mantissa : ℤ) else mantissa, exponent, ?_, ?_, hcanonical.2.1⟩
      · rw [← Option.some.inj h, magnitude, powerOfTwo_eq]
        cases negative <;> simp
      · have hbits := hcanonical.1
        split_ifs <;> omega

-- In a unit that is not below its own, a number is whole.
theorem exists_multiple {m e unit : ℤ} (h : unit ≤ e) :
    ∃ k : ℤ, (m : ℚ) * 2 ^ e / 2 ^ unit = k := by
  obtain ⟨j, hj⟩ := Int.eq_ofNat_of_zero_le (Int.sub_nonneg.mpr h)
  refine ⟨m * 2 ^ j, ?_⟩
  rw [mul_div_assoc, ← zpow_sub₀ (by norm_num), hj, zpow_natCast]
  push_cast
  rfl

-- The other number is whole in the unit of the quotient, or else it is below all that have 53 bits
-- in this unit, and so is the least of them.
theorem ofQuotient_nearest (hd : 0 < d) (h : (ofQuotient false n d).toRat? = some p)
    (hy : y.toRat? = some q) : |(n : ℚ) / d - p| ≤ |(n : ℚ) / d - q| := by
  by_cases hn : n = 0
  · subst hn
    rw [ofQuotient, if_pos rfl, toRat?_zero, Option.some.injEq] at h
    rw [← h, Nat.cast_zero, zero_div, sub_zero, abs_zero]
    exact abs_nonneg _
  obtain ⟨-, -, -, hlow⟩ := exponentFor_spec hn hd
  obtain ⟨hpos, hratio⟩ := scaled_quotient hd n (exponentFor n d)
  have hnearest := divideToEven_nearest hpos (scaled n d (exponentFor n d)).1
  have hp := toRat?_of_ofQuotient hn h
  obtain ⟨m, e, rfl, hbits, hleast⟩ := exists_units hy
  rw [if_neg Bool.false_ne_true, magnitude, powerOfTwo_eq] at hp
  have hunit : (0 : ℚ) < 2 ^ exponentFor n d := by positivity
  -- both distances in the unit of the quotient
  have hscale : ∀ r : ℚ, |(n : ℚ) / d - r| =
      |(n : ℚ) / d / 2 ^ exponentFor n d - r / 2 ^ exponentFor n d| * 2 ^ exponentFor n d := by
    intro r
    rw [← sub_div, abs_div, abs_of_pos hunit, div_mul_cancel₀ _ hunit.ne']
  rw [hratio] at hnearest
  rw [hscale p, hscale, hp, mul_div_cancel_right₀ _ hunit.ne']
  refine mul_le_mul_of_nonneg_right ?_ hunit.le
  rcases le_or_gt (exponentFor n d) e with he | he
  · obtain ⟨k, hk⟩ := exists_multiple (m := m) he
    rw [hk]
    exact hnearest k
  · have hhigh : (2 : ℚ) ^ 52 ≤ (n : ℚ) / d / 2 ^ exponentFor n d := hlow.resolve_right (by omega)
    have hbelow : (m : ℚ) * 2 ^ e / 2 ^ exponentFor n d ≤ 2 ^ 52 := by
      have hm : (m : ℚ) ≤ 2 ^ 53 := by
        have hm : (m : ℚ) ≤ (9007199254740991 : ℤ) := by exact_mod_cast hbits
        exact hm.trans (by norm_num)
      have hhalf : (2 : ℚ) ^ e ≤ 2 ^ (exponentFor n d - 1) :=
        zpow_le_zpow_right₀ (by norm_num) (by omega)
      rw [zpow_sub_one₀ (by norm_num)] at hhalf
      rw [div_le_iff₀ hunit]
      calc (m : ℚ) * 2 ^ e ≤ 2 ^ 53 * 2 ^ e := mul_le_mul_of_nonneg_right hm (by positivity)
        _ ≤ 2 ^ 53 * (2 ^ exponentFor n d * 2⁻¹) := mul_le_mul_of_nonneg_left hhalf (by norm_num)
        _ = 2 ^ 52 * 2 ^ exponentFor n d := by ring
    refine (hnearest (2 ^ 52)).trans ?_
    push_cast
    rw [abs_of_nonneg (by linarith), abs_of_nonneg (by linarith)]
    linarith

section Whole

variable {k : Int}

theorem negate_negate (x : Binary64) : x.negate.negate = x := by
  cases x <;> simp [negate]

theorem ofQuotient_negative (n d : Nat) :
    ofQuotient true n d = (ofQuotient false n d).negate := by
  have hparts : ∀ mantissa exponent,
      ofParts true mantissa exponent = (ofParts false mantissa exponent).negate := by
    intro mantissa exponent
    unfold ofParts
    split <;> rfl
  unfold ofQuotient
  split
  · rfl
  · dsimp only
    split
    · exact hparts _ _
    · exact hparts _ _

-- No binary64 number is nearer to a whole number than the one that stands for it. Below zero both
-- are seen from the other side.
theorem ofInt_nearest (h : (ofInt k).toRat? = some p) (hy : y.toRat? = some q) :
    |(k : ℚ) - p| ≤ |(k : ℚ) - q| := by
  unfold ofInt at h
  rcases lt_or_ge k 0 with hk | hk
  · rw [decide_eq_true hk, ofQuotient_negative] at h
    have hsize : (k : ℚ) = -((k.natAbs : ℚ) / (1 : Nat)) := by
      rw [Nat.cast_one, div_one, Nat.cast_natAbs, abs_of_neg hk, Int.cast_neg, neg_neg]
    have hflipped := toRat?_negate h
    rw [negate_negate] at hflipped
    have hnearest := ofQuotient_nearest Nat.one_pos hflipped (toRat?_negate hy)
    rw [hsize, ← abs_neg, neg_sub', neg_neg, ← abs_neg (_ - q), neg_sub', neg_neg]
    exact hnearest
  · rw [decide_eq_false (not_lt.mpr hk)] at h
    have hsize : (k : ℚ) = (k.natAbs : ℚ) / (1 : Nat) := by
      rw [Nat.cast_one, div_one, Nat.cast_natAbs, abs_of_nonneg hk]
    rw [hsize]
    exact ofQuotient_nearest Nat.one_pos h hy

-- A whole number that is a binary64 number is kept.
theorem toRat?_ofInt_of_exact (hy : y.toRat? = some (k : ℚ)) :
    (ofInt k).toRat? = some (k : ℚ) := by
  obtain ⟨p, hp⟩ := exists_toRat?_of_isFinite (isFinite_ofInt_toInt? (toInt?_of_toRat? hy))
  have hdistance := ofInt_nearest hp hy
  rw [sub_self, abs_zero] at hdistance
  rw [hp, sub_eq_zero.mp (abs_eq_zero.mp (le_antisymm hdistance (abs_nonneg _)))]

end Whole

end Binary64

namespace Number

def quantity? : Number → Option Rat
  | .int k => some k
  | .real x => x.toRat?

def near : Number → Binary64
  | .int k => .ofInt k
  | .real x => x

variable {n : Number} {x : Binary64} {p q r : Rat}

theorem place?_of_quantity? (h : n.quantity? = some q) : n.place? = some (0, q) := by
  cases n with
  | int k =>
      cases h
      rfl
  | real x => exact place?_real h

theorem near_nearest (hq : n.quantity? = some q) (hp : n.near.toRat? = some p)
    (hr : x.toRat? = some r) : |q - p| ≤ |q - r| := by
  cases n with
  | int k =>
      cases hq
      exact Binary64.ofInt_nearest hp hr
  | real y =>
      cases hq.symm.trans hp
      rw [sub_self, abs_zero]
      exact abs_nonneg _

theorem toRat?_near_of_exact (hq : n.quantity? = some q) (hx : x.toRat? = some q) :
    n.near.toRat? = some q := by
  cases n with
  | int k =>
      cases hq
      exact Binary64.toRat?_ofInt_of_exact hx
  | real y => exact hq

end Number

end Tileboard
