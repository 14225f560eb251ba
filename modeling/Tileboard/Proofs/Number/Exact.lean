import Mathlib
import Tileboard.Proofs.Number.Whole

namespace Tileboard

namespace Binary64

variable {n : Nat} {x y : Binary64} {p q : Rat}

theorem divideToEven_one (n : Nat) : divideToEven n 1 = n := by
  unfold divideToEven
  simp [Nat.mod_one]

theorem scaled_neg (n k : Nat) : scaled n 1 (-(k : Int)) = (n * twoTo k, 1) := by
  unfold scaled
  cases k with
  | zero => simp [twoTo]
  | succ k =>
      rw [if_neg (by omega)]
      simp

theorem powerOfTwo_neg (k : Nat) : powerOfTwo (-(k : Int)) = (twoTo k : Rat)⁻¹ := by
  rw [powerOfTwo_eq, zpow_neg, zpow_natCast, cast_twoTo]

theorem toRat?_zero (negative : Bool) : (zero negative).toRat? = some 0 := by
  cases negative <;> simp [zero, toRat?, magnitude]

theorem toRat?_ofParts {negative : Bool} {mantissa : Nat} {exponent : Int}
    (h : Canonical mantissa exponent) : (ofParts negative mantissa exponent).toRat? =
      some (if negative then -magnitude mantissa exponent else magnitude mantissa exponent) := by
  unfold ofParts
  rw [dif_pos h]
  rfl

-- The binary digits that a whole number lacks of 53.
theorem unitOf_of_lt (hzero : n ≠ 0) (h : n < 9007199254740992) :
    ∃ k : Nat, unitOf n = -(k : Int) ∧ n.log2 + k = 52 := by
  have hlog : n.log2 < 53 := (Nat.log2_lt hzero).mpr h
  refine ⟨52 - n.log2, ?_, by omega⟩
  unfold unitOf
  omega

theorem mul_twoTo_lt {k : Nat} (hk : n.log2 + k = 52) : n * twoTo k < 9007199254740992 := by
  have hupper : n < 2 ^ (n.log2 + 1) := Nat.lt_log2_self
  calc n * twoTo k < 2 ^ (n.log2 + 1) * 2 ^ k :=
        Nat.mul_lt_mul_of_pos_right hupper (Nat.two_pow_pos k)
    _ = 2 ^ 53 := by rw [← pow_add, Nat.add_right_comm, hk]

theorem magnitude_neg (n k : Nat) : magnitude (n * twoTo k) (-(k : Int)) = n := by
  have hpos : (twoTo k : Rat) ≠ 0 :=
    Nat.cast_ne_zero.mpr (Nat.pos_iff_ne_zero.mp (Nat.two_pow_pos k))
  rw [magnitude, powerOfTwo_neg, Nat.cast_mul, mul_assoc, mul_inv_cancel₀ hpos, mul_one]

-- In the unit in which it has 53 bits, a whole number that has no more is kept.
theorem toRat?_ofQuotient_one (negative : Bool) (h : n < 9007199254740992) :
    (ofQuotient negative n 1).toRat? = some (if negative then -(n : Rat) else n) := by
  unfold ofQuotient
  by_cases hzero : n = 0
  · subst hzero
    rw [if_pos rfl, toRat?_zero]
    simp
  obtain ⟨k, hunit, hk⟩ := unitOf_of_lt hzero h
  have hexponent : exponentFor n 1 = -(k : Int) := by
    rw [exponentFor_one hzero, hunit]
    omega
  have hleast : 4503599627370496 ≤ n * twoTo k := by
    have hscaled := (scaled_unitOf hzero).2.1
    rwa [hunit, scaled_neg, Nat.mul_one] at hscaled
  have hbits := mul_twoTo_lt hk
  have hcanonical : Canonical (n * twoTo k) (-(k : Int)) :=
    ⟨hbits, by omega, by omega, .inl hleast⟩
  rw [if_neg hzero, hexponent]
  dsimp only
  rw [scaled_neg]
  dsimp only
  rw [divideToEven_one, if_neg (Nat.ne_of_lt hbits), toRat?_ofParts hcanonical, magnitude_neg]

theorem ofInt_eq_ofRat (n : Int) : ofInt n = ofRat false n := by
  unfold ofRat
  rw [Rat.num_intCast, Rat.den_intCast]
  by_cases hn : n = 0
  · subst hn
    rfl
  · rw [if_neg hn]
    rfl

theorem toRat?_ofRat (zeroSign : Bool) {n : Int} (h : n.natAbs < 9007199254740992) :
    (ofRat zeroSign n).toRat? = some (n : Rat) := by
  unfold ofRat
  rw [Rat.num_intCast, Rat.den_intCast]
  by_cases hn : n = 0
  · subst hn
    exact toRat?_zero zeroSign
  · rw [if_neg hn, toRat?_ofQuotient_one _ h, ← Int.cast_natCast]
    rcases lt_or_ge n 0 with hneg | hpos
    · simp [hneg, Int.ofNat_natAbs_of_nonpos hneg.le]
    · simp [hpos, hpos.not_gt]

theorem toRat?_ofInt {n : Int} (h : n.natAbs < 9007199254740992) :
    (ofInt n).toRat? = some (n : Rat) := by
  rw [ofInt_eq_ofRat, toRat?_ofRat false h]

theorem isFinite_of_toRat? (h : x.toRat? = some p) : x.isFinite = true := by
  cases x with
  | finite => rfl
  | _ => cases h

theorem toRat?_negate (h : x.toRat? = some p) : x.negate.toRat? = some (-p) := by
  cases x with
  | nan | infinite => cases h
  | finite negative mantissa exponent hcanonical =>
      cases Option.some.inj h
      cases negative <;> simp [negate, toRat?]

-- A sum that comes to a whole number of 53 bits, a product and a quotient that do.
theorem toRat?_add {n : Int} (hx : x.toRat? = some p) (hy : y.toRat? = some q) (hsum : p + q = n)
    (hn : n.natAbs < 9007199254740992) : (x.add y).toRat? = some (n : Rat) := by
  cases x with
  | nan | infinite => cases hx
  | finite =>
      cases y with
      | nan | infinite => cases hy
      | finite =>
          unfold add
          simp only [hx, hy, Option.getD_some, hsum, toRat?_ofRat _ hn]

theorem toRat?_mul {n : Int} (hx : x.toRat? = some p) (hy : y.toRat? = some q) (hproduct : p * q = n)
    (hn : n.natAbs < 9007199254740992) : (x.mul y).toRat? = some (n : Rat) := by
  cases x with
  | nan | infinite => cases hx
  | finite =>
      cases y with
      | nan | infinite => cases hy
      | finite =>
          unfold mul
          simp only [hx, hy, Option.getD_some, hproduct, toRat?_ofRat _ hn]

theorem toRat?_div {n : Int} (hx : x.toRat? = some p) (hy : y.toRat? = some q) (hq : q ≠ 0)
    (hquotient : p / q = n) (hn : n.natAbs < 9007199254740992) :
    (x.div y).toRat? = some (n : Rat) := by
  cases x with
  | nan | infinite => cases hx
  | finite =>
      cases y with
      | nan | infinite => cases hy
      | finite negative mantissa exponent hcanonical =>
          have hzero : (finite negative mantissa exponent hcanonical).isZero = false := by
            refine beq_eq_false_iff_ne.mpr fun hmantissa => hq ?_
            subst hmantissa
            rw [← Option.some.inj hy, magnitude]
            simp
          unfold div
          simp only [hzero, Bool.false_eq_true, if_false, hx, hy, Option.getD_some, hquotient,
            toRat?_ofRat _ hn]

end Binary64

end Tileboard
