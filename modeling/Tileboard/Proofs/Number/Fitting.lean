import Mathlib
import Tileboard.Measure.Outcome
import Tileboard.Proofs.Computation
import Tileboard.Proofs.Number.Quotient
import Tileboard.Proofs.Number.Rounding

namespace Tileboard

namespace Binary64

-- A finite number that has no more than 28 digits after rounding to so many places.
def Fits (x : Binary64) (places : Nat) : Prop :=
  ∃ q, (Decimal.ofNumber (.real x)).toRat? = some q ∧
    (awayFromZero (q * 10 ^ places)).natAbs < 10 ^ 28

theorem not_fits_infinite (negative : Bool) (places : Nat) : ¬(infinite negative).Fits places := by
  rintro ⟨q, hq, -⟩
  cases hq

theorem not_fits_nan (places : Nat) : ¬nan.Fits places := by
  rintro ⟨q, hq, -⟩
  cases hq

end Binary64

namespace Measure

open Binary64 (Fits not_fits_nan not_fits_infinite)

variable {x : Binary64} {places : Nat}

theorem unitFor_natCast (places : Nat) : Decimal.unitFor places = -(places : Int) := by
  unfold Decimal.unitFor
  rw [if_pos (Int.natCast_nonneg places)]

-- A number is rounded as the decimal that it is taken for.
theorem rounded_eq_round {negative : Bool} {coefficient : Nat} {exponent : Int}
    (h : Decimal.ofNumber (.real x) = .finite negative coefficient exponent) (places : Int) :
    rounded x places = (((Decimal.finite negative coefficient exponent).round places).map
      fun d => some d.toBinary64).mapError Fault.ofRounding := by
  cases x with
  | nan | infinite => cases h
  | finite =>
      rw [← h]
      rfl

-- A finite number is rounded if it fits, and refused if not.
theorem rounded_finite {negative : Bool} {mantissa : Nat} {exponent : Int}
    (h : Canonical mantissa exponent) (places : Nat) :
    ((Binary64.finite negative mantissa exponent h).Fits places ∧ ∃ c, c < 10 ^ 28 ∧
      rounded (.finite negative mantissa exponent h) places =
        .ok (some (Decimal.finite negative c (-(places : Int))).toBinary64)) ∨
    (¬(Binary64.finite negative mantissa exponent h).Fits places ∧
      rounded (.finite negative mantissa exponent h) places = .error .notRoundable) := by
  obtain ⟨c, e, hnumber⟩ : ∃ c e, Decimal.ofNumber (.real (.finite negative mantissa exponent h)) =
      .finite negative c e := ⟨_, _, rfl⟩
  have hunit := unitFor_natCast places
  have hround := @Decimal.round_finite places negative c e (by omega)
  have hsize := Decimal.natAbs_awayFromZero negative c e (-(places : Int))
  rw [zpow_neg, zpow_natCast, div_inv_eq_mul] at hsize
  have hfits : (Binary64.finite negative mantissa exponent h).Fits places ↔
      Decimal.inUnits c (e - -(places : Int)) < 10 ^ 28 := by
    rw [← hsize, Fits, hnumber]
    simp [Decimal.toRat?]
  rw [hunit] at hround
  rw [rounded_eq_round hnumber, hround, hfits]
  generalize Decimal.inUnits c (e - -(places : Int)) = n
  have hwidth : Decimal.width n ≤ Decimal.precision ↔ n < 10 ^ 28 :=
    Decimal.width_le_iff (by decide)
  by_cases hshort : Decimal.width n ≤ Decimal.precision
  · refine .inl ⟨hwidth.mp hshort, n, hwidth.mp hshort, ?_⟩
    rw [if_pos hshort]
    rfl
  · refine .inr ⟨fun h => hshort (hwidth.mpr h), ?_⟩
    rw [if_neg hshort]
    rfl

-- All numbers but NaN: those that fit are rounded, the others refused. NaN is rounded to nothing.
theorem rounded_succeeds_iff (x : Binary64) (places : Nat) :
    (∃ r, rounded x places = .ok r) ↔ x = .nan ∨ x.Fits places := by
  cases x with
  | nan => exact iff_of_true ⟨none, rfl⟩ (.inl rfl)
  | infinite negative =>
      refine iff_of_false ?_ ?_
      · rintro ⟨r, hr⟩
        have hnone : rounded (.infinite negative) places = .error .notRoundable := by
          have hnumber : (Number.real (.infinite negative)).isNan = false := rfl
          unfold rounded Number.round Decimal.round
          rw [hnumber, if_neg Bool.false_ne_true, if_neg (by omega)]
          rfl
        rw [hnone] at hr
        cases hr
      · rintro (h | h)
        · cases h
        · exact not_fits_infinite negative places h
  | finite negative mantissa exponent hcanonical =>
      rcases rounded_finite hcanonical places with ⟨hfits, c, -, hr⟩ | ⟨hfits, hr⟩
      · exact iff_of_true ⟨_, hr⟩ (.inr hfits)
      · refine iff_of_false ?_ ?_
        · rintro ⟨r, hok⟩
          rw [hr] at hok
          cases hok
        · rintro (h | h)
          · cases h
          · exact hfits h

-- What is rounded to a whole number is one after the last rounding too, that to 53 bits.
theorem toInt?_toBinary64 (negative : Bool) {c : Nat} (h : c < 10 ^ 28) :
    ∃ k : Int, (Decimal.finite negative c 0).toBinary64.toInt? = some k ∧ k.natAbs ≤ 2 ^ 94 := by
  rw [Decimal.toBinary64, Binary64.ofDecimal]
  by_cases hzero : c = 0
  · refine ⟨0, ?_, by decide⟩
    rw [if_pos hzero]
    exact Binary64.toInt?_of_toRat? (Binary64.toRat?_zero negative)
  · have hwidth : Decimal.width c ≤ 28 := (Decimal.width_le_iff (by decide)).mpr h
    have hone : c * tenTo (0 : Int).toNat = c := Nat.mul_one c
    have hbits : c < 2 ^ 94 := h.trans (by decide)
    unfold Decimal.width at hwidth
    rw [if_neg hzero]
    dsimp only
    rw [if_neg (by omega), if_neg (by omega), if_pos le_rfl, hone]
    exact Binary64.toInt?_ofQuotient_one negative (by decide) (by decide) hbits

-- A number is rounded to a whole one exactly if it fits.
theorem roundedWhole_of_fits (h : x.Fits 0) :
    ∃ k : Int, roundedWhole x = .ok k ∧ k.natAbs ≤ 2 ^ 94 := by
  cases x with
  | nan => exact absurd h (not_fits_nan 0)
  | infinite negative => exact absurd h (not_fits_infinite negative 0)
  | finite negative mantissa exponent hcanonical =>
      rcases rounded_finite hcanonical 0 with ⟨-, c, hc, hr⟩ | ⟨hfits, -⟩
      · obtain ⟨k, hk, hbound⟩ := toInt?_toBinary64 negative hc
        refine ⟨k, ?_, hbound⟩
        have hwhole : (some (Decimal.finite negative c (-((0 : Nat) : Int))).toBinary64).bind
            Binary64.toInt? = some k := hk
        unfold roundedWhole
        rw [show ((0 : Nat) : Int) = 0 from rfl] at hr hwhole
        rw [hr, ok_bind, hwhole]
        rfl
      · exact absurd h hfits

theorem fits_of_roundedWhole {k : Int} (h : roundedWhole x = .ok k) : x.Fits 0 := by
  obtain ⟨r, hr, hwhole⟩ := bind_eq_ok_iff.mp h
  rcases (rounded_succeeds_iff x 0).mp ⟨r, hr⟩ with rfl | hfits
  · cases hr
    cases hwhole
  · exact hfits

end Measure

end Tileboard
