import Tileboard.Number.Notation
import Tileboard.Number.Numeral

namespace Tileboard

-- `± coefficient * 10 ^ exponent`, or a value that is no number.
inductive Decimal where
  | finite (negative : Bool) (coefficient : Nat) (exponent : Int)
  | infinite
  | quiet
  deriving DecidableEq

namespace Decimal

def ofNumber : Number → Decimal
  | .int value => .finite (value < 0) value.natAbs 0
  | .real .nan => .quiet
  | .real (.infinite _) => .infinite
  | .real (.finite negative mantissa exponent _) =>
      let (c, e) := Binary64.shortest mantissa exponent
      .finite negative c e

def exponentLimit : Int := 999999999999999999

-- A decimal text: as for binary64 numbers, but low lines are ignored wherever
-- they stand, all blanks are trimmed, and NaN may carry digits.
def ofText? (s : String) : Option Decimal :=
  let cs := (Text.trimChars s.toList).filter (· ≠ '_')
  let (negative, magnitude) := Numeral.takeSign cs
  let word := Numeral.asciiLower magnitude
  if Numeral.isInfinityWord word then some .infinite
  else if "nan".toList.isPrefixOf word.toList && (magnitude.drop 3).all Text.isDigit then
    some .quiet
  else
    match Numeral.decimal? magnitude with
    | some (c, e) =>
        let adjusted := e + (Nat.toDigits 10 c).length - 1
        if adjusted ≤ exponentLimit ∧ -exponentLimit ≤ adjusted then some (.finite negative c e)
        else none
    | none => none

def divideHalfUp (numerator denominator : Nat) : Nat :=
  (2 * numerator + denominator) / (2 * denominator)

def precision : Nat := 28

def width (coefficient : Nat) : Nat := (Nat.toDigits 10 coefficient).length

-- The coefficient in units of `10 ^ unit`, a tie away from zero, if it fits the
-- precision. Where the lengths decide, no power of ten is computed.
def inUnits? (coefficient : Nat) (exponent unit : Int) : Option Nat :=
  let shift := exponent - unit
  let length := width coefficient + shift
  if coefficient = 0 then some 0
  else if length > precision then none
  else if length < 0 then some 0
  else
    let rounded :=
      if 0 ≤ shift then coefficient * tenTo shift.toNat
      else divideHalfUp coefficient (tenTo (-shift).toNat)
    if width rounded ≤ precision then some rounded else none

-- The unit of rounding for a number of places. Places before the point count as
-- none, until the power of ten itself outgrows the precision.
def unitFor (places : Int) : Int :=
  if 0 ≤ places then -places else max 0 (-places - 27)

end Decimal

inductive RoundingFault where
  | unitTooGreat
  | notRoundable
  deriving DecidableEq

namespace Decimal

def round (x : Decimal) (places : Int) : Except RoundingFault Decimal :=
  if places < -999999 then .error .unitTooGreat
  else
    match x with
    | .quiet => .ok .quiet
    | .infinite => .error .notRoundable
    | .finite negative coefficient exponent =>
        match inUnits? coefficient exponent (unitFor places) with
        | some c => .ok (.finite negative c (unitFor places))
        | none => .error .notRoundable

def toBinary64 : Decimal → Binary64
  | .quiet => .nan
  | .infinite => .infinite false
  | .finite negative coefficient exponent => .ofDecimal negative coefficient exponent

end Decimal

namespace Number

def round (x : Number) (places : Int) : Except RoundingFault (Option Binary64) :=
  if x.isNan then .ok none
  else ((Decimal.ofNumber x).round places).map fun d => some d.toBinary64

end Number

end Tileboard
