import Tileboard.Number.Binary64

namespace Tileboard

inductive Number where
  | int (value : Int)
  | real (value : Binary64)
  deriving DecidableEq, Inhabited

namespace Number

-- The place of a number on the extended line. The first part is -1, 0 or 1 for
-- minus infinity, a finite number and infinity. NaN has no place.
def place? : Number → Option (Int × Rat)
  | .int value => some (0, (value : Rat))
  | .real .nan => none
  | .real (.infinite negative) => some (if negative then -1 else 1, 0)
  | .real (.finite negative mantissa exponent h) =>
      some (0, ((Binary64.finite negative mantissa exponent h).toRat?).getD 0)

def placeBefore (p q : Int × Rat) : Bool :=
  p.1 < q.1 || (p.1 == q.1 && p.2 < q.2)

-- Whole and binary64 numbers are compared as the quantities they denote, without
-- rounding one to the kind of the other.
def before (x y : Number) : Bool :=
  match x.place?, y.place? with
  | some p, some q => placeBefore p q
  | _, _ => false

def same (x y : Number) : Bool :=
  match x.place?, y.place? with
  | some p, some q => p == q
  | _, _ => false

def toBinary64? : Number → Option Binary64
  | .int value =>
      let x := Binary64.ofInt value
      if x.isFinite then some x else none
  | .real value => some value

def isZero : Number → Bool
  | .int value => value == 0
  | .real value => value.isZero

def isNan : Number → Bool
  | .int _ => false
  | .real value => value.isNan

def abs : Number → Number
  | .int value => .int value.natAbs
  | .real value => .real value.abs

end Number

end Tileboard
