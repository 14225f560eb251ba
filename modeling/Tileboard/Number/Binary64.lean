import Tileboard.Number.Power

namespace Tileboard

-- The pairs that name a magnitude `mantissa * 2 ^ exponent` of the format.
-- Only the least exponent may come with a mantissa under 53 bits, which start at
-- 2 ^ 52, so that each magnitude has one pair.
def Canonical (mantissa : Nat) (exponent : Int) : Prop :=
  mantissa < 9007199254740992 ∧ -1074 ≤ exponent ∧ exponent ≤ 971 ∧
    (4503599627370496 ≤ mantissa ∨ exponent = -1074)

instance (mantissa : Nat) (exponent : Int) : Decidable (Canonical mantissa exponent) :=
  inferInstanceAs (Decidable (_ ∧ _))

inductive Binary64 where
  | nan
  | infinite (negative : Bool)
  | finite (negative : Bool) (mantissa : Nat) (exponent : Int)
      (canonical : Canonical mantissa exponent)
  deriving DecidableEq

namespace Binary64

def zero (negative : Bool) : Binary64 :=
  .finite negative 0 (-1074) (by decide)

instance : Inhabited Binary64 := ⟨zero false⟩

def powerOfTwo (exponent : Int) : Rat :=
  if 0 ≤ exponent then (twoTo exponent.toNat : Rat)
  else mkRat 1 (twoTo (-exponent).toNat)

def magnitude (mantissa : Nat) (exponent : Int) : Rat :=
  (mantissa : Rat) * powerOfTwo exponent

def toRat? : Binary64 → Option Rat
  | .finite negative mantissa exponent _ =>
      some (if negative then -magnitude mantissa exponent else magnitude mantissa exponent)
  | _ => none

def isNan : Binary64 → Bool
  | .nan => true
  | _ => false

def isFinite : Binary64 → Bool
  | .finite .. => true
  | _ => false

def isZero : Binary64 → Bool
  | .finite _ mantissa _ _ => mantissa == 0
  | _ => false

def isNegative : Binary64 → Bool
  | .nan => false
  | .infinite negative => negative
  | .finite negative _ _ _ => negative

def negate : Binary64 → Binary64
  | .nan => .nan
  | .infinite negative => .infinite (!negative)
  | .finite negative mantissa exponent h => .finite (!negative) mantissa exponent h

def abs : Binary64 → Binary64
  | .nan => .nan
  | .infinite _ => .infinite false
  | .finite _ mantissa exponent h => .finite false mantissa exponent h

-- A magnitude past the greatest exponent is infinite.
def ofParts (negative : Bool) (mantissa : Nat) (exponent : Int) : Binary64 :=
  if h : Canonical mantissa exponent then .finite negative mantissa exponent h
  else .infinite negative

-- The quotient to the nearest whole number, a tie to the even one.
def divideToEven (numerator denominator : Nat) : Nat :=
  let quotient := numerator / denominator
  let twice := 2 * (numerator % denominator)
  if twice < denominator then quotient
  else if denominator < twice then quotient + 1
  else if quotient % 2 == 0 then quotient else quotient + 1

def scaled (numerator denominator : Nat) (exponent : Int) : Nat × Nat :=
  if 0 ≤ exponent then (numerator, denominator * twoTo exponent.toNat)
  else (numerator * twoTo (-exponent).toNat, denominator)

-- The exponent at which a positive quotient has 53 bits, never below the least.
def exponentFor (numerator denominator : Nat) : Int :=
  let guess : Int := (Nat.log2 numerator : Int) - (Nat.log2 denominator : Int) - 52
  let (n, d) := scaled numerator denominator guess
  max (if n / d < 4503599627370496 then guess - 1 else guess) (-1074)

-- The number nearest to a quotient of whole numbers, a tie to the even mantissa.
def ofQuotient (negative : Bool) (numerator denominator : Nat) : Binary64 :=
  if numerator = 0 then zero negative
  else
    let exponent := exponentFor numerator denominator
    let (n, d) := scaled numerator denominator exponent
    let mantissa := divideToEven n d
    if mantissa = 9007199254740992 then ofParts negative 4503599627370496 (exponent + 1)
    else ofParts negative mantissa exponent

-- The number nearest to a rational; the sign asked for shows only on zero.
def ofRat (zeroSign : Bool) (q : Rat) : Binary64 :=
  if q.num = 0 then zero zeroSign else ofQuotient (q.num < 0) q.num.natAbs q.den

-- The whole number's nearest neighbour, infinite when it lies past them all.
def ofInt (n : Int) : Binary64 := ofQuotient (n < 0) n.natAbs 1

-- `± coefficient * 10 ^ exponent` to the nearest number. Far outside the range
-- the answer is known without the powers of ten.
def ofDecimal (negative : Bool) (coefficient : Nat) (exponent : Int) : Binary64 :=
  if coefficient = 0 then zero negative
  else
    let width : Int := (Nat.toDigits 10 coefficient).length + exponent
    if width > 310 then .infinite negative
    else if width < -330 then zero negative
    else if 0 ≤ exponent then ofQuotient negative (coefficient * tenTo exponent.toNat) 1
    else ofQuotient negative coefficient (tenTo (-exponent).toNat)

-- Two zeros of opposite sign, like any sum that cancels, give the positive zero.
def add (x y : Binary64) : Binary64 :=
  match x, y with
  | .nan, _ => .nan
  | _, .nan => .nan
  | .infinite a, .infinite b => if a == b then .infinite a else .nan
  | .infinite a, _ => .infinite a
  | _, .infinite b => .infinite b
  | _, _ => ofRat (x.isNegative && y.isNegative)
      (x.toRat?.getD 0 + y.toRat?.getD 0)

def sub (x y : Binary64) : Binary64 := add x (negate y)

def mul (x y : Binary64) : Binary64 :=
  let negative := x.isNegative != y.isNegative
  match x, y with
  | .nan, _ => .nan
  | _, .nan => .nan
  | .infinite _, _ => if y.isZero then .nan else .infinite negative
  | _, .infinite _ => if x.isZero then .nan else .infinite negative
  | _, _ => ofRat negative (x.toRat?.getD 0 * y.toRat?.getD 0)

def div (x y : Binary64) : Binary64 :=
  let negative := x.isNegative != y.isNegative
  match x, y with
  | .nan, _ => .nan
  | _, .nan => .nan
  | .infinite _, .infinite _ => .nan
  | .infinite _, _ => .infinite negative
  | _, .infinite _ => zero negative
  | _, _ =>
    if y.isZero then (if x.isZero then .nan else .infinite negative)
    else ofRat negative (x.toRat?.getD 0 / y.toRat?.getD 1)

def truncate? (x : Binary64) : Option Int :=
  x.toRat?.map fun q => q.num.tdiv q.den

def toInt? (x : Binary64) : Option Int :=
  match x.toRat? with
  | some q => if q.den = 1 then some q.num else none
  | none => none

end Binary64

end Tileboard
