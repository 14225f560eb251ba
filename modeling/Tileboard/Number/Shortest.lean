import Tileboard.Number.Binary64

namespace Tileboard.Binary64

def tenths (numerator denominator : Nat) (exponent : Int) : Nat × Nat :=
  if 0 ≤ exponent then (numerator, denominator * tenTo exponent.toNat)
  else (numerator * tenTo (-exponent).toNat, denominator)

-- The exponent of the leading decimal digit of a positive quotient. The guess
-- from the binary lengths is off by one at most.
def leadingExponent (numerator denominator : Nat) : Int :=
  let binary : Int := (Nat.log2 numerator : Int) - (Nat.log2 denominator : Int)
  let guess := (binary * 30103).fdiv 100000
  let reaches (exponent : Int) : Bool :=
    let (n, d) := tenths numerator denominator exponent
    d ≤ n
  if reaches (guess + 1) then guess + 1
  else if reaches guess then guess
  else guess - 1

def withoutFinalZeros (fuel coefficient : Nat) (exponent : Int) : Nat × Int :=
  match fuel with
  | 0 => (coefficient, exponent)
  | fuel + 1 =>
      if coefficient % 10 = 0 then withoutFinalZeros fuel (coefficient / 10) (exponent + 1)
      else (coefficient, exponent)

-- The two neighbours of the quotient on one decimal grid, those kept that read
-- back as `x`; of two the nearer, and on a tie the one with an even last digit.
def neighbour? (x : Binary64) (numerator denominator : Nat) (exponent : Int) : Option Nat :=
  let (n, d) := tenths numerator denominator exponent
  let low := n / d
  let twice := 2 * (n % d)
  let readsBack (c : Nat) : Bool := decide (ofDecimal false c exponent = x)
  match readsBack low, readsBack (low + 1) with
  | true, true =>
      if twice < d then some low
      else if d < twice then some (low + 1)
      else if low % 2 = 0 then some low else some (low + 1)
  | true, false => some low
  | false, true => some (low + 1)
  | false, false => none

def firstHit (x : Binary64) (numerator denominator : Nat) (leading : Int) :
    Nat → Nat → Nat × Int
  | 0, _ => (0, 0)
  | fuel + 1, digits =>
      let exponent := leading - digits
      match neighbour? x numerator denominator exponent with
      | some c => withoutFinalZeros digits.succ c exponent
      | none => firstHit x numerator denominator leading fuel (digits + 1)

def shortest (mantissa : Nat) (exponent : Int) : Nat × Int :=
  if mantissa = 0 then (0, 0)
  else
    let (n, d) :=
      if 0 ≤ exponent then (mantissa * twoTo exponent.toNat, 1)
      else (mantissa, twoTo (-exponent).toNat)
    firstHit (ofParts false mantissa exponent) n d (leadingExponent n d) 18 0

end Tileboard.Binary64
