import Tileboard.Number.Basic

namespace Tileboard.Number

-- Nothing when a whole number is too large to count as binary64.
def subtract? (x y : Number) : Option Number :=
  match x, y with
  | .int a, .int b => some (.int (a - b))
  | _, _ => do
      let a ← x.toBinary64?
      let b ← y.toBinary64?
      return .real (a.sub b)

-- For a divisor that is not zero. Nothing when an operand, or a quotient of whole
-- numbers, is too large.
def divide? (x y : Number) : Option Binary64 :=
  match x, y with
  | .int a, .int b =>
      let quotient := Binary64.ofQuotient (decide (a < 0) != decide (b < 0)) a.natAbs b.natAbs
      if quotient.isFinite then some quotient else none
  | _, _ => do
      let a ← x.toBinary64?
      let b ← y.toBinary64?
      return a.div b

def percentageOf (part base : Nat) : Binary64 :=
  (Binary64.ofQuotient false part base).mul (Binary64.ofInt 100)

end Tileboard.Number
