import Tileboard.Fault
import Tileboard.Number.Arithmetic

namespace Tileboard

inductive Direction where
  | up
  | down
  deriving DecidableEq

def Direction.name : Direction → String
  | .up => "up"
  | .down => "down"

-- A change in hundredths of the value before, or the value itself when there was
-- nothing before to compare with.
inductive Trend where
  | percentage (amount : Binary64)
  | absolute (amount : Number)

namespace Trend

def name : Trend → String
  | .percentage _ => "percentage"
  | .absolute _ => "absolute"

def amount : Trend → Value
  | .percentage x => .real x
  | .absolute n => .number n

def text : Trend → Except Fault String
  | .percentage x => do
      match ← ((Number.real x).round 1).mapError Fault.ofRounding with
      | some rounded => return rounded.oneDecimalText ++ "%"
      | none => throw .wrongType
  | .absolute n => .ok ("+" ++ n.plainText)

end Trend

-- A trend with its direction and the signed change in hundredths; the change is
-- missing when it is NaN.
structure Change where
  trend : Option Trend
  direction : Option Direction
  percent : Option Binary64

namespace Change

def zero : Number := .int 0

def sized (x : Option Number) : Except Fault Number :=
  match x with
  | some n => .ok n
  | none => .error .numberTooLarge

def percentOf (value previous : Number) : Except Fault Binary64 := do
  let difference ← sized (value.subtract? previous)
  match difference.divide? previous with
  | some quotient => return quotient.mul (Binary64.ofInt 100)
  | none => throw .numberTooLarge

def compute (value previous : Number) : Except Fault Change := do
  if zero.before previous then
    let delta ← percentOf value previous
    let rises := zero.before (.real delta) || zero.same (.real delta)
    let percent ← ((Number.real delta).round 1).mapError Fault.ofRounding
    return ⟨some (.percentage delta.abs), some (if rises then .up else .down), percent⟩
  else if zero.before value then
    return ⟨some (.absolute value), some .up, some (Binary64.ofInt 100)⟩
  else return ⟨none, none, some (Binary64.zero false)⟩

end Change

end Tileboard
