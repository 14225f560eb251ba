import Tileboard.Fault

namespace Tileboard.Value

-- Whether a value counts as missing where a number is wanted. A list is asked for
-- its only item.
def isMissing : Value → Except Fault Bool
  | .null => .ok true
  | .number n => .ok n.isNan
  | .list [item] => isMissing item
  | .list _ => .error .notANumber
  | _ => .ok false

-- The value rounded, a tie away from zero; nothing for a missing one. Texts that
-- denote decimals can be rounded, all else that is no number cannot.
def round (v : Value) (places : Int) : Except Fault (Option Binary64) := do
  if ← isMissing v then return none
  match v with
  | .number n => (n.round places).mapError Fault.ofRounding
  | .text s =>
      match Decimal.ofText? s with
      | none => throw .notRoundable
      | some d => return some (← (d.round places).mapError Fault.ofRounding).toBinary64
  | _ => throw .notRoundable

end Tileboard.Value
