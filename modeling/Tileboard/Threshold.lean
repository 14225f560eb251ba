import Tileboard.Fault
import Tileboard.Number.Numeral

namespace Tileboard

structure Bound where
  below : Option Binary64
  above : Option Binary64

structure Thresholds where
  ok : Option Bound
  warning : Option Bound
  danger : Option Bound

namespace Bound

-- The number that a limit denotes. What denotes none sets no limit.
def limit? : Value → Option Binary64
  | .text s => Numeral.binary64? s
  | v => v.number?.bind (·.toBinary64?)

def ofValue? (v : Value) : Option Bound :=
  match v with
  | .object _ => some ⟨limit? (v.field "lt"), limit? (v.field "gt")⟩
  | _ => none

end Bound

namespace Thresholds

def ofValue (v : Value) : Except Fault (Option Thresholds) :=
  if v.holds then
    match v with
    | .object _ =>
        let bound (name : String) := Bound.ofValue? (v.field name)
        .ok (some ⟨bound "ok", bound "warning", bound "danger"⟩)
    | _ => .error (.notARecord v "get")
  else .ok none

end Thresholds

end Tileboard
