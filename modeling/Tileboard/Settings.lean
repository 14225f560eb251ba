import Tileboard.Fault
import Tileboard.Source.Path
import Tileboard.Text.LetterCase

namespace Tileboard

structure Settings where
  strict : Bool
  dateColumn : String
  dataDirectory : Option Path
  deriving Inhabited

namespace Settings

def defaultDateColumn : String := "order_date"

def default : Settings := ⟨false, defaultDateColumn, none⟩

-- A switch given as a text is on for a few words only; any other value is on if it
-- holds.
def isOn : Value → Bool
  | .text s => ["1", "true", "yes", "on"].contains (Text.fold s)
  | v => v.holds

def dateColumnOf (v : Value) : Except Fault String :=
  if v.holds then
    match v with
    | .text s =>
        let name := Text.trim s
        .ok (if name.isEmpty then defaultDateColumn else name)
    | _ => .error (.notARecord v "strip")
  else .ok defaultDateColumn

def directoryOf (v : Value) : Except Fault (Option Path) :=
  if v.holds then
    match v with
    | .text s => .ok (some (Path.ofText s))
    | _ => .error .wrongType
  else .ok none

def ofValue (v : Value) : Except Fault Settings := do
  if v.holds then
    match v with
    | .object _ =>
        let dateColumn ← dateColumnOf (v.field "date_column")
        let directory ← directoryOf (v.field "data_dir")
        return ⟨isOn (v.field "strict_operators"), dateColumn, directory⟩
    | _ => throw (.notARecord v "get")
  else return default

end Settings

end Tileboard
