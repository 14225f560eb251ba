import Tileboard.Value.Basic
import Tileboard.Number.Notation
import Tileboard.Text.Quoted

namespace Tileboard.Value

mutual

-- The text that shows a value inside a list, an object or a message: texts are
-- quoted.
def shown : Value → String
  | .null => "None"
  | .bool b => if b then "True" else "False"
  | .number n => n.text
  | .text s => Text.quoted s
  | .list items => "[" ++ ", ".intercalate (shownItems items) ++ "]"
  | .object fields => "\x7b" ++ ", ".intercalate (shownFields fields) ++ "\x7d"

def shownItems : List Value → List String
  | [] => []
  | v :: rest => shown v :: shownItems rest

def shownFields : List (String × Value) → List String
  | [] => []
  | (name, v) :: rest => (Text.quoted name ++ ": " ++ shown v) :: shownFields rest

end

def asText : Value → String
  | .text s => s
  | v => v.shown

end Tileboard.Value
