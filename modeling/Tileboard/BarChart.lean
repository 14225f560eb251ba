import Tileboard.Table.Alignment
import Tileboard.Table.Numeric

namespace Tileboard

-- A bar has a label and a length: a number, or a truth value that counts as one.
structure Bar where
  label : String
  length : Value

namespace Bar

def position (b : Bar) : Number := b.length.number?.getD (.int 0)

def usable : Value → Value
  | .number (.real x) => if x.isNan then .real (Binary64.zero false) else .real x
  | v => v

-- A length as written; infinity cannot be.
def written : Value → Value
  | .number (.real x) => if x.isFinite then .real x else .null
  | v => v

def row (b : Bar) : Value := .object [("label", .text b.label), ("value", written b.length)]

end Bar

namespace BarChart

-- A way of putting bars in order, the longest first. Which of two equal ones comes first is its own
-- affair.
abbrev Sorter := List Bar → List Bar

def fieldOf (name : String) (tile : Value) : Except Fault Value :=
  match tile with
  | .object _ => .ok (tile.field name)
  | _ => .error (.notARecord tile "get")

def bars (sort : Sorter) (tiles : List Value) : Except Fault (List Bar) := do
  let cells ← tiles.mapM fun tile => do
    let title ← fieldOf "title" tile
    return (title.asText, ← fieldOf "value" tile)
  let lengths ← Table.numeric (← Table.settle (cells.map fun cell => some cell.2))
  let unsorted := (cells.zip lengths).map fun (cell, length) => Bar.mk cell.1 (Bar.usable length)
  return sort unsorted

def isTitle : Value → Bool
  | .null => true
  | .text _ => true
  | .list lines => lines.all Value.isText
  | _ => false

def viewSize : Value := .object [("continuousHeight", .int 300), ("continuousWidth", .int 300)]

def lengthAxis (title : Value) : Value :=
  .object [("axis", .object [("format", .text "~s")]), ("field", .text "value"),
    ("title", title), ("type", .text "quantitative")]

def labelAxis (horizontal : Bool) : Value :=
  let fields := [("field", .text "label"), ("sort", .text (if horizontal then "-x" else "-y")),
    ("title", .null), ("type", .text "nominal")]
  .object (if horizontal then fields
    else ("axis", .object [("labelAngle", .int (-30))]) :: fields)

def faded : Binary64 := .ofDecimal false 4 (-1)

def opacity : Value :=
  .object [("condition", .object [("empty", .bool true), ("param", .text "hover"),
    ("value", .int 1)]), ("value", .real faded)]

def tooltip : Value :=
  .list [
    .object [("field", .text "label"), ("title", .text "Group"), ("type", .text "nominal")],
    .object [("field", .text "value"), ("format", .text ","), ("title", .text "Value"),
      ("type", .text "quantitative")]]

def encoding (title : Value) (horizontal : Bool) : Value :=
  let axes := if horizontal then [("x", lengthAxis title), ("y", labelAxis true)]
    else [("x", labelAxis false), ("y", lengthAxis title)]
  .object (axes ++ [("opacity", opacity), ("tooltip", tooltip)])

def hover : Value :=
  .object [("name", .text "hover"), ("select", .object [("fields", .list [.text "label"]),
    ("on", .text "mouseover"), ("type", .text "point")])]

def schema : String := "https://vega.github.io/schema/vega-lite/v5.20.1.json"

def draw (bars : List Bar) (title : Value) (horizontal : Bool) : Value :=
  .object [("$schema", .text schema), ("config", .object [("view", viewSize)]),
    ("data", .object [("values", .list (bars.map Bar.row))]),
    ("encoding", encoding title horizontal), ("height", .int 260),
    ("mark", .object [("type", .text "bar")]), ("params", .list [hover])]

-- The chart of the tiles of groups; none without tiles.
def ofTiles (sort : Sorter) (tiles title : Value) (horizontal : Bool) :
    Except Fault (Option Value) := do
  if tiles.holds then
    let sorted ← bars sort (← tiles.items)
    if isTitle title then return some (draw sorted title horizontal)
    else throw .badTitle
  else return none

end BarChart

end Tileboard
