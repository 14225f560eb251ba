import Tileboard.Traced

namespace Tileboard.Value

def canBeKey : Value → Bool
  | .list _ => false
  | .object _ => false
  | _ => true

-- The cell of a row in a column; null if the row has none. Only texts name
-- columns.
def cell (row column : Value) : Except Fault Value :=
  match row with
  | .object fields =>
      if column.canBeKey then
        match column with
        | .text name => .ok ((fields.lookup name).getD .null)
        | _ => .ok .null
      else .error (.unhashable column)
  | _ => .error (.notARecord row "get")

-- Two values in the order asked for. Values without an order are noted and are not
-- in it.
def ordered (left : Value) (comparison : Comparison) (right : Value) : Traced Bool :=
  match compare? comparison left right with
  | some answer => return answer
  | none => do
      Traced.note (.incomparable comparison left right)
      return false

def orderedBy (name : String) (left right : Value) : Traced Bool :=
  match Comparison.ofName? name with
  | some comparison => left.ordered comparison right
  | none => throw (.unknownComparison name)

-- The items of a value that can be gone through: of a list its items, of an
-- object its names, of a text its characters.
def items : Value → Except Fault (List Value)
  | .list xs => .ok xs
  | .object fields => .ok (fields.map fun f => .text f.1)
  | .text s => .ok (s.toList.map fun c => .text (String.ofList [c]))
  | v => .error (.notIterable v)

def itemsOrNone (v : Value) : Except Fault (List Value) :=
  if v.holds then v.items else .ok []

end Tileboard.Value
