import Tileboard.Filter.Selection

namespace Tileboard.DrillDown

-- The slot names a configured column, the value is looked for in it.
structure Pair where
  slot : Value
  value : Value

-- The pair for a tile that can be clicked: its filter has to be one test of a
-- column, for a text to contain or for a value to equal.
def pairOfTile (tile : Value) : Except Fault (Option Pair) := do
  match tile with
  | .object _ =>
      let description := tile.field "filter"
      if (tile.field "clickable").holds && description.holds then
        match ← Filter.ofValue description with
        | .leaf column (some (.contains false)) operand =>
            return if column.isNull then none else some ⟨column, operand⟩
        | .leaf column (some (.equals false)) operand =>
            return if column.isNull then none else some ⟨column, .text operand.asText⟩
        | _ => return none
      else return none
  | _ => throw (.notARecord tile "get")

def issueSlot : String := "issue"

def isOneOf (value : Value) (known : List Value) : Except Fault Bool :=
  if value.canBeKey then .ok (known.any value.equal) else .error (.unhashable value)

-- A text is looked for in a cell that is a text, without regard to case; any other
-- cell has to be equal.
def cellAgrees (cell value : Value) : Except Fault Bool :=
  match cell with
  | .text s =>
      match value with
      | .text needle => .ok (Text.contains (Text.lower s) (Text.lower needle))
      | _ => .error (.notARecord value "lower")
  | _ => .ok (cell.equal value)

-- Slots without a column, and empty values, ask nothing.
def accepts (columns : Value) (issues : List Value) (pair : Pair) (row : Value) :
    Except Fault Bool :=
  if pair.slot.equal (.text issueSlot) then isOneOf pair.value issues
  else do
    let column ← columns.cell pair.slot
    if column.isText && column.holds && !pair.value.equal (.text "") then
      cellAgrees (← row.cell column) pair.value
    else return true

def acceptsAll (columns : Value) (issues : List Value) : List Pair → Value → Except Fault Bool
  | [], _ => .ok true
  | pair :: rest, row => do
      if ← accepts columns issues pair row then acceptsAll columns issues rest row
      else return false

def checkIssues : List Value → Except Fault Unit
  | [] => .ok ()
  | v :: rest => if v.canBeKey then checkIssues rest else .error (.unhashable v)

def apply {α : Type} (record : α → Value) (columns : Value) (issues : List Value)
    (pairs : List Pair) (rows : List α) : Traced (List α) := do
  checkIssues issues
  Selection.keep (fun row => Traced.ofExcept (acceptsAll columns issues pairs (record row))) rows

-- The filters that give a tile's records again: the range of dates, if it is
-- wanted and both ends are given, and the tile's own filter.
def filters (click dateColumn start finish : Value) (useRange : Bool) :
    Except Fault (List Filter) := do
  let own ← Filter.ofValue click
  if useRange && start.holds && finish.holds then
    return [.leaf dateColumn (some (.compare .greaterOrEqual)) start,
      .leaf dateColumn (some (.compare .lessOrEqual)) finish, own]
  else return [own]

end Tileboard.DrillDown
