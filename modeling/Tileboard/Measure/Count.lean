import Tileboard.Measure.Outcome

namespace Tileboard.Measure

def distinctTexts (column : Value) (rows : List Value) : Except Fault (List String) := do
  let cells ← rows.mapM fun row => row.cell column
  return (cells.map Value.asText).eraseDups

def size (distinctColumn : Value) (rows : List Value) : Except Fault Nat := do
  if distinctColumn.holds then return (← distinctTexts distinctColumn rows).length
  else return rows.length

-- An empty base counts as one.
def baseOf (n : Nat) : Nat := if n = 0 then 1 else n

-- The matching rows of both windows. The count is compared with the one before,
-- or given as a share of all rows of its own window.
def count (matcher : Matcher) (distinctColumn : Value) (shareOfBase : Bool)
    (active previous : List Value) : Traced Outcome := do
  let here ← Selection.keep matcher.accepts active
  let before ← Selection.keep matcher.accepts previous
  let value ← size distinctColumn here
  let valueBefore ← size distinctColumn before
  if shareOfBase then
    let base := baseOf (← size distinctColumn active)
    let percent ← rounded (Number.percentageOf value base) 1
    return ⟨.int value, .int valueBefore, ⟨none, none, percent⟩, none⟩
  else Outcome.compared (.int value) (.int valueBefore)

def share (numerator denominator : Matcher) (active : List Value) : Traced Outcome := do
  let part ← Selection.count numerator.accepts active
  let whole ← Selection.count denominator.accepts active
  if whole = 0 then Traced.note .emptyBase
  let value ← rounded (Number.percentageOf part (baseOf whole)) 1
  return .ofValue (value.elim .null Value.real) (.int 0)

end Tileboard.Measure
