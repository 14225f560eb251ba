import Tileboard.Measure.Metric

namespace Tileboard.Measure

abbrev Groups := List (Value × List Binary64)

-- Adds numbers under a key. Of equal keys the first is kept.
def addTo (groups : Groups) (key : Value) (numbers : List Binary64) : Groups :=
  match groups with
  | [] => [(key, numbers)]
  | (k, ns) :: rest =>
      if k.equal key then (k, ns ++ numbers) :: rest else (k, ns) :: addTo rest key numbers

def unknownKey : Value := .text "Unknown"

def keyOf (cell : Value) : Value := if cell.isNull then unknownKey else cell

-- Puts a row into its group, if it has a number. Lists and objects name no group.
def addRow (column field : Value) (groups : Groups) (row : Value) : Except Fault Groups := do
  let key := keyOf (← row.cell column)
  let numbers ← numbersIn field [row]
  if numbers.isEmpty then return groups
  if key.canBeKey then return addTo groups key numbers else throw (.unhashable key)

-- Groups the matching rows; each row is grouped before the next is tested.
def groupRows (matcher : Option Matcher) (column field : Value) :
    Groups → List Value → Traced Groups
  | groups, [] => return groups
  | groups, row :: rest => do
      let wanted ← match matcher with
        | some m => m.accepts row
        | none => pure true
      if wanted then groupRows matcher column field (← addRow column field groups row) rest
      else groupRows matcher column field groups rest

def groupFilter (column key : Value) : Filter := .leaf column (some (.equals false)) key

def groupTile (column filterType key : Value) (value : Number) : Value :=
  .object [("key", .text key.asText), ("title", .text key.asText), ("value", .number value),
    ("filterType", filterType), ("clickable", .bool true),
    ("filter", (groupFilter column key).toValue)]

def grouped (matcher : Option Matcher) (column field : Value) (metric : Option Metric)
    (filterType : Value) (active : List Value) : Traced Outcome := do
  let groups ← groupRows matcher column field [] active
  let tiles ← Traced.ofExcept (groups.mapM fun (key, numbers) => do
    return groupTile column filterType key (← Metric.aggregate metric numbers))
  return ⟨.null, .null, Outcome.unchanged, some tiles⟩

end Tileboard.Measure
