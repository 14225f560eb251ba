import Tileboard.Tile.Basic
import Tileboard.Record

namespace Tileboard.Tile

def requiredField (v : Value) (name : String) : Except Fault Value :=
  match v with
  | .object fields =>
      match fields.lookup name with
      | some field => .ok field
      | none => .error (.missingKey name)
  | _ => .error (.notSubscriptable v)

def filterOf (v : Value) : Except Fault (Option Filter) :=
  if v.isNull then .ok none else (Filter.ofValue v).map some

def percentageOf (v : Value) : Except Fault (Option (Filter × Filter)) := do
  if v.holds then
    let numerator ← Filter.ofValue (← requiredField v "numerator")
    let denominator ← Filter.ofValue (← requiredField v "denominator")
    return some (numerator, denominator)
  else return none

def averageOf (v : Value) : Except Fault (Option (Value × Value)) := do
  if v.holds then
    let start ← requiredField v "start"
    let finish ← requiredField v "end"
    return some (start, finish)
  else return none

def textField (v : Value) (name : String) : String :=
  match v.field? name with
  | some field => field.asText
  | none => ""

def ofValue (v : Value) : Except Fault (Tile Filter) :=
  match v with
  | .object fields => do
      let filter ← filterOf (v.field "filter")
      let percentage ← percentageOf (v.field "percentage")
      let average ← averageOf (v.field "average")
      let thresholds ← Thresholds.ofValue (v.field "thresholds")
      return {
        key := textField v "key"
        title := textField v "title"
        subtitle := v.field "subtitle"
        matchKey := v.field "matchKey"
        filter, percentage, average
        metric := v.field "metric"
        field := v.field "field"
        column := v.field "column"
        component := v.field "component"
        distinct := (v.field "distinct").holds
        distinctColumn := v.field "distinctColumn"
        preCalculated := (v.field "preCalculated").holds
        value := v.field "value"
        clickFilter := v.field "clickFilter"
        clickable := v.field "clickable"
        noRangeFilter := (v.field "noRangeFilter").holds
        filterType := v.field "filterType"
        thresholds
        description := fields }
  | _ => .error (.notARecord v "get")

def listOfValue (v : Value) : Except Fault (List (Tile Filter)) := do
  (← v.itemsOrNone).mapM ofValue

end Tileboard.Tile
