import Tileboard.BarChart
import Tileboard.Settings
import Tileboard.Tile.Pass

namespace Tileboard.Board

open BarChart (Sorter)

def groups : List String := ["tiles", "summary", "trends"]

-- Without a reporting period every tile sees all records in both windows.
def windows (settings : Settings) (records : List Value) (start finish : Value) :
    Except Fault (Windows Value) :=
  if start.holds && finish.holds then
    Windows.select (Windows.timeIn (.text settings.dateColumn)) start finish records
  else .ok (Windows.unbounded records)

def partOf (config : Value) (name : String) : Except Fault Value :=
  match config with
  | .object _ => .ok (config.field name)
  | _ => .error (.notARecord config "get")

def metricsOf (metrics : Value) (group : String) : Except Fault Subtitles := do
  if metrics.holds then Subtitles.ofValue (← partOf metrics group) else return ⟨[]⟩

-- Charts by the keys of their tiles. Of equal keys the first is kept, and the chart that
-- was put last.
abbrev Charts := List (Value × Value)

def putChart (charts : Charts) (key chart : Value) : Charts :=
  match charts with
  | [] => [(key, chart)]
  | (k, c) :: rest => if k.equal key then (k, chart) :: rest else (k, c) :: putChart rest key chart

def chartName : Value → String
  | .bool b => if b then "true" else "false"
  | .null => "null"
  | .number (.real x) => if x.isFinite then (Value.real x).asText else "null"
  | v => v.asText

-- The charts under their names, of which keys of different kinds can share one.
def namedCharts (charts : Charts) : List (String × Value) :=
  charts.foldl (fun fields entry => putField fields (chartName entry.1) entry.2) []

def isHorizontal (tile : Value) : Bool :=
  let component := tile.field "component"
  component.holds && Text.contains component.asText "Horizontal"

def addCharts (sort : Sorter) (charts : Charts) : List Value → Except Fault Charts
  | [] => .ok charts
  | tile :: rest => do
      match ← BarChart.ofTiles sort (tile.field "tiles") (tile.field "title")
        (isHorizontal tile) with
      | some chart =>
          match tile.field? "key" with
          | some key =>
              if key.canBeKey then addCharts sort (putChart charts key chart) rest
              else throw (.unhashable key)
          | none => throw (.missingKey "key")
      | none => addCharts sort charts rest

structure Progress where
  charts : Charts
  results : List (String × Value)

def Progress.start : Progress := ⟨[], []⟩

def Progress.add (sort : Sorter) (p : Progress) (group : String) (tiles : List Value) :
    Except Fault Progress := do
  let charts ← addCharts sort p.charts tiles
  return ⟨charts, p.results ++ [(group, .list tiles)]⟩

def rangeValue (settings : Settings) (start finish : Value) : Value :=
  .object [("from", start), ("to", finish), ("date_column", .text settings.dateColumn)]

def payload (settings : Settings) (start finish : Value) (windows : Windows Value)
    (p : Progress) : Value :=
  .object ([("range", rangeValue settings start finish), ("windows", windows.counts),
    ("charts", .object (namedCharts p.charts))] ++ p.results)

def groupResults (pass : Pass) (mode : Mode) (config metrics : Value) (windows : Windows Value)
    (group : String) : Traced (List Value) := do
  let tiles ← Tile.listOfValue (← partOf config group)
  let subtitles ← metricsOf metrics group
  pass.tiles mode subtitles windows tiles

def compute (sort : Sorter) (pass : Pass) (settings : Settings) (config metrics : Value)
    (records : List Value) (start finish : Value) : Traced Value := do
  let windows ← Board.windows settings records start finish
  let progress ← groups.foldlM (fun (p : Progress) group => do
    p.add sort group (← groupResults pass (.ofStrict settings.strict) config metrics windows group))
    Progress.start
  return payload settings start finish windows progress

def lengthOf (v : Value) : Except Fault Nat :=
  if v.holds then v.items.map List.length else .ok 0

def undated (settings : Settings) : List Value → Except Fault Nat
  | [] => .ok 0
  | row :: rest => do
      let time ← Windows.timeIn (.text settings.dateColumn) row
      let others ← undated settings rest
      return if time.isNone then others + 1 else others

def columnNames (records : List Value) : Except Fault (List String) := do
  let fields ← records.mapM Table.fieldsOf
  return ((fields.flatMap fun row => row.map (·.1)).eraseDups).mergeSort fun a b => !decide (b < a)

-- An account of a configuration and its records. `remembered` is how many filters
-- are kept ready.
def overview (settings : Settings) (config : Value) (records : List Value)
    (start finish : Value) (remembered : Nat) : Except Fault Value := do
  let windows ← Board.windows settings records start finish
  let undated ← undated settings records
  let columns ← columnNames records
  let tileCounts ← groups.mapM fun group => do
    return (group, Value.int (← lengthOf (← partOf config group)))
  return .object [
    ("settings", .object [("strict_operators", .bool settings.strict),
      ("date_column", .text settings.dateColumn)]),
    ("row_counts", .object [("current", .int windows.current.length),
      ("previous", .int windows.previous.length), ("all", .int windows.all.length),
      ("undated", .int undated)]),
    ("columns", .list (columns.map .text)), ("tile_counts", .object tileCounts),
    ("cached_matchers", .int remembered)]

end Tileboard.Board
