import Tileboard.Tile.Plan
import Tileboard.Tile.Reader
import Tileboard.Tile.Subtitle
import Tileboard.Period

namespace Tileboard

-- The full pass knows every plan; the simple one counts, shares and days only.
inductive Pass where
  | full
  | simple
  deriving DecidableEq

namespace Pass

def ofSimple (simple : Bool) : Pass := if simple then .simple else .full

def rowsFor {F : Type} (t : Tile F) (window all : List Value) : List Value :=
  if t.noRangeFilter then all else window

def plan {F : Type} (pass : Pass) (t : Tile F) : Except Fault (Plan F) :=
  match pass with
  | .full => Plan.full t
  | .simple => .ok (Plan.simple t)

-- The simple pass shows no percentage of a count, and no value before of anything
-- else.
def shownOutcome {F : Type} (pass : Pass) (t : Tile F) (o : Outcome) : Outcome :=
  match pass with
  | .full => o
  | .simple =>
      if t.filter.isSome then { o with change := { o.change with percent := none } }
      else { o with previous := .null }

-- The filter that a click on a tile applies. One is made for tiles with a filter
-- and a match key, where none is configured.
def clickFilter {F : Type} (pass : Pass) (t : Tile F) : Value :=
  let derivable := t.filter.isSome && t.matchKey.holds
  match pass with
  | .full =>
      if t.clickFilter.isNull && derivable then
        .object [("column", t.matchKey), ("contains", .text t.key)]
      else t.clickFilter
  | .simple =>
      if !t.clickFilter.holds && derivable then
        .object [("type", t.matchKey), ("value", .text t.key)]
      else t.clickFilter

def optionalReal (x : Option Binary64) : Value := x.elim .null Value.real

def directionName (d : Option Direction) : Value := Value.optionalText (d.map Direction.name)

def putAll (fields : List (String × Value)) (more : List (String × Value)) :
    List (String × Value) :=
  more.foldl (fun acc field => putField acc field.1 field.2) fields

def assemble {F : Type} (pass : Pass) (subtitles : Subtitles) (t : Tile F) (o : Outcome) :
    Except Fault Value := do
  let subtitle ← if t.subtitle.isNull then subtitles.subtitle (.text t.key) t.matchKey
    else pure t.subtitle
  let trend ← o.trendText
  let click := pass.clickFilter t
  let clickable := if t.clickable.isNull then .bool click.holds else t.clickable
  let groups := match o.groups with
    | some tiles => [("tiles", Value.list tiles)]
    | none => []
  return .object (putAll t.description
    ([("value", o.value), ("previous", o.previous), ("trend", trend),
      ("direction", directionName o.change.direction), ("percent", optionalReal o.change.percent),
      ("subtitle", subtitle), ("clickFilter", click), ("clickable", clickable)] ++ groups))

def result {F : Type} (pass : Pass) (subtitles : Subtitles) (windows : Windows Value)
    (t : Tile F) (plan : Plan Matcher) : Traced Value := do
  let active := rowsFor t windows.current windows.all
  let previous := rowsFor t windows.previous windows.all
  let outcome ← plan.run active previous
  pass.assemble subtitles t (pass.shownOutcome t outcome)

def tile (pass : Pass) (mode : Mode) (subtitles : Subtitles) (windows : Windows Value)
    (t : Tile Filter) : Traced Value := do
  let plan ← (← pass.plan t).prepare (Matcher.ofFilter mode)
  pass.result subtitles windows t plan

def tiles (pass : Pass) (mode : Mode) (subtitles : Subtitles) (windows : Windows Value)
    (ts : List (Tile Filter)) : Traced (List Value) :=
  ts.mapM (pass.tile mode subtitles windows)

-- The same for tiles that are still descriptions: all of them are read before the
-- first is measured.
def run (pass : Pass) (mode : Mode) (metrics : Value) (windows : Windows Value)
    (descriptions : Value) : Traced (List Value) := do
  let subtitles ← Subtitles.ofValue metrics
  let ts ← Tile.listOfValue descriptions
  pass.tiles mode subtitles windows ts

end Pass

end Tileboard
