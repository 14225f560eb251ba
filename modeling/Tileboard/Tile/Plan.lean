import Tileboard.Tile.Basic
import Tileboard.Measure.Count
import Tileboard.Measure.Duration
import Tileboard.Measure.Grouping

namespace Tileboard

inductive Plan (F : Type) where
  | fixed (value : Value)
  | group (filter : Option F) (column field : Value) (metric : Option Metric) (filterType : Value)
  | aggregate (filter : Option F) (field : Value) (metric : Metric) (compare : Bool)
  | count (filter : F) (distinctColumn : Value) (shareOfBase : Bool)
  | share (numerator denominator : F)
  | duration (filter : Option F) (start finish : Value)
  | days (start finish : Value)

namespace Plan

def numberOrZero (v : Value) : Value := if v.isNumber then v else .int 0

-- The first of these that a tile asks for: its own value, groups, a metric, a count,
-- a share, a duration.
def full {F : Type} (t : Tile F) : Except Fault (Plan F) := do
  if t.preCalculated then return .fixed (numberOrZero t.value)
  if ← t.isGrouped then
    return .group t.filter t.column t.field (Metric.ofValue? t.metric) t.filterType
  let metric := if t.field.holds then Metric.ofValue? t.metric else none
  let counted := if t.average.isSome || t.percentage.isSome || t.metric.holds then none else t.filter
  match metric, counted, t.percentage, t.average with
  | some m, _, _, _ => return .aggregate t.filter t.field m (!t.noRangeFilter)
  | none, some f, _, _ =>
      return .count f (if t.distinct then t.distinctColumn else .null) t.noRangeFilter
  | none, none, some (numerator, denominator), _ => return .share numerator denominator
  | none, none, none, some (start, finish) => return .duration t.filter start finish
  | none, none, none, none => return .fixed (numberOrZero t.value)

def simple {F : Type} (t : Tile F) : Plan F :=
  match t.filter, t.percentage, t.average with
  | some f, _, _ => .count f .null false
  | none, some (numerator, denominator), _ => .share numerator denominator
  | none, none, some (start, finish) => .days start finish
  | none, none, none => .fixed (if t.value.isNull then .int 0 else t.value)

-- The same plan with its filters made ready, in the order in which it names them.
def prepare {m : Type → Type} [Monad m] {F G : Type} (f : F → m G) (plan : Plan F) :
    m (Plan G) :=
  let optional (a : Option F) : m (Option G) :=
    match a with
    | some b => some <$> f b
    | none => pure none
  match plan with
  | .fixed value => pure (.fixed value)
  | .group filter column field metric filterType => do
      return .group (← optional filter) column field metric filterType
  | .aggregate filter field metric compare => do
      return .aggregate (← optional filter) field metric compare
  | .count filter distinctColumn shareOfBase => do
      return .count (← f filter) distinctColumn shareOfBase
  | .share numerator denominator => do
      let top ← f numerator
      let bottom ← f denominator
      return .share top bottom
  | .duration filter start finish => do return .duration (← optional filter) start finish
  | .days start finish => pure (.days start finish)

def run (plan : Plan Matcher) (active previous : List Value) : Traced Outcome :=
  match plan with
  | .fixed value => return .ofValue value (.int 0)
  | .group matcher column field metric filterType =>
      Measure.grouped matcher column field metric filterType active
  | .aggregate matcher field metric compare =>
      Measure.aggregate matcher field (some metric) compare active previous
  | .count matcher distinctColumn shareOfBase =>
      Measure.count matcher distinctColumn shareOfBase active previous
  | .share numerator denominator => Measure.share numerator denominator active
  | .duration matcher start finish => Measure.meanDuration matcher start finish active
  | .days start finish => Measure.meanDays start finish active

end Plan

end Tileboard
