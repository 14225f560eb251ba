import Tileboard.Filter.Basic
import Tileboard.Text.Search
import Tileboard.Threshold

namespace Tileboard

-- `F` is how a tile refers to its filters. Fields that a tile only passes on, or
-- whose kind decides what the tile does, are kept as given.
structure Tile (F : Type) where
  key : String
  title : String
  subtitle : Value
  matchKey : Value
  filter : Option F
  percentage : Option (F × F)
  average : Option (Value × Value)
  metric : Value
  field : Value
  column : Value
  component : Value
  distinct : Bool
  distinctColumn : Value
  preCalculated : Bool
  value : Value
  clickFilter : Value
  clickable : Value
  noRangeFilter : Bool
  filterType : Value
  thresholds : Option Thresholds
  description : List (String × Value)

namespace Tile

-- The same tile with its filters referred to in another way. Filters are visited
-- in the order of the fields.
def mapFilters {m : Type → Type} [Monad m] {F G : Type} (f : F → m G) (t : Tile F) :
    m (Tile G) := do
  let filter ← match t.filter with
    | some a => some <$> f a
    | none => pure none
  let percentage ← match t.percentage with
    | some (a, b) => do
        let numerator ← f a
        let denominator ← f b
        pure (some (numerator, denominator))
    | none => pure none
  return { t with filter, percentage }

-- A component that holds the name of a bar or pie chart, as a text in which it
-- occurs or as a collection that has it.
def groupedComponents : List String := ["ChartBar", "ChartPie"]

def isMember (name : String) (collection : Value) : Except Fault Bool :=
  match collection with
  | .text s => .ok (Text.contains s name)
  | .list items => .ok (items.any (Value.equal (.text name)))
  | .object fields => .ok (fields.lookup name).isSome
  | v => .error (.notIterable v)

def namesChart (component : Value) : Except Fault Bool := do
  if component.holds then
    groupedComponents.anyM fun name => isMember name component
  else return false

def isGrouped {F : Type} (t : Tile F) : Except Fault Bool :=
  if t.metric.holds && t.field.holds && t.column.holds then namesChart t.component
  else .ok false

end Tile

end Tileboard
