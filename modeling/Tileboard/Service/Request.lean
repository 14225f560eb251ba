import Tileboard.Service.Field

namespace Tileboard.Service

structure Request where
  method : String
  path : String
  body : Option Value

structure Range where
  start : Value
  finish : Value

-- Records come with the request, or from a source, or there are none.
structure Origin where
  records : Option (List Value)
  source : Value

structure TilesRequest where
  origin : Origin
  tiles : List Value
  metrics : List Value
  range : Range

structure BoardRequest where
  origin : Origin
  config : Value
  metrics : Value
  range : Range

structure RecordsRequest where
  origin : Origin
  filters : List Value
  click : Value
  range : Range
  useRange : Bool
  limit : Int

def Range.ofValue (v : Value) : Option Range := do
  if !Field.isObject v then none
  let start ← Field.orElse v ["from", "from_"] .null Field.optionalText
  let finish ← Field.orElse v ["to"] .null Field.optionalText
  return ⟨start, finish⟩

def rangeOf (body : Value) : Option Range :=
  Field.orElse body ["range"] ⟨.null, .null⟩ Range.ofValue

def Origin.ofBody (body : Value) : Option Origin := do
  let records ← Field.orElse body ["records"] none Field.optionalObjects
  let source ← Field.orElse body ["source"] .null Field.optionalText
  return ⟨records, source⟩

def objectsAt (body : Value) (names : List String) : Option (List Value) :=
  Field.orElse body names [] Field.objects

namespace TilesRequest

def ofBody (body : Value) : Option TilesRequest := do
  if !Field.isObject body then none
  let origin ← Origin.ofBody body
  let tiles ← objectsAt body ["tiles"]
  let metrics ← objectsAt body ["metricTiles", "metric_tiles"]
  return ⟨origin, tiles, metrics, ← rangeOf body⟩

end TilesRequest

namespace BoardRequest

def groupNames : List String := ["tiles", "summary", "trends"]

def configOf (v : Value) : Option Value := do
  if !Field.isObject v then none
  let groups ← groupNames.mapM fun name => do
    return (name, Value.list (← objectsAt v [name]))
  return .object groups

def noTiles : Value := .object (groupNames.map fun name => (name, .list []))

def ofBody (body : Value) : Option BoardRequest := do
  if !Field.isObject body then none
  let origin ← Origin.ofBody body
  let config ← Field.orElse body ["config"] noTiles configOf
  let metrics ← Field.orElse body ["metrics"] (.object []) Field.objectOfObjects
  return ⟨origin, config, metrics, ← rangeOf body⟩

end BoardRequest

namespace RecordsRequest

def defaultLimit : Int := 1000

def ofBody (body : Value) : Option RecordsRequest := do
  if !Field.isObject body then none
  let origin ← Origin.ofBody body
  let filters ← objectsAt body ["filters"]
  let click ← Field.orElse body ["clickFilter", "click_filter"] .null Field.optionalObject
  let range ← rangeOf body
  let useRange ← Field.orElse body ["useRange", "use_range"] true Field.switch
  let limit ← Field.orElse body ["limit"] defaultLimit Field.whole
  return ⟨origin, filters, click, range, useRange, limit⟩

end RecordsRequest

end Tileboard.Service
