import Tileboard.Record

namespace Tileboard

structure Subtitles where
  metrics : List Value

namespace Subtitles

def ofValue (v : Value) : Except Fault Subtitles := v.itemsOrNone.map Subtitles.mk

def belongs (key matchKey metricKey : Value) : Bool :=
  (!matchKey.isNull && metricKey.equal matchKey) || metricKey.equal key

def findIn (key matchKey : Value) : List Value → Except Fault (Option Value)
  | [] => .ok none
  | metric :: rest =>
      match metric with
      | .object _ =>
          if belongs key matchKey (metric.field "key") then .ok (some metric)
          else findIn key matchKey rest
      | _ => .error (.notARecord metric "get")

def find (s : Subtitles) (key matchKey : Value) : Except Fault (Option Value) :=
  findIn key matchKey s.metrics

def subtitle (s : Subtitles) (key matchKey : Value) : Except Fault Value := do
  match ← s.find key matchKey with
  | some metric => return metric.field "subtitle"
  | none => return .null

end Subtitles

end Tileboard
