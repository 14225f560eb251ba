import Tileboard.Measure.Outcome
import Tileboard.Number.Numeral
import Tileboard.Number.Statistics

namespace Tileboard

inductive Metric where
  | sum
  | least
  | greatest
  | median
  | average
  deriving DecidableEq

namespace Metric

def name : Metric → String
  | .sum => "sum"
  | .least => "min"
  | .greatest => "max"
  | .median => "median"
  | .average => "average"

def all : List Metric := [.sum, .least, .greatest, .median, .average]

def ofValue? (v : Value) : Option Metric :=
  match v with
  | .text s => all.find? (·.name == s)
  | _ => none

-- The metric of some numbers. The average is rounded to a whole number; of no
-- numbers, and by an unknown metric, the result is zero.
def aggregate (metric : Option Metric) (numbers : List Binary64) : Except Fault Number :=
  match numbers with
  | [] => .ok (.int 0)
  | x :: rest =>
      match metric with
      | none => .ok (.int 0)
      | some .sum => .ok (.real (Statistics.sum numbers))
      | some .least => .ok (.real (Statistics.least x rest))
      | some .greatest => .ok (.real (Statistics.greatest x rest))
      | some .median => .ok (.real (Statistics.median numbers))
      | some .average => (Measure.roundedWhole (Statistics.mean numbers)).map .int

end Metric

namespace Measure

-- The finite number that a cell denotes. Null counts as zero; booleans and texts
-- that denote no number are left out.
def numberIn (cell : Value) : Except Fault (Option Binary64) :=
  let finite (x : Binary64) : Option Binary64 := if x.isFinite then some x else none
  match cell with
  | .null => .ok (some (Binary64.zero false))
  | .number n =>
      match n.toBinary64? with
      | some x => .ok (finite x)
      | none => .error .numberTooLarge
  | .text s => .ok ((Numeral.binary64? s).bind finite)
  | _ => .ok none

def numbersIn (column : Value) : List Value → Except Fault (List Binary64)
  | [] => .ok []
  | row :: rest => do
      let number ← numberIn (← row.cell column)
      let others ← numbersIn column rest
      return number.toList ++ others

def aggregate (matcher : Option Matcher) (column : Value) (metric : Option Metric)
    (compare : Bool) (active previous : List Value) : Traced Outcome := do
  let here ← matching matcher active
  let value ← Metric.aggregate metric (← numbersIn column here)
  let before ← matching matcher previous
  let valueBefore ← Metric.aggregate metric (← numbersIn column before)
  if compare then Outcome.compared value valueBefore
  else return .ofValue (.number value) (.number valueBefore)

end Measure

end Tileboard
