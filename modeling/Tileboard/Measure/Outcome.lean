import Tileboard.Trend
import Tileboard.Filter.Selection

namespace Tileboard

-- The value of the period, that of the period before, how it changed, and the
-- tiles of its groups if it has some.
structure Outcome where
  value : Value
  previous : Value
  change : Change
  groups : Option (List Value)

namespace Outcome

def unchanged : Change := ⟨none, none, none⟩

def ofValue (value previous : Value) : Outcome := ⟨value, previous, unchanged, none⟩

def compared (value previous : Number) : Except Fault Outcome := do
  let change ← Change.compute value previous
  return ⟨.number value, .number previous, change, none⟩

def trendText (o : Outcome) : Except Fault Value :=
  match o.change.trend with
  | some trend => trend.text.map .text
  | none => .ok .null

end Outcome

namespace Measure

def matching (matcher : Option Matcher) (rows : List Value) : Traced (List Value) :=
  match matcher with
  | some m => Selection.keep m.accepts rows
  | none => return rows

def rounded (x : Binary64) (places : Int) : Except Fault (Option Binary64) :=
  ((Number.real x).round places).mapError Fault.ofRounding

def roundedWhole (x : Binary64) : Except Fault Int := do
  match (← rounded x 0).bind Binary64.toInt? with
  | some n => return n
  | none => throw .wrongType

end Measure

end Tileboard
