import Tileboard.Instant.Reader
import Tileboard.Table.Basic
import Tileboard.Value.Rendering

namespace Tileboard

inductive Cell where
  | missing
  | value (v : Value)
  | moment (date : Date) (sinceMidnight : Nat)
  | day (date : Date)
  deriving Inhabited

namespace Cell

-- The value a record has for a cell: null for what is missing or NaN, and dates as
-- texts.
def plain : Cell → Value
  | .missing => .null
  | .value (.number n) => if n.isNan then .null else .number n
  | .value v => v
  | .moment date sinceMidnight => .text (Instant.stamp "T" date sinceMidnight)
  | .day date => .text date.text

def isPresent (c : Cell) : Bool := !c.plain.isNull

def text : Cell → String
  | .missing => ""
  | .value v => v.asText
  | .moment date sinceMidnight => Instant.stamp " " date sinceMidnight
  | .day date => date.text

def momentOfText? (s : String) : Option Cell := do
  let (date, afterDate) ← Instant.takeDate? (Text.trimChars s.toList)
  let (clock, _) ← Instant.takeTime? afterDate
  if date.isValid && clock.isValid then return .moment date clock.sinceMidnight.toNat
  else none

end Cell

namespace Table

-- The record of a row. Of columns with one name the last counts.
def record (row : List (String × Cell)) : Value :=
  .object (row.foldl (fun fields cell => putField fields cell.1 cell.2.plain) [])

def records (t : Table Cell) : List Value := if t.isEmpty then [] else t.rows.map record

end Table

end Tileboard
