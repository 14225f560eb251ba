import Tileboard.Table.Cell
import Tileboard.Table.Header

namespace Tileboard.Workbook

def errorTexts : List String :=
  ["#NULL!", "#DIV/0!", "#VALUE!", "#REF!", "#NAME?", "#NUM!", "#N/A"]

-- Formulas have no result yet.
def isFormula (s : String) : Bool := s.startsWith "=" && 1 < s.length

-- A moment to the nearest millisecond, which is as exact as a sheet keeps it.
def toMillisecond (date : Date) (sinceMidnight : Nat) : Cell :=
  let milliseconds := (sinceMidnight + 500000) / 1000000
  if milliseconds < 86400000 then .moment date (milliseconds * 1000000)
  else .moment (Date.ofDay (date.toDay + 1)) 0

-- A cell as the sheet gives it back. Whole numbers are integers.
def kept : Cell → Cell
  | .value .null => .missing
  | .value (.text s) =>
      if s.isEmpty || isFormula s then .missing
      else if errorTexts.contains s then .value (.real .nan)
      else .value (.text s)
  | .value (.number (.real x)) =>
      match x.toInt? with
      | some n => .value (.int n)
      | none => .value (.real x)
  | .moment date sinceMidnight => toMillisecond date sinceMidnight
  | c => c

def isMissing : Cell → Bool
  | .missing => true
  | _ => false

def dropTrailing {α : Type} (p : α → Bool) (xs : List α) : List α :=
  (xs.reverse.dropWhile p).reverse

-- The rows of a sheet, all as wide as the widest. Missing cells at the end of a row
-- and rows without cells at the end of the sheet do not count.
def grid (rows : List (List Cell)) : List (List Cell) :=
  let trimmed := rows.map fun row => dropTrailing isMissing (row.map kept)
  let used := dropTrailing List.isEmpty trimmed
  let width := (used.map List.length).foldl max 0
  used.map fun row => row ++ List.replicate (width - row.length) .missing

def sameValue : Cell → Cell → Bool
  | .value v, .value w => v.equal w
  | _, _ => false

-- Equal cells of a column are all as the first of them.
def unified (seen : List Cell) : List Cell → List Cell
  | [] => []
  | c :: rest =>
      match seen.find? (sameValue c) with
      | some first => first :: unified seen rest
      | none => c :: unified (c :: seen) rest

def absent : Cell → Bool
  | .missing => true
  | .value (.text s) => Header.missingTexts.contains s
  | _ => false

def column (cells : List Cell) : List Cell :=
  unified [] (cells.map fun c => if absent c then .missing else c)

def nameOf : Cell → Option Value
  | .missing => none
  | .value v => some v
  | c => some (.text c.text)

def read (rows : List (List Cell)) : Table Cell :=
  match grid rows with
  | [] => ⟨0, []⟩
  | header :: body =>
      let names := Header.names (header.map nameOf)
      ⟨body.length, names.zipIdx.map fun (name, i) =>
        (name, column (body.map fun row => (row[i]?).getD .missing))⟩

end Tileboard.Workbook
