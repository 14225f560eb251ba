import Tileboard.Fault
import Tileboard.Table.Header
import Tileboard.Table.TextColumn

namespace Tileboard.Delimited

inductive Position where
  | lineStart
  | blankLine
  | fieldStart
  | plain
  | quoted
  | afterQuote
  deriving DecidableEq

-- The field so far and the fields before it on the line, both in reverse.
structure Progress where
  position : Position
  field : List Char
  fields : List String

namespace Progress

def start : Progress := ⟨.lineStart, [], []⟩

def push (p : Progress) (position : Position) (c : Char) : Progress :=
  { p with position, field := c :: p.field }

def closed (p : Progress) : List String := String.ofList p.field.reverse :: p.fields

def line (p : Progress) : List String := p.closed.reverse

end Progress

def isNewline (c : Char) : Bool := c = '\n' || c = '\r'

def isSpace (c : Char) : Bool := c = ' ' || c = '\t'

def isBlankRest (cs : List Char) : Bool :=
  match cs.dropWhile isSpace with
  | [] => true
  | c :: _ => isNewline c

def beginField (p : Progress) (c : Char) : Progress × Option (List String) :=
  if isNewline c then (.start, some p.line)
  else if c = ',' then (⟨.fieldStart, [], p.closed⟩, none)
  else if c = '"' then ({ p with position := .quoted }, none)
  else (p.push .plain c, none)

def outsideQuotes (p : Progress) (c : Char) : Progress × Option (List String) :=
  if isNewline c then (.start, some p.line)
  else if c = ',' then (⟨.fieldStart, [], p.closed⟩, none)
  else (p.push .plain c, none)

-- Takes one character; a line that ends with it is given out. Lines with nothing
-- but blanks are left out, which also makes a carriage return and a line feed one
-- end of a line. A quote inside a quoted field is written twice.
def step (p : Progress) (c : Char) (rest : List Char) : Progress × Option (List String) :=
  match p.position with
  | .lineStart =>
      if isNewline c then (.start, none)
      else if isSpace c && isBlankRest rest then (⟨.blankLine, [], []⟩, none)
      else beginField p c
  | .blankLine => if isNewline c then (.start, none) else (p, none)
  | .fieldStart => beginField p c
  | .plain => outsideQuotes p c
  | .quoted =>
      if c = '"' then ({ p with position := .afterQuote }, none) else (p.push .quoted c, none)
  | .afterQuote => if c = '"' then (p.push .quoted c, none) else outsideQuotes p c

-- The last line need not end; a quote has to.
def finish (p : Progress) : Except Fault (List (List String)) :=
  match p.position with
  | .lineStart | .blankLine => .ok []
  | .quoted => .error .brokenTable
  | _ => .ok [p.line]

def run (p : Progress) : List Char → Except Fault (List (List String))
  | [] => finish p
  | c :: rest =>
      match step p c rest with
      | (next, some line) => (run next rest).map (line :: ·)
      | (next, none) => run next rest

-- A mark of the byte order in front does not count.
def lines (s : String) : Except Fault (List (List String)) :=
  match s.toList with
  | '\uFEFF' :: rest => run .start rest
  | cs => run .start cs

-- Fills a row up to a width; it must not be longer.
def fitted (width : Nat) (row : List String) : Except Fault (List String) :=
  if width < row.length then .error .brokenTable
  else .ok (row ++ List.replicate (width - row.length) "")

-- The first row may be wider than the header. The fields it has more name its row
-- and are no cells, and so in the rows below it.
def body (header : List String) : List (List String) → Except Fault (List (List String))
  | [] => .ok []
  | first :: rest => do
      let width := max header.length first.length
      let rows ← (first :: rest).mapM (fitted width)
      return rows.map (·.drop (width - header.length))

def cellOf (field : String) : Cell :=
  if Header.missingTexts.contains field then .missing else .value (.text field)

def read (s : String) : Except Fault (Table Cell) := do
  match ← lines s with
  | [] => throw .emptyTable
  | header :: rows =>
      let names := Header.names (header.map fun name => if name.isEmpty then none else some (.text name))
      let cells ← body header rows
      let columns := names.zipIdx.map fun (name, i) =>
        (name, Table.numericTexts (cells.map fun row => cellOf ((row[i]?).getD "")))
      return ⟨cells.length, columns⟩

end Tileboard.Delimited
