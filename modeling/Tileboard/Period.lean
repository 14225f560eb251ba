import Tileboard.Filter.Selection
import Tileboard.Instant.Span

namespace Tileboard

-- A closed range of time; it is empty when it ends before it starts.
structure Period where
  first : Instant
  last : Instant
  deriving DecidableEq

namespace Period

def ofEnds : Option Instant → Option Instant → Option Period
  | some first, some last => some ⟨first, last⟩
  | _, _ => none

def ofValues (start finish : Value) : Except Fault (Option Period) := do
  let first ← start.instant
  let last ← finish.instant
  return ofEnds first last

-- The period of equal length that ends where this one starts. There is none when it
-- would start at the count that stands for no time.
def previous (p : Period) : Except Fault (Option Period) := do
  let span ← p.first.spanTo p.last
  let first ← p.first.earlier span
  let last ← p.last.earlier span
  return ofEnds first last

def beforeValues (start finish : Value) : Except Fault (Option Period) := do
  match ← ofValues start finish with
  | some p => p.previous
  | none => return none

def contains (p : Period) (t : Instant) : Bool := t.isWithin p.first p.last

def covers : Option Period → Option Instant → Bool
  | some p, some t => p.contains t
  | _, _ => false

end Period

structure Windows (α : Type) where
  current : List α
  previous : List α
  all : List α

namespace Windows

def unbounded {α : Type} (rows : List α) : Windows α := ⟨rows, rows, rows⟩

-- The rows with their times; the first time that cannot be read stops it.
def dated {α : Type} (time : α → Except Fault (Option Instant)) :
    List α → Except Fault (List (α × Option Instant))
  | [] => .ok []
  | row :: rest => do
      let t ← time row
      return (row, t) :: (← dated time rest)

def within {α : Type} (p : Option Period) (rows : List (α × Option Instant)) : List α :=
  (rows.filter fun row => Period.covers p row.2).map (·.1)

def ofPeriod {α : Type} (time : α → Except Fault (Option Instant)) (period : Option Period)
    (rows : List α) : Except Fault (Windows α) :=
  match period with
  | none => .ok ⟨[], [], rows⟩
  | some p => do
      let previous ← p.previous
      let times ← dated time rows
      return ⟨within p times, within previous times, rows⟩

-- The windows of the period between two values. Without two readable ends there is
-- no period.
def select {α : Type} (time : α → Except Fault (Option Instant)) (start finish : Value)
    (rows : List α) : Except Fault (Windows α) := do
  ofPeriod time (← Period.ofValues start finish) rows

def timeIn (dateColumn : Value) (record : Value) : Except Fault (Option Instant) := do
  (← record.cell dateColumn).instant

def counts {α : Type} (w : Windows α) : Value :=
  .object [("current", .int w.current.length), ("previous", .int w.previous.length),
    ("all", .int w.all.length)]

end Windows

end Tileboard
