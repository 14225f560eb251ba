import Tileboard.Table.Basic
import Tileboard.Filter.Selection

namespace Tileboard

namespace Table

-- What the cells of a column have shown so far, from top to bottom. A wide number
-- is past the signed 64-bit numbers.
structure Survey where
  null : Bool
  gap : Bool
  whole : Bool
  real : Bool
  negative : Bool
  wide : Bool
  deriving DecidableEq

inductive Storage where
  | asGiven
  | real
  deriving DecidableEq

namespace Survey

def start : Survey := ⟨false, false, false, false, false, false⟩

-- Whole numbers are stored as such only if 64 bits hold all of them, signed or
-- unsigned. Below a null this is not looked at.
def addWhole (s : Survey) (n : Int) : Option Survey :=
  if s.null then some { s with whole := true }
  else
    let next := { s with
      whole := true
      negative := s.negative || n < 0
      wide := s.wide || int64Bound ≤ n }
    if n < -int64Bound ∨ uint64Bound ≤ n ∨ (next.negative && next.wide) then none else some next

-- Gaps turn whole numbers into binary64 ones. Nulls alone leave a column as it is.
def storage (s : Survey) : Storage :=
  if s.gap || s.real || (s.null && s.whole) then .real else .asGiven

-- A cell that is neither a number nor a gap leaves the column as given.
def run (s : Survey) : List (Option Value) → Except Fault Storage
  | [] => .ok s.storage
  | none :: rest => run { s with gap := true } rest
  | some .null :: rest => run { s with null := true } rest
  | some (.number (.real x)) :: rest =>
      if x.isNan then run { s with gap := true } rest else run { s with real := true } rest
  | some (.number (.int n)) :: rest =>
      if ((Number.int n).toBinary64?).isNone then .error .numberTooLarge
      else
        match s.addWhole n with
        | some next => run next rest
        | none => .ok .asGiven
  | _ => .ok .asGiven

end Survey

-- A cell as the column stores it. A gap is NaN, in a column as given only where the
-- field was missing.
def stored (storage : Storage) (cell : Option Value) : Value :=
  match storage, cell with
  | _, none => .real .nan
  | .asGiven, some v => v
  | .real, some .null => .real .nan
  | .real, some (.number (.int n)) => .real (.ofInt n)
  | .real, some v => v

def settle (cells : List (Option Value)) : Except Fault (List Value) :=
  (Survey.start.run cells).map fun storage => cells.map (stored storage)

def fieldNames (rows : List (List (String × Value))) : List String :=
  (rows.flatMap fun fields => fields.map (·.1)).eraseDups

def ofFields (rows : List (List (String × Value))) : Except Fault (Table Value) := do
  let columns ← (fieldNames rows).mapM fun name => do
    return (name, ← settle (rows.map (·.lookup name)))
  return ⟨rows.length, columns⟩

def fieldsOf : Value → Except Fault (List (String × Value))
  | .object fields => .ok fields
  | v => .error (.notARecord v "keys")

def ofRecords (records : List Value) : Except Fault (Table Value) := do
  ofFields (← records.mapM fieldsOf)

def isIdle {β : Type} (t : Table Value) (filters : List β) : Bool :=
  t.isEmpty || filters.isEmpty

def select (t : Table Value) (mode : Mode) (filters : List Value) : Traced (List Nat) :=
  if t.isIdle filters then return List.range t.height
  else do
    let kept ← Selection.applyDescribed (fun row => Value.object row.1) mode filters
      t.rows.zipIdx
    return kept.map (·.2)

end Table

end Tileboard
