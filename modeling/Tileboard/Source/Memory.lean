import Tileboard.Source.Directory

namespace Tileboard

structure Signature where
  place : List String
  stamp : Nat
  deriving DecidableEq

-- The records by signature, those used last first.
structure Memory where
  entries : List (Signature × List Value)

namespace Memory

def empty : Memory := ⟨[]⟩

def capacity : Nat := 8

def remembered? (m : Memory) (s : Signature) : Option (List Value) := m.entries.lookup s

def without (m : Memory) (s : Signature) : List (Signature × List Value) :=
  m.entries.filter fun entry => entry.1 ≠ s

-- Makes a signature the one used last. The one used longest ago is forgotten when
-- there are too many.
def use (m : Memory) (s : Signature) (records : List Value) : Memory :=
  ⟨((s, records) :: m.without s).take capacity⟩

-- The records of a source: remembered ones if the file has not changed, else read
-- afresh. A fault leaves the memory as it is.
def load (m : Memory) (d : Directory) (source : String) : Memory × Traced (List Value) :=
  match d.locate source with
  | .error fault => (m, throw fault)
  | .ok names =>
      match d.file? names with
      | none => (m, throw (.missingSource source))
      | some (_, stamp) =>
          let signature : Signature := ⟨d.place ++ names, stamp⟩
          match m.remembered? signature with
          | some records => (m.use signature records, pure records)
          | none =>
              let answer := d.load source
              match answer.result with
              | .ok records => (m.use signature records, answer)
              | .error _ => (m, answer)

end Memory

end Tileboard
