import Tileboard.Filter.Dag
import Tileboard.Filter.Matcher

namespace Tileboard

-- What tells one matcher from another. The two that do not look at the row are one
-- each; every other is made anew.
inductive Identity where
  | always
  | never
  | made (stamp : Nat)
  deriving DecidableEq

structure Ready where
  identity : Identity
  matcher : Matcher

structure Cache where
  mode : Mode
  entries : List (Nat × Ready)

namespace Cache

def empty (mode : Mode) : Cache := ⟨mode, []⟩

def size (c : Cache) : Nat := c.entries.length

def find? (c : Cache) (node : Nat) : Option Ready := c.entries.lookup node

def contains (c : Cache) (node : Nat) : Bool := (c.find? node).isSome

def clear (c : Cache) : Cache := empty c.mode

def retain (c : Cache) (held : List Nat) : Cache :=
  { c with entries := c.entries.filter fun entry => held.contains entry.1 }

end Cache

-- A cache with the next stamp, and the nodes whose matchers were made, the last one first.
structure Workbench where
  cache : Cache
  stamp : Nat
  made : List Nat

namespace Workbench

def keep (w : Workbench) (node : Nat) (ready : Ready) : Workbench :=
  { w with cache := { w.cache with entries := (node, ready) :: w.cache.entries } }

-- A matcher was made of a node: it gets its identity and is kept.
def finish (w : Workbench) (node : Nat) (matcher : Matcher) : Workbench × Ready :=
  let w := { w with made := node :: w.made }
  match matcher with
  | .always =>
      let ready := ⟨.always, .always⟩
      (w.keep node ready, ready)
  | .never =>
      let ready := ⟨.never, .never⟩
      (w.keep node ready, ready)
  | m =>
      let ready := ⟨.made w.stamp, m⟩
      ({ w with stamp := w.stamp + 1 }.keep node ready, ready)

def conclude (w : Workbench) (node : Nat) (made : Traced Matcher) : Workbench × Traced Ready :=
  match made.result with
  | .ok matcher =>
      let (after, ready) := w.finish node matcher
      (after, ⟨made.notes, .ok ready⟩)
  | .error fault => (w, ⟨made.notes, .error fault⟩)

mutual

-- The matcher of a node: the one that is kept, or a new one made from those of its
-- parts. The first part that fails stops it; what was made before stays.
def get (d : Dag) (w : Workbench) (node : Nat) : Workbench × Traced Ready :=
  match w.cache.find? node with
  | some ready => (w, return ready)
  | none =>
      match d.node? node with
      | none => (w, throw .noSuchName)
      | some ⟨.leaf column operator operand, _⟩ =>
          w.conclude node (Matcher.ofLeaf w.cache.mode column operator operand)
      | some ⟨.all parts, h⟩ =>
          let (after, made) := getAll d w node parts h
          after.conclude node (Matcher.all <$> made)
      | some ⟨.any parts, h⟩ =>
          let (after, made) := getAll d w node parts h
          after.conclude node (Matcher.any <$> made)
termination_by (node, 1, 0)

def getAll (d : Dag) (w : Workbench) (node : Nat) (parts : List Nat)
    (h : ∀ c ∈ parts, c < node) : Workbench × Traced (List Matcher) :=
  match parts with
  | [] => (w, return [])
  | c :: rest =>
      have : c < node := h c (by simp)
      let (afterFirst, first) := get d w c
      match first.result with
      | .error fault => (afterFirst, ⟨first.notes, .error fault⟩)
      | .ok ready =>
          let (after, others) := getAll d afterFirst node rest fun x hx => h x (by simp [hx])
          (after, ⟨first.notes ++ others.notes, others.result.map (ready.matcher :: ·)⟩)
termination_by (node, 0, parts.length)

end

end Workbench

end Tileboard
