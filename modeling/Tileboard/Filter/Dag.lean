import Tileboard.Filter.Basic

namespace Tileboard

inductive Node where
  | leaf (column : Value) (operator : Option Operator) (operand : Value)
  | all (parts : List Nat)
  | any (parts : List Nat)

namespace Node

def parts : Node → List Nat
  | .leaf .. => []
  | .all parts => parts
  | .any parts => parts

end Node

-- The nodes by number. The parts of a node come before it, so there are no cycles.
structure Dag where
  nodes : List Node
  ordered : ∀ (i : Nat) (h : i < nodes.length), ∀ c ∈ nodes[i].parts, c < i

namespace Dag

def empty : Dag := ⟨[], fun i h => absurd h (Nat.not_lt_zero i)⟩

instance : Inhabited Dag := ⟨empty⟩

def size (d : Dag) : Nat := d.nodes.length

def push (d : Dag) (node : Node) (h : ∀ c ∈ node.parts, c < d.size) : Dag where
  nodes := d.nodes ++ [node]
  ordered := by
    intro i hi c hc
    by_cases hlt : i < d.nodes.length
    · rw [List.getElem_append_left hlt] at hc
      exact d.ordered i hlt c hc
    · have hlen : i = d.nodes.length := by
        simp only [List.length_append, List.length_cons, List.length_nil] at hi
        omega
      subst hlen
      simp only [List.getElem_concat_length] at hc
      exact h c hc

theorem size_push (d : Dag) (node : Node) (h : ∀ c ∈ node.parts, c < d.size) :
    (d.push node h).size = d.size + 1 := by
  simp [push, size]

structure Placed (d : Dag) where
  dag : Dag
  number : Nat
  grown : d.size ≤ dag.size
  present : number < dag.size

structure PlacedAll (d : Dag) where
  dag : Dag
  numbers : List Nat
  grown : d.size ≤ dag.size
  present : ∀ c ∈ numbers, c < dag.size

def place (d : Dag) (node : Node) (h : ∀ c ∈ node.parts, c < d.size) : Placed d :=
  ⟨d.push node h, d.size, by rw [size_push]; omega, by rw [size_push]; omega⟩

def Placed.after {d e : Dag} (p : Placed e) (h : d.size ≤ e.size) : Placed d :=
  ⟨p.dag, p.number, Nat.le_trans h p.grown, p.present⟩

mutual

def add (d : Dag) : Filter → Placed d
  | .leaf column operator operand =>
      d.place (.leaf column operator operand) (by simp [Node.parts])
  | .all parts =>
      let placed := addAll d parts
      (placed.dag.place (.all placed.numbers) placed.present).after placed.grown
  | .any parts =>
      let placed := addAll d parts
      (placed.dag.place (.any placed.numbers) placed.present).after placed.grown

def addAll (d : Dag) : List Filter → PlacedAll d
  | [] => ⟨d, [], Nat.le_refl _, by simp⟩
  | f :: rest =>
      let first := add d f
      let others := addAll first.dag rest
      ⟨others.dag, first.number :: others.numbers, Nat.le_trans first.grown others.grown, by
        intro c hc
        cases hc with
        | head => exact Nat.lt_of_lt_of_le first.present others.grown
        | tail _ h => exact others.present c h⟩

end

def addGroup? (d : Dag) (conjunction : Bool) (parts : List Nat) : Option (Dag × Nat) :=
  if h : ∀ c ∈ parts, c < d.size then
    let node : Node := if conjunction then .all parts else .any parts
    have hparts : ∀ c ∈ node.parts, c < d.size := by
      intro c hc
      apply h
      cases conjunction <;> simpa [node, Node.parts] using hc
    some (d.push node hparts, d.size)
  else none

def node? (d : Dag) (i : Nat) : Option { n : Node // ∀ c ∈ n.parts, c < i } :=
  if h : i < d.nodes.length then some ⟨d.nodes[i], d.ordered i h⟩ else none

mutual

def toFilter (d : Dag) (i : Nat) : Filter :=
  match d.node? i with
  | none => .all []
  | some ⟨.leaf column operator operand, _⟩ => .leaf column operator operand
  | some ⟨.all parts, h⟩ => .all (toFilters d i parts h)
  | some ⟨.any parts, h⟩ => .any (toFilters d i parts h)
termination_by (i, 1, 0)

def toFilters (d : Dag) (i : Nat) (parts : List Nat) (h : ∀ c ∈ parts, c < i) : List Filter :=
  match parts with
  | [] => []
  | c :: rest =>
      have : c < i := h c (by simp)
      toFilter d c :: toFilters d i rest fun x hx => h x (by simp [hx])
termination_by (i, 0, parts.length)

end

-- The nodes that some roots hold, directly or as parts: from the last node down,
-- each held node holds its parts.
def heldFrom (d : Dag) : Nat → List Nat → List Nat
  | 0, held => held
  | i + 1, held =>
      if held.contains i then
        let parts := ((d.nodes[i]?).map Node.parts).getD []
        heldFrom d i (parts ++ held)
      else heldFrom d i held

def held (d : Dag) (roots : List Nat) : List Nat := d.heldFrom d.size roots

end Dag

end Tileboard
