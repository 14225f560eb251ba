import Mathlib.Logic.Relation
import Tileboard.Filter.Dag

namespace Tileboard.Dag

def partsOf (d : Dag) (i : Nat) : List Nat := ((d.nodes[i]?).map Node.parts).getD []

def IsPart (d : Dag) (c i : Nat) : Prop := c ∈ d.partsOf i

def Below (d : Dag) : Nat → Nat → Prop := Relation.TransGen d.IsPart

variable {d : Dag}

theorem lt_of_isPart {c i : Nat} (h : d.IsPart c i) : c < i := by
  unfold IsPart partsOf at h
  cases hi : d.nodes[i]? with
  | none => simp [hi] at h
  | some node =>
      obtain ⟨hlt, hget⟩ := List.getElem?_eq_some_iff.mp hi
      have hc : c ∈ d.nodes[i].parts := by simpa [hi, hget] using h
      exact d.ordered i hlt c hc

theorem lt_of_below {c i : Nat} (h : d.Below c i) : c < i := by
  induction h with
  | single h => exact lt_of_isPart h
  | tail _ h ih => exact Nat.lt_trans ih (lt_of_isPart h)

theorem node?_eq_some {i : Nat} {node : Node} {h : ∀ c ∈ node.parts, c < i}
    (hnode : d.node? i = some ⟨node, h⟩) : i < d.size ∧ d.partsOf i = node.parts := by
  unfold node? at hnode
  split at hnode
  · rename_i hlt
    cases hnode
    exact ⟨hlt, by simp [partsOf, List.getElem?_eq_getElem hlt]⟩
  · cases hnode

theorem isPart_of_node? {i : Nat} {node : Node} {h : ∀ c ∈ node.parts, c < i}
    (hnode : d.node? i = some ⟨node, h⟩) : ∀ c ∈ node.parts, d.IsPart c i := by
  intro c hc
  unfold IsPart
  rw [(node?_eq_some hnode).2]
  exact hc

theorem not_lt_of_node? {i : Nat} (hnode : d.node? i = none) : ¬i < d.size := by
  unfold node? at hnode
  split at hnode
  · cases hnode
  · assumption

-- From a place downwards, nothing above it is taken in any more.
theorem mem_heldFrom_of_le {n j : Nat} {held : List Nat} (hj : n ≤ j) :
    j ∈ d.heldFrom n held ↔ j ∈ held := by
  induction n generalizing held with
  | zero => rfl
  | succ n ih =>
      unfold heldFrom
      by_cases hn : held.contains n = true
      · rw [if_pos hn]
        rw [ih (by omega)]
        constructor
        · intro h
          rcases List.mem_append.mp h with h | h
          · have hlt := lt_of_isPart (d := d) (c := j) (i := n) h
            omega
          · exact h
        · exact List.mem_append_right _
      · rw [if_neg hn]
        exact ih (by omega)

theorem subset_heldFrom (n : Nat) (held : List Nat) : held ⊆ d.heldFrom n held := by
  induction n generalizing held with
  | zero => exact List.Subset.refl held
  | succ n ih =>
      unfold heldFrom
      by_cases hn : held.contains n = true
      · rw [if_pos hn]
        exact List.Subset.trans (List.subset_append_right _ _) (ih _)
      · rw [if_neg hn]
        exact ih held

theorem part_mem_heldFrom {n i c : Nat} {held : List Nat} (hi : i < n)
    (hheld : i ∈ d.heldFrom n held) (hc : d.IsPart c i) : c ∈ d.heldFrom n held := by
  induction n generalizing held with
  | zero => omega
  | succ n ih =>
      unfold heldFrom at hheld ⊢
      by_cases hn : held.contains n = true
      · rw [if_pos hn] at hheld ⊢
        by_cases heq : i = n
        · subst heq
          exact subset_heldFrom i _ (List.mem_append_left _ hc)
        · exact ih (by omega) hheld
      · rw [if_neg hn] at hheld ⊢
        have hne : i ≠ n := by
          rintro rfl
          rw [mem_heldFrom_of_le (Nat.le_refl i)] at hheld
          exact hn (by simpa using hheld)
        exact ih (by omega) hheld

theorem lt_size_of_isPart {c i : Nat} (h : d.IsPart c i) : i < d.size := by
  unfold IsPart partsOf at h
  cases hi : d.nodes[i]? with
  | none => simp [hi] at h
  | some node => exact (List.getElem?_eq_some_iff.mp hi).1

-- What holds a node holds its parts.
theorem part_mem_held {roots : List Nat} {i c : Nat} (hi : i ∈ d.held roots) (hc : d.IsPart c i) :
    c ∈ d.held roots :=
  part_mem_heldFrom (lt_size_of_isPart hc) hi hc

end Tileboard.Dag
