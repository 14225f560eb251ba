import Tileboard.Proofs.Cache.Making

namespace Tileboard

namespace Node

def filterBy (f : Nat → Filter) : Node → Filter
  | .leaf column operator operand => .leaf column operator operand
  | .all parts => .all (parts.map f)
  | .any parts => .any (parts.map f)

theorem filterBy_congr {node : Node} {f g : Nat → Filter} (h : ∀ c ∈ node.parts, f c = g c) :
    node.filterBy f = node.filterBy g := by
  cases node with
  | leaf column operator operand => rfl
  | all parts => exact congrArg Filter.all (List.map_congr_left h)
  | any parts => exact congrArg Filter.any (List.map_congr_left h)

end Node

namespace Dag

def Extends (d e : Dag) : Prop := d.nodes <+: e.nodes

theorem Extends.refl (d : Dag) : d.Extends d := List.prefix_refl _

theorem Extends.trans {d e g : Dag} (h : d.Extends e) (h' : e.Extends g) : d.Extends g :=
  List.IsPrefix.trans h h'

theorem Extends.size_le {d e : Dag} (h : d.Extends e) : d.size ≤ e.size := List.IsPrefix.length_le h

section Extension

variable {d e : Dag} {i : Nat}

theorem Extends.getElem? (h : d.Extends e) (hi : i < d.size) : e.nodes[i]? = d.nodes[i]? := by
  obtain ⟨more, hmore⟩ := h
  rw [← hmore]
  exact List.getElem?_append_left hi

theorem Extends.partsOf (h : d.Extends e) (hi : i < d.size) : e.partsOf i = d.partsOf i := by
  unfold Dag.partsOf
  rw [h.getElem? hi]

theorem Extends.node? (h : d.Extends e) (hi : i < d.size) : e.node? i = d.node? i := by
  have hie : i < e.nodes.length := Nat.lt_of_lt_of_le hi h.size_le
  have hid : i < d.nodes.length := hi
  have hget : e.nodes[i] = d.nodes[i] := by
    have hsome := h.getElem? hi
    rw [List.getElem?_eq_getElem hie, List.getElem?_eq_getElem hid] at hsome
    exact Option.some.inj hsome
  unfold Dag.node?
  rw [dif_pos hie, dif_pos hid]
  exact congrArg some (Subtype.ext hget)

theorem exists_node? (hi : i < d.size) : ∃ node h, d.node? i = some ⟨node, h⟩ := by
  have hid : i < d.nodes.length := hi
  exact ⟨d.nodes[i], d.ordered i hid, dif_pos hid⟩

theorem toFilters_eq_map {parts : List Nat} (h : ∀ c ∈ parts, c < i) :
    d.toFilters i parts h = parts.map d.toFilter := by
  induction parts with
  | nil => rw [toFilters, List.map_nil]
  | cons c rest ih =>
      rw [toFilters, List.map_cons, ih fun x hx => h x (List.mem_cons_of_mem _ hx)]

theorem toFilter_eq {node : Node} {h : ∀ c ∈ node.parts, c < i}
    (hnode : d.node? i = some ⟨node, h⟩) : d.toFilter i = node.filterBy d.toFilter := by
  rw [toFilter]
  simp only [hnode]
  cases node with
  | leaf column operator operand => rfl
  | all parts => exact congrArg Filter.all (toFilters_eq_map h)
  | any parts => exact congrArg Filter.any (toFilters_eq_map h)

theorem toFilter_of_leaf {column operand : Value} {operator : Option Operator}
    (h : d.nodes[i]? = some (.leaf column operator operand)) :
    d.toFilter i = .leaf column operator operand := by
  obtain ⟨hi, hget⟩ := List.getElem?_eq_some_iff.mp h
  have hnode : d.node? i = some ⟨.leaf column operator operand, by simp [Node.parts]⟩ := by
    unfold node?
    rw [dif_pos hi]
    exact congrArg some (Subtype.ext hget)
  exact toFilter_eq hnode

-- Induction on the number of the node: what it stands for is made of its parts.
theorem Extends.toFilter (h : d.Extends e) (hi : i < d.size) : e.toFilter i = d.toFilter i := by
  induction i using Nat.strongRecOn with
  | ind i ih =>
      obtain ⟨node, hparts, hnode⟩ := exists_node? hi
      rw [toFilter_eq hnode, toFilter_eq ((h.node? hi).trans hnode)]
      exact Node.filterBy_congr fun c hc =>
        ih c (hparts c hc) (Nat.lt_trans (hparts c hc) hi)

theorem Extends.matcherOf (h : d.Extends e) (hi : i < d.size) (mode : Mode) :
    e.matcherOf mode i = d.matcherOf mode i := by
  rw [matcherOf_of_lt hi, matcherOf_of_lt (Nat.lt_of_lt_of_le hi h.size_le), h.toFilter hi]

end Extension

section Adding

theorem push_extends (d : Dag) (node : Node) (h : ∀ c ∈ node.parts, c < d.size) :
    d.Extends (d.push node h) := List.prefix_append _ _

theorem place_extends (d : Dag) (node : Node) (h : ∀ c ∈ node.parts, c < d.size) :
    d.Extends (d.place node h).dag := d.push_extends node h

theorem addGroup?_eq_some {d dag : Dag} {conjunction : Bool} {parts : List Nat} {number : Nat}
    (h : d.addGroup? conjunction parts = some (dag, number)) :
    d.Extends dag ∧ number < dag.size := by
  unfold addGroup? at h
  split at h
  · cases h
    refine ⟨push_extends _ _ _, ?_⟩
    rw [size_push]
    exact Nat.lt_succ_self _
  · cases h

theorem node?_place (d : Dag) (node : Node) (h : ∀ c ∈ node.parts, c < d.size) :
    (d.place node h).dag.node? (d.place node h).number = some ⟨node, h⟩ := by
  have hlt : d.size < (d.push node h).nodes.length := by
    have := d.size_push node h
    unfold size at this ⊢
    omega
  change (d.push node h).node? d.size = _
  unfold node?
  rw [dif_pos hlt]
  refine congrArg some (Subtype.ext ?_)
  simp [push, size]

mutual

theorem add_extends (d : Dag) : ∀ f : Filter, d.Extends (d.add f).dag
  | .leaf _ _ _ => d.place_extends _ _
  | .all parts =>
      (addAll_extends d parts).trans (place_extends _ (.all _) (d.addAll parts).present)
  | .any parts =>
      (addAll_extends d parts).trans (place_extends _ (.any _) (d.addAll parts).present)

theorem addAll_extends (d : Dag) : ∀ fs : List Filter, d.Extends (d.addAll fs).dag
  | [] => .refl d
  | f :: rest => (add_extends d f).trans (addAll_extends (d.add f).dag rest)

end

mutual

-- The node under which a filter is added stands for this filter.
theorem toFilter_add (d : Dag) : ∀ f : Filter, (d.add f).dag.toFilter (d.add f).number = f
  | .leaf _ _ _ => toFilter_eq (node?_place d _ (by simp [Node.parts]))
  | .all parts =>
      (toFilter_eq (node?_place _ (.all _) (d.addAll parts).present)).trans
        (congrArg Filter.all (toFilter_placed d parts (.all _) (d.addAll parts).present))
  | .any parts =>
      (toFilter_eq (node?_place _ (.any _) (d.addAll parts).present)).trans
        (congrArg Filter.any (toFilter_placed d parts (.any _) (d.addAll parts).present))

theorem toFilter_addAll (d : Dag) : ∀ fs : List Filter,
    (d.addAll fs).numbers.map (d.addAll fs).dag.toFilter = fs
  | [] => rfl
  | f :: rest => by
      have hfirst := toFilter_add d f
      have hrest := toFilter_addAll (d.add f).dag rest
      rw [← (addAll_extends (d.add f).dag rest).toFilter (d.add f).present] at hfirst
      exact congrArg₂ List.cons hfirst hrest

theorem toFilter_placed (d : Dag) (fs : List Filter) (node : Node)
    (h : ∀ c ∈ node.parts, c < (d.addAll fs).dag.size) :
    (d.addAll fs).numbers.map ((d.addAll fs).dag.place node h).dag.toFilter = fs := by
  rw [List.map_congr_left fun c hc =>
    (place_extends _ node h).toFilter ((d.addAll fs).present c hc)]
  exact toFilter_addAll d fs

end

end Adding

end Dag

section Keeping

variable {d e : Dag}

theorem Cache.Sound.lt_size {c : Cache} (h : c.Sound d) {i : Nat} (hi : i ∈ c.keys) :
    i < d.size := by
  obtain ⟨entry, hentry, rfl⟩ := List.mem_map.mp hi
  have hmatcher := h.faithful entry hentry
  by_contra hlt
  rw [Dag.matcherOf, if_neg hlt] at hmatcher
  cases hmatcher

-- What a cache keeps stays right in a larger graph.
theorem Cache.Sound.extend {c : Cache} (h : c.Sound d) (he : d.Extends e) : c.Sound e where
  faithful := fun entry hentry => by
    have hlt := h.lt_size (List.mem_map_of_mem hentry)
    rw [he.matcherOf hlt]
    exact h.faithful entry hentry
  closed := by
    intro i hi p hp
    refine h.closed i hi p ?_
    unfold Dag.IsPart at hp ⊢
    rwa [← he.partsOf (h.lt_size hi)]
  once := h.once
  apart := h.apart

namespace Workbench

theorem Sound.extend {w : Workbench} (h : w.Sound d) (he : d.Extends e) : w.Sound e :=
  ⟨h.cache.extend he, h.stamped⟩

theorem Sound.later {c : Cache} {stamp later : Nat} {made : List Nat} (h : Sound d ⟨c, stamp, made⟩)
    (hle : stamp ≤ later) : Sound d ⟨c, later, made⟩ :=
  ⟨h.cache, fun k hk => Nat.lt_of_lt_of_le (h.stamped k hk) hle⟩

end Workbench

end Keeping

end Tileboard
