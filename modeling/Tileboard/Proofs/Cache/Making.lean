import Tileboard.Filter.Cache
import Tileboard.Proofs.Cache.Held
import Tileboard.Proofs.Computation

namespace Tileboard

namespace Identity

def stamp? : Identity → Option Nat
  | .made stamp => some stamp
  | _ => none

theorem stamp?_eq_none_iff {identity : Identity} :
    identity.stamp? = none ↔ identity = .always ∨ identity = .never := by
  cases identity <;> simp [stamp?]

end Identity

namespace Cache

def keys (c : Cache) : List Nat := c.entries.map (·.1)

def stamps (c : Cache) : List Nat := c.entries.filterMap fun entry => entry.2.identity.stamp?

theorem stamps_cons (mode : Mode) (node : Nat) (ready : Ready) (entries : List (Nat × Ready)) :
    stamps ⟨mode, (node, ready) :: entries⟩ =
      ready.identity.stamp?.toList ++ stamps ⟨mode, entries⟩ := by
  cases h : ready.identity.stamp? <;> simp [stamps, h]

theorem find?_eq_none_iff {c : Cache} {node : Nat} : c.find? node = none ↔ node ∉ c.keys := by
  unfold find? keys
  rw [List.lookup_eq_none_iff]
  constructor
  · intro h hmem
    obtain ⟨entry, he, rfl⟩ := List.mem_map.mp hmem
    simpa using h entry he
  · intro h entry he
    rw [bne_iff_ne]
    rintro rfl
    exact h (List.mem_map_of_mem he)

theorem mem_of_find? {c : Cache} {node : Nat} {ready : Ready} (h : c.find? node = some ready) :
    (node, ready) ∈ c.entries := by
  obtain ⟨before, after, hsplit, -⟩ := List.lookup_eq_some_iff.mp h
  rw [hsplit]
  simp

theorem contains_iff {c : Cache} {node : Nat} : c.contains node = true ↔ node ∈ c.keys := by
  unfold contains
  rw [Option.isSome_iff_ne_none, Ne, find?_eq_none_iff, not_not]

end Cache

namespace Dag

def matcherOf (d : Dag) (mode : Mode) (node : Nat) : Except Fault Matcher :=
  if node < d.size then (Matcher.ofFilter mode (d.toFilter node)).result
  else .error .noSuchName

theorem matcherOf_of_lt {d : Dag} {mode : Mode} {node : Nat} (h : node < d.size) :
    d.matcherOf mode node = (Matcher.ofFilter mode (d.toFilter node)).result := if_pos h

theorem ofFilters_toFilters {d : Dag} {mode : Mode} {i : Nat} {parts : List Nat}
    (hi : i < d.size) (h : ∀ c ∈ parts, c < i) :
    (Matcher.ofFilters mode (d.toFilters i parts h)).result = parts.mapM (d.matcherOf mode) := by
  induction parts with
  | nil =>
      rw [toFilters]
      rfl
  | cons c rest ih =>
      have hc : c < d.size := Nat.lt_trans (h c (by simp)) hi
      rw [toFilters, Matcher.ofFilters, List.mapM_cons, matcherOf_of_lt hc, Traced.result_bind]
      congr 1
      funext first
      rw [Traced.result_bind, ih]
      rfl

theorem matcherOf_leaf {d : Dag} {mode : Mode} {i : Nat} {column operand : Value}
    {operator : Option Operator} {h : ∀ c ∈ (Node.leaf column operator operand).parts, c < i}
    (hnode : d.node? i = some ⟨.leaf column operator operand, h⟩) :
    d.matcherOf mode i = (Matcher.ofLeaf mode column operator operand).result := by
  rw [matcherOf_of_lt (node?_eq_some hnode).1, toFilter]
  simp only [hnode, Matcher.ofFilter]

theorem matcherOf_all {d : Dag} {mode : Mode} {i : Nat} {parts : List Nat}
    {h : ∀ c ∈ (Node.all parts).parts, c < i} (hnode : d.node? i = some ⟨.all parts, h⟩) :
    d.matcherOf mode i = (parts.mapM (d.matcherOf mode)).map .all := by
  have hi := (node?_eq_some hnode).1
  have hparts : (Matcher.ofFilters mode (d.toFilters i parts h)).result =
      parts.mapM (d.matcherOf mode) := ofFilters_toFilters hi h
  rw [matcherOf_of_lt hi, ← hparts, toFilter]
  simp only [hnode, Matcher.ofFilter]
  rw [Traced.result_bind]
  rfl

theorem matcherOf_any {d : Dag} {mode : Mode} {i : Nat} {parts : List Nat}
    {h : ∀ c ∈ (Node.any parts).parts, c < i} (hnode : d.node? i = some ⟨.any parts, h⟩) :
    d.matcherOf mode i = (parts.mapM (d.matcherOf mode)).map .any := by
  have hi := (node?_eq_some hnode).1
  have hparts : (Matcher.ofFilters mode (d.toFilters i parts h)).result =
      parts.mapM (d.matcherOf mode) := ofFilters_toFilters hi h
  rw [matcherOf_of_lt hi, ← hparts, toFilter]
  simp only [hnode, Matcher.ofFilter]
  rw [Traced.result_bind]
  rfl

end Dag

-- Each node has one entry, which holds its matcher, and its parts have one too.
structure Cache.Sound (d : Dag) (c : Cache) : Prop where
  faithful : ∀ entry ∈ c.entries, d.matcherOf c.mode entry.1 = .ok entry.2.matcher
  closed : ∀ i ∈ c.keys, ∀ p, d.IsPart p i → p ∈ c.keys
  once : c.keys.Nodup
  apart : c.stamps.Nodup

-- An entry is put in for a node that has none, under a stamp that no other entry has.
theorem Cache.Sound.insert {d : Dag} {c : Cache} {node : Nat} {ready : Ready} (hc : c.Sound d)
    (hnode : node ∉ c.keys) (hparts : ∀ p, d.IsPart p node → p ∈ c.keys)
    (hmatcher : d.matcherOf c.mode node = .ok ready.matcher)
    (hstamp : ∀ k, ready.identity.stamp? = some k → k ∉ c.stamps) :
    Cache.Sound d ⟨c.mode, (node, ready) :: c.entries⟩ where
  faithful := List.forall_mem_cons.mpr ⟨hmatcher, hc.faithful⟩
  closed := by
    have hclosed : ∀ i ∈ node :: c.keys, ∀ p, d.IsPart p i → p ∈ node :: c.keys := by
      intro i hi p hp
      rcases List.mem_cons.mp hi with rfl | hi
      · exact List.mem_cons_of_mem _ (hparts p hp)
      · exact List.mem_cons_of_mem _ (hc.closed i hi p hp)
    exact hclosed
  once := List.nodup_cons.mpr ⟨hnode, hc.once⟩
  apart := by
    rw [Cache.stamps_cons]
    cases hnew : ready.identity.stamp? with
    | none => exact hc.apart
    | some k => exact List.nodup_cons.mpr ⟨hstamp k hnew, hc.apart⟩

namespace Workbench

structure Sound (d : Dag) (w : Workbench) : Prop where
  cache : w.cache.Sound d
  stamped : ∀ k ∈ w.cache.stamps, k < w.stamp

-- From one workbench to a later one: new entries stand before those that were there, one for each
-- matcher that was made, all of them for nodes in reach and under new stamps.
structure Grown (reach : Nat → Prop) (w after : Workbench) : Prop where
  mode : after.cache.mode = w.cache.mode
  entries : ∃ new, after.cache.entries = new ++ w.cache.entries ∧
    after.made = new.map (·.1) ++ w.made ∧ ∀ entry ∈ new, reach entry.1
  stamp : w.stamp ≤ after.stamp
  fresh : ∀ k ∈ after.cache.stamps, k ∈ w.cache.stamps ∨ w.stamp ≤ k

theorem Grown.refl (reach : Nat → Prop) (w : Workbench) : Grown reach w w :=
  ⟨rfl, ⟨[], rfl, rfl, by simp⟩, Nat.le_refl _, fun _ h => .inl h⟩

theorem Grown.trans {reach : Nat → Prop} {w next after : Workbench} (h : Grown reach w next)
    (h' : Grown reach next after) : Grown reach w after := by
  obtain ⟨new, hnew, hmade, hreach⟩ := h.entries
  obtain ⟨new', hnew', hmade', hreach'⟩ := h'.entries
  refine ⟨h'.mode.trans h.mode, ⟨new' ++ new, ?_, ?_, ?_⟩, Nat.le_trans h.stamp h'.stamp, ?_⟩
  · rw [hnew', hnew, List.append_assoc]
  · rw [hmade', hmade, List.map_append, List.append_assoc]
  · intro entry hentry
    exact (List.mem_append.mp hentry).elim (hreach' entry) (hreach entry)
  · intro k hk
    rcases h'.fresh k hk with hk | hk
    · exact h.fresh k hk
    · exact .inr (Nat.le_trans h.stamp hk)

theorem Grown.imp {reach more : Nat → Prop} {w after : Workbench} (h : Grown reach w after)
    (himp : ∀ i, reach i → more i) : Grown more w after := by
  obtain ⟨new, hnew, hmade, hreach⟩ := h.entries
  exact ⟨h.mode, ⟨new, hnew, hmade, fun entry hentry => himp _ (hreach entry hentry)⟩, h.stamp,
    h.fresh⟩

theorem Grown.keys_subset {reach : Nat → Prop} {w after : Workbench} (h : Grown reach w after) :
    w.cache.keys ⊆ after.cache.keys := by
  obtain ⟨new, hnew, -⟩ := h.entries
  unfold Cache.keys
  rw [hnew, List.map_append]
  exact List.subset_append_right _ _

theorem finish_eq (w : Workbench) (node : Nat) (matcher : Matcher) :
    ∃ identity stamp, w.finish node matcher =
        (⟨⟨w.cache.mode, (node, ⟨identity, matcher⟩) :: w.cache.entries⟩, stamp, node :: w.made⟩,
          ⟨identity, matcher⟩) ∧
      w.stamp ≤ stamp ∧ ∀ k, identity.stamp? = some k → k = w.stamp ∧ k < stamp := by
  cases matcher with
  | always => exact ⟨.always, w.stamp, rfl, Nat.le_refl _, fun k h => by cases h⟩
  | never => exact ⟨.never, w.stamp, rfl, Nat.le_refl _, fun k h => by cases h⟩
  | _ =>
      refine ⟨.made w.stamp, w.stamp + 1, rfl, Nat.le_succ _, fun k h => ?_⟩
      cases h
      exact ⟨rfl, Nat.lt_succ_self _⟩

theorem finish_sound {d : Dag} {w : Workbench} {node : Nat} {matcher : Matcher} (hw : w.Sound d)
    (hnode : node ∉ w.cache.keys) (hparts : ∀ p, d.IsPart p node → p ∈ w.cache.keys)
    (hmatcher : d.matcherOf w.cache.mode node = .ok matcher) :
    (w.finish node matcher).1.Sound d ∧ Grown (· = node) w (w.finish node matcher).1 ∧
      (w.finish node matcher).2.matcher = matcher ∧
      (node, (w.finish node matcher).2) ∈ (w.finish node matcher).1.cache.entries := by
  obtain ⟨identity, stamp, hfinish, hle, hidentity⟩ := finish_eq w node matcher
  have hmem : ∀ k ∈ Cache.stamps ⟨w.cache.mode, (node, ⟨identity, matcher⟩) :: w.cache.entries⟩,
      k = w.stamp ∧ k < stamp ∨ k ∈ w.cache.stamps := by
    intro k hk
    rw [Cache.stamps_cons] at hk
    exact (List.mem_append.mp hk).imp_left fun hk => hidentity k (Option.mem_toList.mp hk)
  have hnew : ∀ k, identity.stamp? = some k → k ∉ w.cache.stamps := fun k hk hold =>
    Nat.lt_irrefl _ ((hidentity k hk).1 ▸ hw.stamped k hold)
  rw [hfinish]
  refine ⟨⟨hw.cache.insert hnode hparts hmatcher hnew, ?_⟩,
    ⟨rfl, ⟨[(node, ⟨identity, matcher⟩)], rfl, rfl, by simp⟩, hle, ?_⟩, rfl, List.mem_cons_self⟩
  · intro k hk
    rcases hmem k hk with ⟨-, hlt⟩ | hold
    · exact hlt
    · exact Nat.lt_of_lt_of_le (hw.stamped k hold) hle
  · intro k hk
    exact (hmem k hk).symm.imp_right fun h => Nat.le_of_eq h.1.symm

-- A node is asked for: the answer is what its matcher has to be. An answer that is no
-- fault is kept.
structure Answered (d : Dag) (w : Workbench) (node : Nat) (after : Workbench)
    (answer : Traced Ready) : Prop where
  sound : after.Sound d
  grown : Grown (fun i => i = node ∨ d.Below i node) w after
  result : answer.result.map (·.matcher) = d.matcherOf w.cache.mode node
  kept : ∀ ready, answer.result = .ok ready → (node, ready) ∈ after.cache.entries

-- The same for nodes that are parts of another.
structure AllAnswered (d : Dag) (w : Workbench) (node : Nat) (parts : List Nat) (after : Workbench)
    (answer : Traced (List Matcher)) : Prop where
  sound : after.Sound d
  grown : Grown (d.Below · node) w after
  result : answer.result = parts.mapM (d.matcherOf w.cache.mode)
  kept : ∀ matchers, answer.result = .ok matchers → ∀ p ∈ parts, p ∈ after.cache.keys

theorem conclude_answered {d : Dag} {w : Workbench} {node : Nat} {made : Traced Matcher}
    (hw : w.Sound d) (hnode : node ∉ w.cache.keys)
    (hparts : ∀ matcher, made.result = .ok matcher → ∀ p, d.IsPart p node → p ∈ w.cache.keys)
    (hmade : made.result = d.matcherOf w.cache.mode node) :
    Answered d w node (w.conclude node made).1 (w.conclude node made).2 := by
  unfold conclude
  cases hresult : made.result with
  | error fault =>
      refine ⟨hw, .refl _ w, ?_, fun ready h => by cases h⟩
      rw [← hmade, hresult]
      rfl
  | ok matcher =>
      rw [hresult] at hmade
      obtain ⟨hsound, hgrown, hready, hkept⟩ :=
        finish_sound hw hnode (hparts matcher hresult) hmade.symm
      refine ⟨hsound, hgrown.imp fun _ h => .inl h, ?_, ?_⟩
      · rw [← hmade]
        exact congrArg Except.ok hready
      · intro ready h
        cases h
        exact hkept

section Parts

variable {d : Dag} {w next after : Workbench} {node c : Nat} {rest : List Nat} {first : Traced Ready}

theorem Answered.grown_below (h : Answered d w c next first) (hc : d.IsPart c node) :
    Grown (d.Below · node) w next := by
  refine h.grown.imp fun i hi => ?_
  rcases hi with rfl | hi
  · exact .single hc
  · exact .tail hi hc

theorem AllAnswered.of_error {fault : Fault} (hc : d.IsPart c node)
    (hfirst : Answered d w c next first) (hanswer : first.result = .error fault) :
    AllAnswered d w node (c :: rest) next ⟨first.notes, .error fault⟩ := by
  refine ⟨hfirst.sound, hfirst.grown_below hc, ?_, fun _ h => by cases h⟩
  rw [List.mapM_cons, ← hfirst.result, hanswer]
  rfl

theorem AllAnswered.cons {ready : Ready} {others : Traced (List Matcher)} (hc : d.IsPart c node)
    (hfirst : Answered d w c next first) (hanswer : first.result = .ok ready)
    (hrest : AllAnswered d next node rest after others) :
    AllAnswered d w node (c :: rest) after
      ⟨first.notes ++ others.notes, others.result.map (ready.matcher :: ·)⟩ := by
  refine ⟨hrest.sound, (hfirst.grown_below hc).trans hrest.grown, ?_, ?_⟩
  · rw [List.mapM_cons, ← hfirst.result, hanswer, ← hfirst.grown.mode, ← hrest.result]
    dsimp only
    cases others.result <;> rfl
  · intro matchers hmatchers p hp
    have hkept : c ∈ next.cache.keys := List.mem_map_of_mem (hfirst.kept ready hanswer)
    cases hlast : others.result with
    | error fault => simp [hlast, Except.map] at hmatchers
    | ok more =>
        rcases List.mem_cons.mp hp with rfl | hp
        · exact hrest.grown.keys_subset hkept
        · exact hrest.kept more hlast p hp

end Parts

theorem getAll_answered {d : Dag} {node : Nat} (hget : ∀ c, c < node → ∀ w : Workbench, w.Sound d →
      Answered d w c (get d w c).1 (get d w c).2)
    (parts : List Nat) (h : ∀ c ∈ parts, c < node) (hparts : ∀ c ∈ parts, d.IsPart c node)
    (w : Workbench) (hw : w.Sound d) :
    AllAnswered d w node parts (getAll d w node parts h).1 (getAll d w node parts h).2 := by
  induction parts generalizing w with
  | nil =>
      rw [getAll]
      exact ⟨hw, .refl _ w, rfl, by simp⟩
  | cons c rest ih =>
      have hc : d.IsPart c node := hparts c (by simp)
      have hfirst := hget c (h c (by simp)) w hw
      rw [getAll]
      cases hstep : get d w c with
      | mk next first =>
          rw [hstep] at hfirst
          dsimp only at hfirst ⊢
          cases hanswer : first.result with
          | error fault => exact .of_error hc hfirst hanswer
          | ok ready =>
              exact .cons hc hfirst hanswer
                (ih (fun x hx => h x (by simp [hx])) (fun x hx => hparts x (by simp [hx])) next
                  hfirst.sound)

theorem conclude_group {d : Dag} {w next : Workbench} {node : Nat} {parts : List Nat}
    {made : Traced (List Matcher)} {group : List Matcher → Matcher}
    (hnode : node ∉ w.cache.keys) (hparts : d.partsOf node = parts)
    (hmade : AllAnswered d w node parts next made)
    (hgroup : d.matcherOf w.cache.mode node =
      (parts.mapM (d.matcherOf w.cache.mode)).map group) :
    Answered d w node (next.conclude node (group <$> made)).1
      (next.conclude node (group <$> made)).2 := by
  have hresult : (group <$> made).result = made.result.map group := by
    rw [map_eq_pure_bind, Traced.result_bind]
    cases made.result <;> rfl
  have hfree : node ∉ next.cache.keys := by
    obtain ⟨new, hnew, -, hbelow⟩ := hmade.grown.entries
    intro hmem
    unfold Cache.keys at hmem
    rw [hnew, List.map_append] at hmem
    rcases List.mem_append.mp hmem with hmem | hmem
    · obtain ⟨entry, hentry, heq⟩ := List.mem_map.mp hmem
      have hlt := Dag.lt_of_below (hbelow entry hentry)
      omega
    · exact hnode hmem
  have hpresent : ∀ matcher, (group <$> made).result = .ok matcher →
      ∀ p, d.IsPart p node → p ∈ next.cache.keys := by
    intro matcher hmatcher p hp
    rw [hresult] at hmatcher
    cases hms : made.result with
    | error fault => simp [hms, Except.map] at hmatcher
    | ok ms => exact hmade.kept ms hms p (hparts ▸ hp)
  have hwanted : (group <$> made).result = d.matcherOf next.cache.mode node := by
    rw [hresult, hmade.result, hmade.grown.mode, hgroup]
  obtain ⟨hsound, hgrown, hanswer, hkept⟩ :=
    conclude_answered hmade.sound hfree hpresent hwanted
  refine ⟨hsound, (hmade.grown.imp fun _ h => .inr h).trans hgrown, ?_, hkept⟩
  rw [hanswer, hmade.grown.mode]

-- Induction on the number of the node: its parts come before it.
theorem get_answered {d : Dag} {w : Workbench} (node : Nat) (hw : w.Sound d) :
    Answered d w node (get d w node).1 (get d w node).2 := by
  induction node using Nat.strongRecOn generalizing w with
  | ind node ih =>
      rw [get]
      cases hfind : w.cache.find? node with
      | some ready =>
          have hmem := Cache.mem_of_find? hfind
          refine ⟨hw, .refl _ w, (hw.cache.faithful _ hmem).symm, ?_⟩
          intro answer hanswer
          cases hanswer
          exact hmem
      | none =>
          have hfree := Cache.find?_eq_none_iff.mp hfind
          dsimp only
          have hget : ∀ c, c < node → ∀ w : Workbench, w.Sound d →
              Answered d w c (get d w c).1 (get d w c).2 := fun c hc w hw => ih c hc hw
          split
          · rename_i hnode
            refine ⟨hw, .refl _ w, ?_, fun ready h => by cases h⟩
            rw [Dag.matcherOf, if_neg (Dag.not_lt_of_node? hnode)]
            rfl
          · rename_i column operator operand hparts hnode
            have hnone := (Dag.node?_eq_some hnode).2
            refine conclude_answered hw hfree ?_ (Dag.matcherOf_leaf hnode).symm
            intro matcher _ p hp
            unfold Dag.IsPart at hp
            rw [hnone] at hp
            cases hp
          · rename_i parts hparts hnode
            have hpartsOf := (Dag.node?_eq_some hnode).2
            exact conclude_group hfree hpartsOf
              (getAll_answered hget parts hparts (Dag.isPart_of_node? hnode) w hw)
              (Dag.matcherOf_all hnode)
          · rename_i parts hparts hnode
            have hpartsOf := (Dag.node?_eq_some hnode).2
            exact conclude_group hfree hpartsOf
              (getAll_answered hget parts hparts (Dag.isPart_of_node? hnode) w hw)
              (Dag.matcherOf_any hnode)

end Workbench

end Tileboard
