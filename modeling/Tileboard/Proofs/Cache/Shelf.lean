import Mathlib
import Tileboard.Proofs.Cache.Making

namespace Tileboard

-- A cache for each mode, and what was made for it. They take their stamps from one count.
structure Shelf where
  cache : Mode → Cache
  stamp : Nat
  made : Mode → List Nat

-- What is done with the caches: the matcher of a node is asked for in a mode, a cache is
-- cleared, or all nodes go away that some roots do not hold.
inductive Operation where
  | get (mode : Mode) (node : Nat)
  | clear (mode : Mode)
  | collect (roots : List Nat)

namespace Operation

-- Whether a node keeps its entry in the cache of a mode.
def Keeps (d : Dag) (mode : Mode) (i : Nat) : Operation → Prop
  | .get _ _ => True
  | .clear cleared => cleared ≠ mode
  | .collect roots => i ∈ d.held roots

end Operation

namespace Shelf

def empty : Shelf := ⟨Cache.empty, 0, fun _ => []⟩

def bench (s : Shelf) (mode : Mode) : Workbench := ⟨s.cache mode, s.stamp, s.made mode⟩

def answer (d : Dag) (s : Shelf) (mode : Mode) (node : Nat) : Traced Ready :=
  (Workbench.get d (s.bench mode) node).2

def step (d : Dag) (s : Shelf) : Operation → Shelf
  | .get mode node =>
      let after := (Workbench.get d (s.bench mode) node).1
      ⟨Function.update s.cache mode after.cache, after.stamp, Function.update s.made mode after.made⟩
  | .clear mode => { s with cache := Function.update s.cache mode (s.cache mode).clear }
  | .collect roots => { s with cache := fun mode => (s.cache mode).retain (d.held roots) }

def run (d : Dag) (s : Shelf) (operations : List Operation) : Shelf := operations.foldl (step d) s

def copies (s : Shelf) (mode : Mode) (i : Nat) : Nat := (s.cache mode).keys.count i

-- How often the matcher of a node was made.
def makings (s : Shelf) (mode : Mode) (i : Nat) : Nat := (s.made mode).count i

-- Each cache is sound and of its mode, and no stamp is used in both.
structure Sound (d : Dag) (s : Shelf) : Prop where
  mode : ∀ mode, (s.cache mode).mode = mode
  bench : ∀ mode, (s.bench mode).Sound d
  apart : ∀ mode other, mode ≠ other → ∀ k ∈ (s.cache mode).stamps, k ∉ (s.cache other).stamps

end Shelf

namespace Cache

theorem empty_sound (d : Dag) (mode : Mode) : (empty mode).Sound d :=
  ⟨by simp [empty], by simp [empty, keys], by simp [empty, keys], by simp [empty, stamps]⟩

theorem retain_keys (c : Cache) (held : List Nat) :
    (c.retain held).keys = c.keys.filter held.contains := by
  unfold retain keys
  rw [List.filter_map]
  rfl

theorem retain_stamps (c : Cache) (held : List Nat) :
    (c.retain held).stamps.Sublist c.stamps :=
  List.Sublist.filterMap _ List.filter_sublist

theorem retain_sound {d : Dag} {c : Cache} {held : List Nat} (h : c.Sound d)
    (hheld : ∀ i ∈ held, ∀ p, d.IsPart p i → p ∈ held) : (c.retain held).Sound d where
  faithful := fun entry hentry => h.faithful entry (List.mem_of_mem_filter hentry)
  closed := by
    intro i hi p hp
    rw [retain_keys, List.mem_filter] at hi ⊢
    obtain ⟨hkey, hmem⟩ := hi
    have hpart : p ∈ held := hheld i (by simpa using hmem) p hp
    exact ⟨h.closed i hkey p hp, by simpa using hpart⟩
  once := by
    rw [retain_keys]
    exact h.once.filter _
  apart := (retain_stamps c held).nodup h.apart

end Cache

namespace Shelf

variable {d : Dag} {s : Shelf}

theorem empty_sound (d : Dag) : empty.Sound d where
  mode := fun _ => rfl
  bench := fun mode => ⟨Cache.empty_sound d mode, by simp [bench, empty, Cache.empty, Cache.stamps]⟩
  apart := by simp [empty, Cache.empty, Cache.stamps]

-- A cache is put in place of the one of its mode. Its new stamps have to be new to both.
theorem replace_sound {mode : Mode} {after : Workbench} {made : Mode → List Nat} (hs : s.Sound d)
    (hafter : after.Sound d) (hmode : after.cache.mode = mode) (hstamp : s.stamp ≤ after.stamp)
    (hfresh : ∀ k ∈ after.cache.stamps, k ∈ (s.cache mode).stamps ∨ s.stamp ≤ k) :
    Sound d ⟨Function.update s.cache mode after.cache, after.stamp, made⟩ where
  mode := by
    intro other
    by_cases heq : other = mode
    · subst heq
      simpa using hmode
    · simpa [heq] using hs.mode other
  bench := by
    intro other
    by_cases heq : other = mode
    · subst heq
      have hcache : Cache.Sound d after.cache := hafter.cache
      exact ⟨by simpa [bench] using hcache, by simpa [bench] using hafter.stamped⟩
    · have hother := hs.bench other
      refine ⟨by simpa [bench, heq] using hother.cache, ?_⟩
      intro k hk
      have hk : k ∈ (s.cache other).stamps := by simpa [bench, heq] using hk
      exact Nat.lt_of_lt_of_le (hother.stamped k hk) hstamp
  apart := by
    have hnew : ∀ other, other ≠ mode → ∀ k ∈ after.cache.stamps, k ∉ (s.cache other).stamps := by
      intro other hne k hk hmem
      rcases hfresh k hk with hold | hle
      · exact hs.apart mode other hne.symm k hold hmem
      · exact Nat.lt_irrefl _ (Nat.lt_of_lt_of_le ((hs.bench other).stamped k hmem) hle)
    intro one other hne k hk
    by_cases hone : one = mode
    · subst hone
      have hk : k ∈ after.cache.stamps := by simpa using hk
      simpa [hne.symm] using hnew other hne.symm k hk
    · have hold : k ∈ (s.cache one).stamps := by simpa [hone] using hk
      by_cases hother : other = mode
      · subst hother
        intro hmem
        exact hnew one hone k (by simpa using hmem) hold
      · simpa [hother] using hs.apart one other hne k hold

theorem step_sound (operation : Operation) (hs : s.Sound d) : (s.step d operation).Sound d := by
  cases operation with
  | get mode node =>
      have hanswered := Workbench.get_answered node (hs.bench mode)
      exact replace_sound hs hanswered.sound (hanswered.grown.mode.trans (hs.mode mode))
        hanswered.grown.stamp hanswered.grown.fresh
  | clear mode =>
      have hmode : (s.cache mode).clear = .empty mode := by rw [Cache.clear, hs.mode]
      have hempty : Workbench.Sound d ⟨.empty mode, s.stamp, []⟩ :=
        ⟨Cache.empty_sound d mode, by simp [Cache.empty, Cache.stamps]⟩
      change Sound d ⟨Function.update s.cache mode (s.cache mode).clear, s.stamp, s.made⟩
      rw [hmode]
      exact replace_sound hs hempty rfl (Nat.le_refl _) (by simp [Cache.empty, Cache.stamps])
  | collect roots =>
      refine ⟨hs.mode, fun mode => ⟨?_, ?_⟩, ?_⟩
      · exact Cache.retain_sound (hs.bench mode).cache fun i hi p hp => Dag.part_mem_held hi hp
      · exact fun k hk => (hs.bench mode).stamped k ((Cache.retain_stamps _ _).subset hk)
      · intro mode other hne k hk hmem
        exact hs.apart mode other hne k ((Cache.retain_stamps _ _).subset hk)
          ((Cache.retain_stamps _ _).subset hmem)

theorem run_sound (operations : List Operation) (hs : s.Sound d) : (s.run d operations).Sound d := by
  induction operations generalizing s with
  | nil => exact hs
  | cons operation rest ih => exact ih (step_sound operation hs)

-- What a cache answers does not depend on what was asked before.
theorem answer_eq (hs : s.Sound d) (mode : Mode) (node : Nat) :
    (s.answer d mode node).result.map (·.matcher) = d.matcherOf mode node := by
  have hresult := (Workbench.get_answered node (hs.bench mode)).result
  rwa [bench, hs.mode mode] at hresult

theorem contains_below (hs : s.Sound d) {mode : Mode} {i j : Nat} (hbelow : d.Below j i)
    (hi : (s.cache mode).contains i = true) : (s.cache mode).contains j = true := by
  rw [Cache.contains_iff] at hi ⊢
  have hclosed := (hs.bench mode).cache.closed
  induction hbelow with
  | single h => exact hclosed _ hi _ h
  | tail _ h ih => exact ih (hclosed _ hi _ h)

-- A stamp tells the entries of a cache apart.
theorem key_eq_of_stamp (hs : s.Sound d) {mode : Mode} {a b : Nat × Ready} {k : Nat}
    (ha : a ∈ (s.cache mode).entries) (hb : b ∈ (s.cache mode).entries)
    (hak : a.2.identity.stamp? = some k) (hbk : b.2.identity.stamp? = some k) : a = b := by
  have hapart : (s.cache mode).entries.Pairwise fun x y => ∀ k, x.2.identity.stamp? = some k →
      y.2.identity.stamp? = some k → x = y :=
    (List.pairwise_filterMap.mp (hs.bench mode).cache.apart).imp fun h k hx hy =>
      absurd rfl (h k hx k hy)
  have hflip := hapart.imp fun h k hy hx => (h k hx hy).symm
  exact hapart.forall_of_forall_of_flip (fun x _ k _ _ => rfl) hflip ha hb k hak hbk

theorem stamp_none_of_shared (hs : s.Sound d) {mode other : Mode} {a b : Nat × Ready}
    (ha : a ∈ (s.cache mode).entries) (hb : b ∈ (s.cache other).entries)
    (hne : (mode, a.1) ≠ (other, b.1)) (hshared : a.2.identity = b.2.identity) :
    a.2.identity.stamp? = none := by
  cases hstamp : a.2.identity.stamp? with
  | none => rfl
  | some k =>
      have hstampOther : b.2.identity.stamp? = some k := hshared ▸ hstamp
      exfalso
      by_cases hmode : mode = other
      · subst hmode
        exact hne (by rw [key_eq_of_stamp hs ha hb hstamp hstampOther])
      · exact hs.apart mode other hmode k (List.mem_filterMap.mpr ⟨a, ha, hstamp⟩)
          (List.mem_filterMap.mpr ⟨b, hb, hstampOther⟩)

-- Asking for a node gives entries to nothing but the node and what is below it.
theorem contains_step_get (hs : s.Sound d) {mode asked : Mode} {node j : Nat}
    (h : ((s.step d (.get asked node)).cache mode).contains j = true) :
    (s.cache mode).contains j = true ∨ mode = asked ∧ (j = node ∨ d.Below j node) := by
  simp only [Cache.contains_iff] at h ⊢
  by_cases hmode : mode = asked
  · subst hmode
    obtain ⟨new, hnew, -, hreach⟩ := (Workbench.get_answered node (hs.bench mode)).grown.entries
    have hkeys : j ∈ (new ++ (s.cache mode).entries).map (·.1) := by
      rw [← show _ = new ++ (s.cache mode).entries from hnew]
      simpa [step, Cache.keys] using h
    rw [List.map_append] at hkeys
    rcases List.mem_append.mp hkeys with hj | hj
    · obtain ⟨entry, hentry, rfl⟩ := List.mem_map.mp hj
      exact .inr ⟨rfl, hreach entry hentry⟩
    · exact .inl hj
  · left
    simpa [step, hmode] using h

-- Every matcher that is made of a node adds one to its entries.
theorem copies_step_get (hs : s.Sound d) (mode asked : Mode) (node i : Nat) :
    (s.step d (.get asked node)).copies mode i + s.makings mode i =
      s.copies mode i + (s.step d (.get asked node)).makings mode i := by
  by_cases hmode : mode = asked
  · subst hmode
    obtain ⟨new, hnew, hmade, -⟩ := (Workbench.get_answered node (hs.bench mode)).grown.entries
    have hkeys : ((s.step d (.get mode node)).cache mode).keys =
        new.map (·.1) ++ (s.cache mode).keys := by
      simp only [step, Function.update_self, Cache.keys]
      rw [hnew, List.map_append]
      rfl
    have hmade : (s.step d (.get mode node)).made mode = new.map (·.1) ++ s.made mode := by
      simp only [step, Function.update_self]
      exact hmade
    rw [copies, copies, makings, makings, hkeys, hmade, List.count_append, List.count_append]
    omega
  · simp [copies, makings, step, hmode]

-- So it stays while the node keeps its entry.
theorem copies_run {mode : Mode} {i : Nat} (operations : List Operation) (hs : s.Sound d)
    (hkeeps : ∀ operation ∈ operations, operation.Keeps d mode i) :
    (s.run d operations).copies mode i + s.makings mode i =
      s.copies mode i + (s.run d operations).makings mode i := by
  induction operations generalizing s with
  | nil => rfl
  | cons operation rest ih =>
      have hrest := ih (step_sound operation hs) fun o ho => hkeeps o (List.mem_cons_of_mem _ ho)
      have hstep : (s.step d operation).copies mode i + s.makings mode i =
          s.copies mode i + (s.step d operation).makings mode i := by
        cases operation with
        | get asked node => exact copies_step_get hs mode asked node i
        | clear cleared =>
            have hne : cleared ≠ mode := hkeeps (.clear cleared) List.mem_cons_self
            simp [copies, makings, step, hne.symm]
        | collect roots =>
            have hheld : i ∈ d.held roots := hkeeps (.collect roots) List.mem_cons_self
            simp only [copies, makings, step, Cache.retain_keys]
            rw [List.count_filter (by simpa using hheld)]
      change ((s.step d operation).run d rest).copies mode i + _ =
        _ + ((s.step d operation).run d rest).makings mode i
      omega

theorem makings_run {mode : Mode} {i : Nat} {operations : List Operation} (hs : s.Sound d)
    (hkeeps : ∀ operation ∈ operations, operation.Keeps d mode i) :
    (s.run d operations).makings mode i ≤ s.makings mode i + 1 := by
  have hcopies := copies_run operations hs hkeeps
  have honce := List.nodup_iff_count_le_one.mp
    ((run_sound operations hs).bench mode).cache.once i
  change (s.run d operations).copies mode i ≤ 1 at honce
  omega

theorem get_of_find? {mode : Mode} {node : Nat} {ready : Ready}
    (h : (s.cache mode).find? node = some ready) :
    Workbench.get d (s.bench mode) node = (s.bench mode, pure ready) := by
  have hfind : (s.bench mode).cache.find? node = some ready := h
  rw [Workbench.get, hfind]

-- What every course of use leaves the caches with.
structure Transparent (d : Dag) (s : Shelf) : Prop where
  -- A node is answered with the matcher, or the fault, that a fresh cache gives.
  answers : ∀ mode node, (s.answer d mode node).result.map (·.matcher) =
    (Workbench.get d ⟨.empty mode, 0, []⟩ node).2.result.map (·.matcher)
  closed : ∀ mode i j, d.Below j i → (s.cache mode).contains i = true →
    (s.cache mode).contains j = true
  -- Nodes have entries of their own, alike or not, and so do the modes. Only the two
  -- matchers that do not look at the row are found in more than one.
  single : ∀ mode, (s.cache mode).keys.Nodup
  own : ∀ mode other, ∀ a ∈ (s.cache mode).entries, ∀ b ∈ (s.cache other).entries,
    (mode, a.1) ≠ (other, b.1) → a.2.identity = b.2.identity →
      a.2.identity = .always ∨ a.2.identity = .never
  reach : ∀ mode asked node j, ((s.step d (.get asked node)).cache mode).contains j = true →
    (s.cache mode).contains j = true ∨ mode = asked ∧ (j = node ∨ d.Below j node)
  -- Whoever asks for a node that has an entry gets what is kept, and nothing is made.
  kept : ∀ mode node ready, (s.cache mode).find? node = some ready →
    Workbench.get d (s.bench mode) node = (s.bench mode, pure ready)
  once : ∀ mode i operations, (∀ operation ∈ operations, operation.Keeps d mode i) →
    (s.run d operations).makings mode i ≤ s.makings mode i + 1

theorem run_transparent (d : Dag) (operations : List Operation) :
    (empty.run d operations).Transparent d := by
  have hs : (empty.run d operations).Sound d := run_sound operations (empty_sound d)
  have hfresh : ∀ mode node, (Workbench.get d ⟨.empty mode, 0, []⟩ node).2.result.map (·.matcher) =
      d.matcherOf mode node := answer_eq (empty_sound d)
  exact {
    answers := fun mode node => (answer_eq hs mode node).trans (hfresh mode node).symm
    closed := fun mode i j hbelow hi => contains_below hs hbelow hi
    single := fun mode => (hs.bench mode).cache.once
    own := fun mode other a ha b hb hne hshared =>
      Identity.stamp?_eq_none_iff.mp (stamp_none_of_shared hs ha hb hne hshared)
    reach := fun mode asked node j h => contains_step_get hs h
    kept := fun mode node ready h => get_of_find? h
    once := fun mode i more hkeeps => makings_run hs hkeeps }

-- A node that is a part of two groups, and one that asks nothing.
def diamond : Dag where
  nodes := [.leaf (.text "status") (some (.equals false)) (.text "open"),
    .leaf (.text "status") none .null, .all [0, 0], .any [2, 1, 0]]
  ordered := by decide

-- A strict reading of the whole fails at that one; what was made before stays and is not made
-- again.
theorem diamond_transparent :
    ((empty.run diamond [.get .permissive 3, .get .strict 3, .collect [2], .clear .permissive]).cache
      .strict).keys = [2, 0] ∧
    ((empty.run diamond [.get .strict 3]).answer diamond .permissive 3).result.map (·.matcher) =
      (Workbench.get diamond ⟨.empty .permissive, 0, []⟩ 3).2.result.map (·.matcher) ∧
    (empty.run diamond [.get .permissive 3, .get .strict 3, .collect [2], .get .strict 2]).made
      .strict = [2, 0] ∧
    ((empty.run diamond [.get .permissive 3]).run diamond
      [.get .strict 3, .collect [2], .get .strict 2]).makings .strict 0 ≤ 1 := by
  refine ⟨by cbv, (run_transparent diamond [.get .strict 3]).answers _ _, by cbv, ?_⟩
  refine (run_transparent diamond [.get .permissive 3]).once _ _ _ ?_
  intro operation hoperation
  simp only [List.mem_cons, List.not_mem_nil, or_false] at hoperation
  rcases hoperation with rfl | rfl | rfl
  · trivial
  · change 0 ∈ diamond.held [2]
    decide
  · trivial

end Shelf

end Tileboard
