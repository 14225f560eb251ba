import Tileboard.Proofs.Cache.Growth
import Tileboard.Proofs.Cache.Shelf
import Tileboard.Proofs.Tile.Filters
import Tileboard.Workspace

namespace Tileboard

namespace Work

variable {α β γ : Type} {w : Workspace}

section Laws

theorem bind_of_ok {x : Work α} {f : α → Work β} {after : Workspace} {notes : List Note} {a : α}
    (h : x w = (after, ⟨notes, .ok a⟩)) :
    (x >>= f) w = ((f a after).1, ⟨notes ++ (f a after).2.notes, (f a after).2.result⟩) := by
  change Work.bind x f w = _
  unfold Work.bind
  rw [h]

theorem bind_of_error {x : Work α} {f : α → Work β} {after : Workspace} {notes : List Note}
    {e : Fault} (h : x w = (after, ⟨notes, .error e⟩)) :
    (x >>= f) w = (after, ⟨notes, .error e⟩) := by
  change Work.bind x f w = _
  unfold Work.bind
  rw [h]

theorem id_map' (x : Work α) : id <$> x = x := by
  funext w
  change (x >>= fun a => pure a) w = x w
  rcases h : x w with ⟨after, notes, e | a⟩
  · rw [bind_of_error h]
  · rw [bind_of_ok h]
    exact congrArg (fun more => (after, (⟨more, .ok a⟩ : Traced α))) (List.append_nil notes)

theorem bind_assoc' (x : Work α) (f : α → Work β) (g : β → Work γ) :
    x >>= f >>= g = x >>= fun a => f a >>= g := by
  funext w
  rcases h : x w with ⟨after, notes, e | a⟩
  · rw [bind_of_error (bind_of_error h), bind_of_error h]
  · rw [bind_of_ok h]
    rcases h' : f a after with ⟨last, more, e | b⟩
    · have hboth : (x >>= f) w = (last, ⟨notes ++ more, .error e⟩) := by rw [bind_of_ok h, h']
      rw [bind_of_error hboth, bind_of_error h']
    · have hboth : (x >>= f) w = (last, ⟨notes ++ more, .ok b⟩) := by rw [bind_of_ok h, h']
      rw [bind_of_ok hboth, bind_of_ok h', List.append_assoc]

instance : LawfulMonad Work := .mk' Work id_map' (fun _ _ => rfl) bind_assoc'

end Laws

end Work

def Tile.Within (n : Nat) (t : Tile Nat) : Prop := ∃ s : Tile (Fin n), s.map Fin.val = t

theorem Tile.Within.mono {n m : Nat} {t : Tile Nat} (h : t.Within n) (hle : n ≤ m) :
    t.Within m := by
  obtain ⟨s, rfl⟩ := h
  exact ⟨s.map (Fin.castLE hle), Tile.map_map _ _ s⟩

namespace Workspace

-- The names of filters and tiles stand for nodes that are there, and each cache is sound.
structure Sound (w : Workspace) : Prop where
  filters : ∀ entry ∈ w.filters, entry.2 < w.dag.size
  tiles : ∀ entry ∈ w.tiles, entry.2.Within w.dag.size
  caches : ∀ entry ∈ w.caches, Workbench.Sound w.dag ⟨entry.2, w.stamp, []⟩

theorem empty_sound (d : Dag) (mode : Mode) (stamp : Nat) :
    Workbench.Sound d ⟨.empty mode, stamp, []⟩ :=
  ⟨Cache.empty_sound d mode, by simp [Cache.empty, Cache.stamps]⟩

theorem start_sound : start.Sound := by
  refine ⟨by simp [start], by simp [start], fun entry hentry => ?_⟩
  obtain rfl : entry = (defaultCache, .empty .permissive) := List.mem_singleton.mp hentry
  exact empty_sound _ _ _

section Entries

variable {α : Type} {entries : List (String × α)} {name : String} {a : α}

theorem forall_mem_putEntry {P : String × α → Prop} (ha : P (name, a))
    (h : ∀ entry ∈ entries, P entry) : ∀ entry ∈ putEntry entries name a, P entry := by
  induction entries with
  | nil => exact List.forall_mem_singleton.mpr ha
  | cons first rest ih =>
      obtain ⟨hfirst, hrest⟩ := List.forall_mem_cons.mp h
      unfold putEntry
      split
      · exact List.forall_mem_cons.mpr ⟨ha, hrest⟩
      · exact List.forall_mem_cons.mpr ⟨hfirst, ih hrest⟩

theorem lookup_putEntry (entries : List (String × α)) (name other : String) (a : α) :
    (putEntry entries name a).lookup other =
      if other = name then some a else entries.lookup other := by
  induction entries with
  | nil =>
      by_cases h : other = name
      · simp [putEntry, h]
      · simp [putEntry, h]
  | cons first rest ih =>
      obtain ⟨n, b⟩ := first
      unfold putEntry
      by_cases hn : n = name
      · subst hn
        by_cases h : other = n
        · simp [h]
        · simp [h, List.lookup_cons, beq_false_of_ne h]
      · by_cases h : other = n
        · simp [h, hn]
        · simp [hn, List.lookup_cons, beq_false_of_ne h, ih]

end Entries

section Changes

variable {w : Workspace}

-- More nodes and a later stamp do no harm.
theorem Sound.grow (h : w.Sound) {dag : Dag} {stamp : Nat} (hdag : w.dag.Extends dag)
    (hstamp : w.stamp ≤ stamp) : Sound { w with dag, stamp } where
  filters := fun entry hentry => Nat.lt_of_lt_of_le (h.filters entry hentry) hdag.size_le
  tiles := fun entry hentry => (h.tiles entry hentry).mono hdag.size_le
  caches := fun entry hentry => ((h.caches entry hentry).extend hdag).later hstamp

theorem Sound.putFilter (h : w.Sound) (name : String) {node : Nat} (hnode : node < w.dag.size) :
    Sound { w with filters := putEntry w.filters name node } :=
  ⟨forall_mem_putEntry hnode h.filters, h.tiles, h.caches⟩

theorem Sound.putTile (h : w.Sound) (name : String) {t : Tile Nat}
    (ht : t.Within w.dag.size) :
    Sound { w with tiles := putEntry w.tiles name t } :=
  ⟨h.filters, forall_mem_putEntry ht h.tiles, h.caches⟩

theorem Sound.putCache (h : w.Sound) (name : String) {c : Cache}
    (hc : Workbench.Sound w.dag ⟨c, w.stamp, []⟩) :
    Sound { w with caches := putEntry w.caches name c } :=
  ⟨h.filters, h.tiles, forall_mem_putEntry hc h.caches⟩

theorem Sound.putMatcher (h : w.Sound) (name : String) (r : Ready) :
    Sound { w with matchers := putEntry w.matchers name r } :=
  ⟨h.filters, h.tiles, h.caches⟩

theorem Sound.dropFilter (h : w.Sound) (name : String) :
    Sound { w with filters := dropEntry w.filters name } :=
  ⟨fun entry hentry => h.filters entry (List.mem_of_mem_filter hentry), h.tiles, h.caches⟩

theorem Sound.dropTile (h : w.Sound) (name : String) :
    Sound { w with tiles := dropEntry w.tiles name } :=
  ⟨h.filters, fun entry hentry => h.tiles entry (List.mem_of_mem_filter hentry), h.caches⟩

-- A cache that forgets nodes keeps the parts of those that it keeps, as what holds a node holds
-- its parts.
theorem Sound.collect (h : w.Sound) : w.collect.Sound := by
  refine ⟨h.filters, h.tiles, fun entry hentry => ?_⟩
  obtain ⟨kept, hkept, rfl⟩ := List.mem_map.mp hentry
  have hsound := h.caches kept hkept
  exact ⟨Cache.retain_sound hsound.cache fun i hi p hp => Dag.part_mem_held hi hp,
    fun k hk => hsound.stamped k ((Cache.retain_stamps _ _).subset hk)⟩

end Changes

end Workspace

namespace Work

-- From a workspace the work goes to a sound one in which the nodes are still there, and what it
-- answers is as wanted.
structure Ensures {α : Type} (w : Workspace) (x : Work α) (P : Workspace → α → Prop) : Prop where
  sound : (x w).1.Sound
  grown : w.dag.Extends (x w).1.dag
  answer : ∀ a, (x w).2.result = .ok a → P (x w).1 a

section Triples

variable {α β : Type} {w : Workspace} {P : Workspace → α → Prop} {Q : Workspace → β → Prop}

theorem Ensures.pure (hw : w.Sound) {a : α} (h : P w a) : Ensures w (Pure.pure a) P :=
  ⟨hw, .refl _, fun _ hb => Except.ok.inj hb ▸ h⟩

theorem Ensures.lift (hw : w.Sound) {x : Traced α} (h : ∀ a, x.result = .ok a → P w a) :
    Ensures w (Work.lift x) P := ⟨hw, .refl _, h⟩

-- Work that begins with what needs no workspace goes on in the same one.
theorem Ensures.after (hw : w.Sound) {x : Except Fault α} {f : α → Work β}
    (h : ∀ a, Ensures w (f a) Q) : Ensures w (liftM x >>= f) Q := by
  cases x with
  | error e => exact ⟨hw, .refl _, fun _ hb => by cases hb⟩
  | ok a => exact h a

theorem Ensures.fail (hw : w.Sound) (e : Fault) : Ensures w (Work.fail e : Work α) P :=
  ⟨hw, .refl _, fun _ ha => by cases ha⟩

-- So does work that begins with a look at it.
theorem Ensures.look {x : Work α} {a : α} {f : α → Work β} (hx : x w = (w, ⟨[], .ok a⟩))
    (h : Ensures w (f a) Q) : Ensures w (x >>= f) Q := by
  have hsame : (x >>= f) w = f a w := bind_of_ok hx
  exact ⟨hsame ▸ h.sound, hsame ▸ h.grown, hsame ▸ h.answer⟩

theorem Ensures.change {f : Workspace → Workspace} (hsound : (f w).Sound)
    (hgrown : w.dag.Extends (f w).dag) {P : Workspace → Unit → Prop} (h : P (f w) ()) :
    Ensures w (Work.change f) P := ⟨hsound, hgrown, fun _ _ => h⟩

theorem Ensures.bind {x : Work α} {f : α → Work β} (h : Ensures w x P)
    (hf : ∀ after a, after.Sound → w.dag.Extends after.dag → P after a → Ensures after (f a) Q) :
    Ensures w (x >>= f) Q := by
  obtain ⟨hsound, hgrown, hanswer⟩ := h
  rcases hx : x w with ⟨after, notes, e | a⟩
  · rw [hx] at hsound hgrown
    refine ⟨?_, ?_, fun b hb => ?_⟩
    · rw [bind_of_error hx]
      exact hsound
    · rw [bind_of_error hx]
      exact hgrown
    · rw [bind_of_error hx] at hb
      cases hb
  · rw [hx] at hsound hgrown hanswer
    have hnext := hf after a hsound hgrown (hanswer a rfl)
    refine ⟨?_, ?_, fun b hb => ?_⟩
    · rw [bind_of_ok hx]
      exact hnext.sound
    · rw [bind_of_ok hx]
      exact hgrown.trans hnext.grown
    · rw [bind_of_ok hx] at hb ⊢
      exact hnext.answer b hb

theorem Ensures.named (entries : Workspace → List (String × α)) (hw : w.Sound) {name : String}
    (h : ∀ a, (entries w).lookup name = some a → P w a) :
    Ensures w (do Work.named (entries (← Work.get)) name) P := by
  refine .look rfl ?_
  unfold Work.named
  cases hlookup : (entries w).lookup name with
  | some a => exact .pure hw (h a hlookup)
  | none => exact .fail hw _

theorem Ensures.discard {x : Work α} (h : Ensures w x P) :
    Ensures w (do let _ ← x) fun _ _ => True :=
  h.bind fun _ _ hnext _ _ => .pure hnext trivial

theorem Ensures.imp {R : Workspace → α → Prop} {x : Work α} (h : Ensures w x P)
    (himp : ∀ after a, P after a → R after a) : Ensures w x R :=
  ⟨h.sound, h.grown, fun a ha => himp _ a (h.answer a ha)⟩

-- Work on the items of a list, where more nodes do not spoil what is answered for an item.
theorem Ensures.mapM {f : α → Work β} {items : List α} (hw : w.Sound)
    (hQ : ∀ {before after : Workspace} {b}, before.dag.Extends after.dag → Q before b → Q after b)
    (hf : ∀ after, after.Sound → w.dag.Extends after.dag → ∀ a ∈ items, Ensures after (f a) Q) :
    Ensures w (items.mapM f) fun after bs => ∀ b ∈ bs, Q after b := by
  induction items generalizing w with
  | nil =>
      rw [List.mapM_nil]
      exact .pure hw (by simp)
  | cons a rest ih =>
      rw [List.mapM_cons]
      refine (hf w hw (.refl _) a List.mem_cons_self).bind fun next b hnext hgrown hb => ?_
      refine (ih hnext fun after hafter hlater c hc =>
        hf after hafter (hgrown.trans hlater) c (List.mem_cons_of_mem _ hc)).bind
          fun last bs hlast hlater hbs => ?_
      exact .pure hlast (List.forall_mem_cons.mpr ⟨hQ hlater hb, hbs⟩)

theorem Ensures.foldlM {f : β → α → Work β} {items : List α} (hw : w.Sound) {b : β} (hb : Q w b)
    (hf : ∀ after b a, after.Sound → w.dag.Extends after.dag → Q after b →
      Ensures after (f b a) Q) : Ensures w (items.foldlM f b) Q := by
  induction items generalizing w b with
  | nil => exact .pure hw hb
  | cons a rest ih =>
      rw [List.foldlM_cons]
      exact (hf w b a hw (.refl _) hb).bind fun next c hnext hgrown hc =>
        ih hnext hc fun after d e hafter hlater => hf after d e hafter (hgrown.trans hlater)

end Triples

end Work

end Tileboard
