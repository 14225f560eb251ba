import Tileboard.Proofs.Filter.Passing
import Tileboard.Proofs.Workspace.Soundness

namespace Tileboard

namespace Workspace

def HasCache (w : Workspace) (name : String) (mode : Mode) : Prop :=
  ∃ c, w.caches.lookup name = some c ∧ c.mode = mode

-- From a workspace to a later one: nodes are only added, and caches keep their modes.
structure Grows (w after : Workspace) : Prop where
  dag : w.dag.Extends after.dag
  caches : ∀ name mode, w.HasCache name mode → after.HasCache name mode

theorem Grows.refl (w : Workspace) : w.Grows w := ⟨.refl _, fun _ _ h => h⟩

theorem Grows.trans {w next after : Workspace} (h : w.Grows next) (h' : next.Grows after) :
    w.Grows after :=
  ⟨h.dag.trans h'.dag, fun name mode hcache => h'.caches name mode (h.caches name mode hcache)⟩

end Workspace

namespace Work

-- From a workspace the work goes to a sound one that has grown, and it comes to what a computation
-- comes to: to the same fault, or to related results.
structure ComesTo {α β : Type} (w : Workspace) (x : Work α) (y : Except Fault β)
    (R : Workspace → α → β → Prop) : Prop where
  sound : (x w).1.Sound
  grown : w.Grows (x w).1
  alike : SameUpTo (R (x w).1) (x w).2.result y

section Steps

variable {α β γ δ : Type} {w : Workspace} {R : Workspace → α → β → Prop}
  {S : Workspace → γ → δ → Prop}

theorem ComesTo.pure (hw : w.Sound) {a : α} {b : β} (h : R w a b) :
    ComesTo w (Pure.pure a) (.ok b) R := ⟨hw, .refl w, .ok h⟩

-- What needs no workspace comes to what it comes to anyway.
theorem ComesTo.lift (hw : w.Sound) (x : Traced α) : ComesTo w (Work.lift x) x.result fun _ => Eq :=
  ⟨hw, .refl w, .refl x.result⟩

theorem ComesTo.except {P : α → β → Prop} (hw : w.Sound) {x : Except Fault α}
    {y : Except Fault β} (h : SameUpTo P x y) : ComesTo w (liftM x) y fun _ => P :=
  ⟨hw, .refl w, h⟩

theorem ComesTo.bind {x : Work α} {y : Except Fault β} {f : α → Work γ} {g : β → Except Fault δ}
    (h : ComesTo w x y R) (hfg : ∀ after a b, after.Sound → w.Grows after → R after a b →
      ComesTo after (f a) (g b) S) : ComesTo w (x >>= f) (y >>= g) S := by
  obtain ⟨hsound, hgrown, halike⟩ := h
  rcases hx : x w with ⟨after, notes, e | a⟩
  · rw [hx] at hsound hgrown halike
    cases halike
    exact ⟨bind_of_error hx ▸ hsound, bind_of_error hx ▸ hgrown, bind_of_error hx ▸ .error e⟩
  · rw [hx] at hsound hgrown halike
    cases halike with
    | @ok _ b hab =>
        obtain ⟨hlast, hlater, hsame⟩ := hfg after a b hsound hgrown hab
        exact ⟨bind_of_ok hx ▸ hlast, bind_of_ok hx ▸ hgrown.trans hlater, bind_of_ok hx ▸ hsame⟩

-- Work that begins with what needs no workspace goes on in the same one.
theorem ComesTo.after {x : Except Fault α} {f : α → Work γ} {g : α → Except Fault δ}
    (hw : w.Sound) (h : ∀ a, ComesTo w (f a) (g a) S) :
    ComesTo w (liftM x >>= f) (x >>= g) S := by
  cases x with
  | error e => exact ⟨hw, .refl w, .error e⟩
  | ok a => exact h a

-- So does work that begins with a look at it.
theorem ComesTo.look {x : Work α} {a : α} {f : α → Work γ} {y : Except Fault δ}
    (hx : x w = (w, ⟨[], .ok a⟩)) (h : ComesTo w (f a) y S) : ComesTo w (x >>= f) y S := by
  have hsame : (x >>= f) w = f a w := bind_of_ok hx
  exact ⟨hsame ▸ h.sound, hsame ▸ h.grown, hsame ▸ h.alike⟩

theorem mapM_look {f : α → Work β} {xs : List α} {ys : List β}
    (h : List.Forall₂ (fun a b => f a w = (w, ⟨[], .ok b⟩)) xs ys) :
    xs.mapM f w = (w, ⟨[], .ok ys⟩) := by
  induction h with
  | nil => rfl
  | @cons a b xs ys hab _ ih =>
      rw [List.mapM_cons, bind_of_ok hab, bind_of_ok ih]
      rfl

theorem named_look (entries : Workspace → List (String × α)) {name : String} {a : α}
    (h : (entries w).lookup name = some a) :
    (do Work.named (entries (← Work.get)) name : Work α) w = (w, ⟨[], .ok a⟩) := by
  have hget : Work.get w = (w, ⟨[], .ok w⟩) := rfl
  rw [bind_of_ok hget]
  unfold Work.named
  rw [h]
  rfl

theorem ComesTo.map {x : Work α} {y : Except Fault β} {f : α → γ} {g : β → δ}
    (h : ComesTo w x y R) (hfg : ∀ after a b, R after a b → S after (f a) (g b)) :
    ComesTo w (f <$> x) (g <$> y) S := by
  rw [map_eq_pure_bind, map_eq_pure_bind]
  exact h.bind fun after a b hafter _ hab => .pure hafter (hfg after a b hab)

theorem ComesTo.option {f : α → Work γ} {g : α → Except Fault δ} (hw : w.Sound)
    (h : ∀ a, ComesTo w (f a) (g a) S) : ∀ o : Option α,
      ComesTo w (o.mapM f) (o.mapM g) fun after => Option.Rel (S after)
  | none => .pure hw .none
  | some a => (h a).map fun _ _ _ => .some

theorem ComesTo.imp {x : Work α} {y : Except Fault β} {R' : Workspace → α → β → Prop}
    (h : ComesTo w x y R) (himp : ∀ after a b, w.Grows after → R after a b → R' after a b) :
    ComesTo w x y R' :=
  ⟨h.sound, h.grown, h.alike.imp fun a b hab => himp _ a b h.grown hab⟩

-- The steps of two lists in a relation, where growth does not spoil what was related before.
theorem ComesTo.mapM {f : α → Work γ} {g : β → Except Fault δ} {P : α → β → Prop} {xs : List α}
    {ys : List β} (hw : w.Sound) (h : List.Forall₂ P xs ys)
    (hS : ∀ {before after : Workspace} {c d}, before.Grows after → S before c d → S after c d)
    (hfg : ∀ after, after.Sound → w.Grows after → ∀ a b, P a b → ComesTo after (f a) (g b) S) :
    ComesTo w (xs.mapM f) (ys.mapM g) fun after => List.Forall₂ (S after) := by
  induction h generalizing w with
  | nil =>
      simp only [List.mapM_nil]
      exact .pure hw .nil
  | @cons a b _ _ hab _ ih =>
      simp only [List.mapM_cons]
      refine (hfg w hw (.refl w) a b hab).bind fun next c d hnext hgrown hcd => ?_
      refine (ih hnext fun after hafter hlater => hfg after hafter (hgrown.trans hlater)).bind
        fun last cs ds hlast hlater hall => ?_
      exact .pure hlast (.cons (hS hlater hcd) hall)

theorem ComesTo.mapM_eq {f : α → Work γ} {g : β → Except Fault γ} {P : α → β → Prop} {xs : List α}
    {ys : List β} (hw : w.Sound) (h : List.Forall₂ P xs ys)
    (hfg : ∀ after, after.Sound → w.Grows after → ∀ a b, P a b →
      ComesTo after (f a) (g b) fun _ => Eq) :
    ComesTo w (xs.mapM f) (ys.mapM g) fun _ => Eq :=
  (ComesTo.mapM (S := fun _ => Eq) hw h (fun _ heq => heq) hfg).imp fun _ cs ds _ hall => by
    rwa [List.forall₂_eq_eq_eq] at hall

theorem ComesTo.result_eq {x : Work α} {y : Except Fault α} (h : ComesTo w x y fun _ => Eq) :
    (x w).2.result = y := h.alike.eq

theorem ComesTo.ensures {x : Work α} {y : Except Fault β} {P : Workspace → α → Prop}
    (h : ComesTo w x y R) (hP : ∀ after a b, w.Grows after → R after a b → P after a) :
    Ensures w x P :=
  ⟨h.sound, h.grown.dag, fun a ha => by
    have halike := h.alike
    rw [ha] at halike
    cases halike with
    | @ok _ b hab => exact hP _ a b h.grown hab⟩

end Steps

end Work

-- The filter that a node stands for, where the node is there.
def Dag.filterAt (d : Dag) (i : Fin d.size) : Filter := d.toFilter i

def Dag.Stands (d : Dag) (node : Nat) (f : Filter) : Prop :=
  ∃ i : Fin d.size, i.val = node ∧ d.filterAt i = f

-- So does a tile of nodes stand for a tile of filters.
def Tile.Stands (d : Dag) (held : Tile Nat) (t : Tile Filter) : Prop :=
  ∃ s : Tile (Fin d.size), s.map Fin.val = held ∧ s.map d.filterAt = t

namespace Dag.Extends

variable {d e : Dag}

theorem filterAt_castLE (h : d.Extends e) : e.filterAt ∘ Fin.castLE h.size_le = d.filterAt :=
  funext fun i => h.toFilter i.isLt

theorem stands (h : d.Extends e) {node : Nat} {f : Filter} (hf : d.Stands node f) :
    e.Stands node f := by
  obtain ⟨i, rfl, rfl⟩ := hf
  exact ⟨Fin.castLE h.size_le i, rfl, congrFun h.filterAt_castLE i⟩

theorem tileStands (h : d.Extends e) {held : Tile Nat} {t : Tile Filter} (ht : held.Stands d t) :
    held.Stands e t := by
  obtain ⟨s, rfl, rfl⟩ := ht
  refine ⟨s.map (Fin.castLE h.size_le), Tile.map_map _ _ s, ?_⟩
  rw [Tile.map_map, h.filterAt_castLE]

end Dag.Extends

section Options

variable {α β γ : Type}

theorem mapM_ok (o : Option α) : o.mapM (Except.ok : α → Except Fault α) = .ok o := by
  cases o <;> rfl

theorem exists_of_option_rel {g : γ → α} {h : γ → β} {o : Option α} {p : Option β}
    (hrel : Option.Rel (fun a b => ∃ c, g c = a ∧ h c = b) o p) :
    ∃ i : Option γ, i.map g = o ∧ i.map h = p := by
  cases hrel with
  | none => exact ⟨none, rfl, rfl⟩
  | some hab =>
      obtain ⟨c, rfl, rfl⟩ := hab
      exact ⟨some c, rfl, rfl⟩

end Options

end Tileboard
