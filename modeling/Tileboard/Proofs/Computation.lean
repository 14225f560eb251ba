import Tileboard.Traced
import Mathlib.Data.List.Forall2

namespace Tileboard

section Faults

variable {ε α β : Type}

theorem bind_eq_ok_iff {x : Except ε α} {f : α → Except ε β} {b : β} :
    x >>= f = .ok b ↔ ∃ a, x = .ok a ∧ f a = .ok b := by
  cases x with
  | error e => simp [bind, Except.bind]
  | ok a => simp [bind, Except.bind]

theorem eq_ok_of_isOk {x : Except ε α} (h : x.isOk = true) : ∃ a, x = .ok a := by
  cases x with
  | error e => cases h
  | ok a => exact ⟨a, rfl⟩

@[simp] theorem ok_bind (a : α) (f : α → Except ε β) : (Except.ok a >>= f) = f a := rfl

@[simp] theorem error_bind (e : ε) (f : α → Except ε β) :
    (Except.error e >>= f) = .error e := rfl

theorem map_eq_ok_iff {x : Except ε α} {f : α → β} {b : β} :
    x.map f = .ok b ↔ ∃ a, x = .ok a ∧ f a = b := by
  cases x <;> simp [Except.map]

theorem map_eq_error_iff {x : Except ε α} {f : α → β} {e : ε} :
    x.map f = .error e ↔ x = .error e := by
  cases x <;> simp [Except.map]

-- Two steps that stop with the same fault or come to related results.
inductive SameUpTo (R : α → β → Prop) : Except ε α → Except ε β → Prop
  | ok {a : α} {b : β} (h : R a b) : SameUpTo R (.ok a) (.ok b)
  | error (e : ε) : SameUpTo R (.error e) (.error e)

theorem SameUpTo.refl (x : Except ε α) : SameUpTo Eq x x := by
  cases x with
  | error e => exact .error e
  | ok a => exact .ok rfl

theorem SameUpTo.eq {x y : Except ε α} (h : SameUpTo Eq x y) : x = y := by
  cases h with
  | ok h => rw [h]
  | error e => rfl

theorem SameUpTo.of_map {f : α → β} {x : Except ε α} {y : Except ε β} (h : x.map f = y) :
    SameUpTo (fun a b => f a = b) x y := by
  subst h
  cases x with
  | error e => exact .error e
  | ok a => exact .ok rfl

theorem SameUpTo.imp {R S : α → β → Prop} {x : Except ε α} {y : Except ε β} (h : SameUpTo R x y)
    (himp : ∀ a b, R a b → S a b) : SameUpTo S x y := by
  cases h with
  | ok h => exact .ok (himp _ _ h)
  | error e => exact .error e

theorem SameUpTo.bind {γ δ : Type} {R : α → β → Prop} {S : γ → δ → Prop} {x : Except ε α}
    {y : Except ε β} {f : α → Except ε γ} {g : β → Except ε δ} (h : SameUpTo R x y)
    (hfg : ∀ a b, R a b → SameUpTo S (f a) (g b)) : SameUpTo S (x >>= f) (y >>= g) := by
  cases h with
  | ok h => exact hfg _ _ h
  | error e => exact .error e

end Faults

namespace Traced

variable {α β γ : Type}

@[simp] theorem result_pure (a : α) : (Pure.pure a : Traced α).result = .ok a := rfl

theorem result_bind (x : Traced α) (f : α → Traced β) :
    (x >>= f).result = x.result >>= fun a => (f a).result := by
  change (Traced.bind x f).result = _
  unfold Traced.bind
  cases x.result <;> rfl

theorem result_map (f : α → β) (x : Traced α) : (f <$> x).result = f <$> x.result := by
  change (x >>= fun a => Pure.pure (f a)).result = _
  rw [result_bind]
  cases x.result <;> rfl

@[simp] theorem result_lift_bind (x : Except Fault α) (f : α → Traced β) :
    (liftM x >>= f : Traced β).result = x >>= fun a => (f a).result :=
  result_bind (ofExcept x) f

theorem ext {x y : Traced α} (hnotes : x.notes = y.notes) (hresult : x.result = y.result) :
    x = y := by
  cases x; cases y; simp_all

theorem ok_bind_eq {x : Traced α} {a : α} (h : x.result = .ok a) (f : α → Traced β) :
    x >>= f = ⟨x.notes ++ (f a).notes, (f a).result⟩ := by
  change Traced.bind x f = _
  simp only [Traced.bind, h]

theorem bind_result_eq_ok_iff {x : Traced α} {f : α → Traced β} {b : β} :
    (x >>= f).result = .ok b ↔ ∃ a, x.result = .ok a ∧ (f a).result = .ok b := by
  rw [result_bind, bind_eq_ok_iff]

theorem lift_bind_eq_ok_iff {x : Except Fault α} {f : α → Traced β} {b : β} :
    (liftM x >>= f : Traced β).result = .ok b ↔ ∃ a, x = .ok a ∧ (f a).result = .ok b := by
  rw [result_lift_bind, bind_eq_ok_iff]

theorem id_map' (x : Traced α) : id <$> x = x := by
  rcases x with ⟨notes, _ | a⟩
  · rfl
  · exact ext (List.append_nil _) rfl

theorem bind_assoc' (x : Traced α) (f : α → Traced β) (g : β → Traced γ) :
    x >>= f >>= g = x >>= fun a => f a >>= g := by
  rcases x with ⟨notes, e | a⟩
  · rfl
  · change Traced.bind (Traced.bind _ f) g = Traced.bind _ fun a => Traced.bind (f a) g
    simp only [Traced.bind]
    cases (f a).result <;> simp

instance : LawfulMonad Traced := .mk' Traced id_map' (fun _ _ => rfl) bind_assoc'

theorem result_mapM (f : α → Traced β) (xs : List α) :
    (xs.mapM f).result = xs.mapM fun x => (f x).result := by
  induction xs with
  | nil => rfl
  | cons x xs ih => simp only [List.mapM_cons, result_bind, ih, result_pure]; rfl

theorem mapM_result_eq_ok {f : α → Traced β} {xs : List α} {ys : List β}
    (h : (xs.mapM f).result = .ok ys) :
    List.Forall₂ (fun x y => (f x).result = .ok y) xs ys := by
  induction xs generalizing ys with
  | nil =>
      rw [List.mapM_nil, result_pure, Except.ok.injEq] at h
      subst h
      exact .nil
  | cons x xs ih =>
      rw [List.mapM_cons, bind_result_eq_ok_iff] at h
      obtain ⟨y, hy, h⟩ := h
      obtain ⟨rest, hrest, h⟩ := bind_result_eq_ok_iff.mp h
      rw [result_pure, Except.ok.injEq] at h
      subst h
      exact .cons hy (ih hrest)

-- Two computations that leave the same notes and stop with the same fault or come to
-- related results.
inductive Related (R : α → β → Prop) : Traced α → Traced β → Prop
  | ok (notes : List Note) {a : α} {b : β} (h : R a b) : Related R ⟨notes, .ok a⟩ ⟨notes, .ok b⟩
  | error (notes : List Note) (e : Fault) : Related R ⟨notes, .error e⟩ ⟨notes, .error e⟩

theorem Related.lift {R : α → β → Prop} {x : Except Fault α} {y : Except Fault β}
    (h : SameUpTo R x y) : Related R (ofExcept x) (ofExcept y) := by
  cases h with
  | ok h => exact .ok [] h
  | error e => exact .error [] e

theorem Related.refl (x : Traced α) : Related Eq x x := by
  rcases x with ⟨notes, e | a⟩
  · exact .error notes e
  · exact .ok notes rfl

-- Only what follows a result that is reached matters.
theorem bind_congr_of_ok {x : Traced α} {f g : α → Traced β}
    (h : ∀ a, x.result = .ok a → f a = g a) : x >>= f = x >>= g := by
  rcases x with ⟨notes, e | a⟩
  · rfl
  · rw [ok_bind_eq rfl, ok_bind_eq rfl, h a rfl]

theorem Related.bind_eq {R : α → β → Prop} {x : Traced α} {y : Traced β} {f : α → Traced γ}
    {g : β → Traced γ} (h : Related R x y) (hfg : ∀ a b, R a b → f a = g b) :
    x >>= f = y >>= g := by
  cases h with
  | ok notes h =>
      rw [ok_bind_eq rfl, ok_bind_eq rfl, hfg _ _ h]
  | error notes e => rfl

theorem Related.bind {δ : Type} {R : α → β → Prop} {S : γ → δ → Prop} {x : Traced α}
    {y : Traced β} {f : α → Traced γ} {g : β → Traced δ} (h : Related R x y)
    (hfg : ∀ a b, R a b → Related S (f a) (g b)) : Related S (x >>= f) (y >>= g) := by
  cases h with
  | @ok notes a b h =>
      rw [ok_bind_eq rfl, ok_bind_eq rfl]
      have hfg := hfg a b h
      generalize f a = u at hfg
      generalize g b = v at hfg
      cases hfg with
      | ok more hs => exact .ok _ hs
      | error more e => exact .error _ e
  | error notes e => exact .error notes e

end Traced

section Lists

variable {α β γ : Type} {m : Type → Type} [Monad m]

theorem mem_of_lookup [BEq α] [LawfulBEq α] {fields : List (α × β)} {name : α} {b : β}
    (h : fields.lookup name = some b) : (name, b) ∈ fields := by
  obtain ⟨before, after, rfl, -⟩ := List.lookup_eq_some_iff.mp h
  simp

theorem exists_lookup_of_mem [BEq α] [LawfulBEq α] {fields : List (α × β)} {name : α}
    (h : name ∈ fields.map Prod.fst) : ∃ b, fields.lookup name = some b := by
  cases hlookup : fields.lookup name with
  | some b => exact ⟨b, rfl⟩
  | none =>
      obtain ⟨field, hfield, rfl⟩ := List.mem_map.mp h
      have hne := List.lookup_eq_none_iff.mp hlookup field hfield
      simp at hne

theorem findSome?_congr {f g : α → Option β} {xs : List α} (h : ∀ x ∈ xs, f x = g x) :
    xs.findSome? f = xs.findSome? g := by
  induction xs with
  | nil => rfl
  | cons x rest ih =>
      rw [List.forall_mem_cons] at h
      rw [List.findSome?_cons, List.findSome?_cons, h.1, ih h.2]

theorem mapM_eq_ok {ε : Type} {f : α → Except ε β} {xs : List α} {ys : List β}
    (h : xs.mapM f = .ok ys) : List.Forall₂ (fun x y => f x = .ok y) xs ys := by
  induction xs generalizing ys with
  | nil =>
      cases h
      exact .nil
  | cons x xs ih =>
      rw [List.mapM_cons] at h
      obtain ⟨y, hy, h⟩ := bind_eq_ok_iff.mp h
      obtain ⟨rest, hrest, h⟩ := bind_eq_ok_iff.mp h
      cases h
      exact .cons hy (ih hrest)

theorem mapM_of_forall₂ {ε : Type} {f : α → Except ε β} {xs : List α} {ys : List β}
    (h : List.Forall₂ (fun x y => f x = .ok y) xs ys) : xs.mapM f = .ok ys := by
  induction h with
  | nil => rfl
  | cons hx _ ih =>
      rw [List.mapM_cons, hx, ok_bind, ih]
      rfl

-- Of two lists in a relation one by one, each item has its fellow on the other side.
theorem exists_left_of_forall₂ {R : α → β → Prop} {xs : List α} {ys : List β}
    (h : List.Forall₂ R xs ys) {y : β} (hy : y ∈ ys) : ∃ x ∈ xs, R x y := by
  induction h with
  | nil => cases hy
  | cons hxy _ ih =>
      rcases List.mem_cons.mp hy with rfl | hy
      · exact ⟨_, List.mem_cons_self, hxy⟩
      · obtain ⟨x, hx, hxy⟩ := ih hy
        exact ⟨x, List.mem_cons_of_mem _ hx, hxy⟩

theorem exists_right_of_forall₂ {R : α → β → Prop} {xs : List α} {ys : List β}
    (h : List.Forall₂ R xs ys) {x : α} (hx : x ∈ xs) : ∃ y ∈ ys, R x y :=
  exists_left_of_forall₂ h.flip hx

theorem exists_between {R : α → γ → Prop} {S : γ → β → Prop} {xs : List α} {ys : List β}
    (h : List.Forall₂ (fun x y => ∃ z, R x z ∧ S z y) xs ys) :
    ∃ zs, List.Forall₂ R xs zs ∧ List.Forall₂ S zs ys := by
  induction h with
  | nil => exact ⟨[], .nil, .nil⟩
  | cons hxy _ ih =>
      obtain ⟨z, hx, hy⟩ := hxy
      obtain ⟨zs, hxs, hys⟩ := ih
      exact ⟨z :: zs, .cons hx hxs, .cons hy hys⟩

theorem forall₂_comp {R : α → γ → Prop} {S : γ → β → Prop} {T : α → β → Prop}
    (hT : ∀ x z y, R x z → S z y → T x y) {xs : List α} {zs : List γ} {ys : List β}
    (hxs : List.Forall₂ R xs zs) (hys : List.Forall₂ S zs ys) : List.Forall₂ T xs ys := by
  induction hxs generalizing ys with
  | nil =>
      cases hys
      exact .nil
  | cons hx _ ih =>
      obtain _ | ⟨hy, hys⟩ := hys
      exact .cons (hT _ _ _ hx hy) (ih hys)

theorem exists_forall₂ {R : α → β → Prop} {xs : List α} (h : ∀ x ∈ xs, ∃ y, R x y) :
    ∃ ys, List.Forall₂ R xs ys := by
  obtain ⟨ys, hys, -⟩ := exists_between (S := fun _ _ => True) (List.forall₂_same.mpr
    fun x hx => (h x hx).imp fun _ hy => ⟨hy, trivial⟩)
  exact ⟨ys, hys⟩

theorem forall₂_iff_forall {R : α → β → Prop} {S : β → α → Prop} {P : α → Prop} {xs : List α}
    {ys : List β} (h : List.Forall₂ R xs ys) (hS : ∀ x ∈ xs, ∀ y, R x y → (S y x ↔ P x)) :
    List.Forall₂ S ys xs ↔ ∀ x ∈ xs, P x := by
  induction h with
  | nil => simp
  | cons hxy _ ih =>
      rw [List.forall_mem_cons] at hS
      rw [List.forall₂_cons, List.forall_mem_cons, hS.1 _ hxy, ih hS.2]

-- The first step of a list that stops, and with it the list.
theorem mapM_eq_error {ε : Type} {f : α → Except ε β} {xs : List α} {e : ε}
    (h : xs.mapM f = .error e) : ∃ before x after, xs = before ++ x :: after ∧
      (∀ y ∈ before, ∃ b, f y = .ok b) ∧ f x = .error e := by
  induction xs with
  | nil => cases h
  | cons x xs ih =>
      rw [List.mapM_cons] at h
      cases hx : f x with
      | error e' =>
          rw [hx] at h
          cases h
          exact ⟨[], x, xs, rfl, by simp, hx⟩
      | ok b =>
          rw [hx, ok_bind] at h
          cases hrest : xs.mapM f with
          | ok bs =>
              rw [hrest] at h
              cases h
          | error e' =>
              rw [hrest] at h
              cases h
              obtain ⟨before, y, after, rfl, hbefore, hy⟩ := ih hrest
              exact ⟨x :: before, y, after, rfl, List.forall_mem_cons.mpr ⟨⟨b, hx⟩, hbefore⟩, hy⟩

theorem mapM_succeeds_iff {ε : Type} {f : α → Except ε β} {xs : List α} :
    (∃ ys, xs.mapM f = .ok ys) ↔ ∀ x ∈ xs, ∃ y, f x = .ok y := by
  constructor
  · rintro ⟨ys, h⟩ x hx
    obtain ⟨y, -, hy⟩ := exists_right_of_forall₂ (mapM_eq_ok h) hx
    exact ⟨y, hy⟩
  · intro h
    cases hrun : xs.mapM f with
    | ok ys => exact ⟨ys, rfl⟩
    | error e =>
        obtain ⟨before, x, after, rfl, -, hx⟩ := mapM_eq_error hrun
        obtain ⟨y, hy⟩ := h x (by simp)
        rw [hy] at hx
        cases hx

theorem mapM_eq_of_forall₂ [LawfulMonad m] {f : α → m γ} {g : β → m γ} {xs : List α} {ys : List β}
    (h : List.Forall₂ (fun x y => f x = g y) xs ys) : xs.mapM f = ys.mapM g := by
  induction h with
  | nil => simp only [List.mapM_nil]
  | cons hxy _ ih => simp only [List.mapM_cons, hxy, ih]

theorem foldlM_congr {f g : β → α → m β} {xs : List α} (h : ∀ b, ∀ x ∈ xs, f b x = g b x)
    (init : β) : xs.foldlM f init = xs.foldlM g init := by
  induction xs generalizing init with
  | nil => simp only [List.foldlM_nil]
  | cons x xs ih =>
      simp only [List.foldlM_cons, h init x (by simp)]
      congr 1
      funext b
      exact ih (fun c y hy => h c y (List.mem_cons_of_mem _ hy)) b

end Lists

end Tileboard
