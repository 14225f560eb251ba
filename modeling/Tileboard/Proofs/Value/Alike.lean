import Mathlib
import Tileboard.Proofs.Computation

namespace Tileboard.Value

theorem equalLists_iff {xs ys : List Value} :
    equalLists xs ys = true ↔ List.Forall₂ (fun x y => x.equal y = true) xs ys := by
  induction xs generalizing ys with
  | nil => cases ys <;> simp [equalLists]
  | cons x xs ih =>
      cases ys with
      | nil => simp [equalLists]
      | cons y ys => rw [equalLists, Bool.and_eq_true, List.forall₂_cons, ih]

theorem fieldsWithin_iff {xs ys : List (String × Value)} : fieldsWithin xs ys = true ↔
    ∀ field ∈ xs, ∃ y, ys.lookup field.1 = some y ∧ field.2.equal y = true := by
  induction xs with
  | nil => simp [fieldsWithin]
  | cons field rest ih =>
      obtain ⟨name, x⟩ := field
      rw [fieldsWithin, Bool.and_eq_true, List.forall_mem_cons, ih]
      refine and_congr_left fun _ => ?_
      cases ys.lookup name <;> simp

-- Values are alike if they are equal or one and the same, part by part: NaN is not equal to itself,
-- but a value that holds it is alike to itself. The order of fields does not matter.
inductive Alike : Value → Value → Prop
  | same (v : Value) : Alike v v
  | equal {v w : Value} (h : v.equal w = true) : Alike v w
  | list {xs ys : List Value} (h : List.Forall₂ Alike xs ys) : Alike (.list xs) (.list ys)
  | object {xs ys zs : List (String × Value)} (hperm : zs.Perm ys)
      (hnames : xs.map Prod.fst = zs.map Prod.fst)
      (hvalues : List.Forall₂ Alike (xs.map Prod.snd) (zs.map Prod.snd)) :
      Alike (.object xs) (.object ys)

theorem forall₂_alike_self (xs : List Value) : List.Forall₂ Alike xs xs :=
  List.forall₂_same.mpr fun v _ => .same v

theorem alike_list_iff {xs : List Value} {w : Value} :
    Alike (.list xs) w ↔ ∃ ys, w = .list ys ∧ List.Forall₂ Alike xs ys := by
  constructor
  · intro h
    cases h with
    | same => exact ⟨xs, rfl, forall₂_alike_self xs⟩
    | list h => exact ⟨_, rfl, h⟩
    | equal h =>
        cases w with
        | list ys => exact ⟨ys, rfl, (equalLists_iff.mp h).imp fun _ _ => .equal⟩
        | _ => simp [Value.equal] at h
  · rintro ⟨ys, rfl, h⟩
    exact .list h

section Objects

variable {xs ys : List (String × Value)} {name : String} {v : Value}

-- Alike objects have the same names, if the first has none twice.
theorem Alike.names_perm (h : Alike (.object xs) (.object ys))
    (hnodup : (xs.map Prod.fst).Nodup) : (ys.map Prod.fst).Perm (xs.map Prod.fst) := by
  cases h with
  | same => exact .refl _
  | object hperm hnames _ =>
      rw [hnames]
      exact (hperm.map Prod.fst).symm
  | equal h =>
      rw [Value.equal, Bool.and_eq_true, beq_iff_eq, fieldsWithin_iff] at h
      obtain ⟨hlength, hwithin⟩ := h
      have hsub : xs.map Prod.fst ⊆ ys.map Prod.fst := by
        intro n hn
        obtain ⟨field, hfield, rfl⟩ := List.mem_map.mp hn
        obtain ⟨y, hy, -⟩ := hwithin field hfield
        exact List.mem_map.mpr ⟨_, mem_of_lookup hy, rfl⟩
      have hcount : (ys.map Prod.fst).length ≤ (xs.map Prod.fst).length := by
        simp [hlength]
      exact ((hnodup.subperm hsub).perm_of_length_le hcount).symm

theorem alike_single_iff :
    Alike (.object [(name, v)]) (.object ys) ↔ ∃ w, ys = [(name, w)] ∧ Alike v w := by
  constructor
  · intro h
    have hnames : (ys.map Prod.fst).Perm [name] := h.names_perm (List.nodup_singleton name)
    obtain ⟨⟨other, w⟩, rfl, rfl⟩ := List.map_eq_singleton_iff.mp (List.perm_singleton.mp hnames)
    refine ⟨w, rfl, ?_⟩
    cases h with
    | same => exact .same v
    | object hperm hnames hvalues =>
        rw [List.perm_singleton] at hperm
        subst hperm
        simpa using hvalues
    | equal h =>
        rw [Value.equal, Bool.and_eq_true, fieldsWithin_iff] at h
        obtain ⟨y, hy, hequal⟩ := h.2 (other, v) (by simp)
        rw [List.lookup_cons_self, Option.some.injEq] at hy
        subst hy
        exact .equal hequal
  · rintro ⟨w, rfl, h⟩
    exact .object (.refl _) rfl (.cons h .nil)

end Objects

end Tileboard.Value
