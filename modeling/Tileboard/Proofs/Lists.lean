import Mathlib

namespace Tileboard

section Lists

variable {α β : Type}

theorem length_filter_lt_cons (p : α → Bool) (x : α) (rest : List α) :
    (rest.filter p).length < (x :: rest).length := by
  rw [List.length_cons]
  exact Nat.lt_succ_of_le (List.length_filter_le p rest)

variable [DecidableEq α]

-- Each item at its first place, of those that pass a test.
theorem eraseDups_filter (p : α → Bool) (xs : List α) :
    (xs.filter p).eraseDups = xs.eraseDups.filter p := by
  match xs with
  | [] => simp
  | x :: rest =>
      have ih := eraseDups_filter p (rest.filter fun y => !y == x)
      rw [List.eraseDups_cons]
      cases hx : p x with
      | true =>
          rw [List.filter_cons_of_pos hx, List.filter_cons_of_pos hx, List.eraseDups_cons, ← ih,
            List.filter_filter, List.filter_filter]
          simp only [Bool.and_comm]
      | false =>
          have hnot : ¬ p x = true := by simp [hx]
          rw [List.filter_cons_of_neg hnot, List.filter_cons_of_neg hnot, ← ih, List.filter_filter]
          congr 1
          refine List.filter_congr fun y _ => ?_
          by_cases hy : y = x
          · rw [hy, hx]
            rfl
          · simp [hy]
termination_by xs.length
decreasing_by exact length_filter_lt_cons _ x rest

theorem nodup_eraseDups (xs : List α) : xs.eraseDups.Nodup := by
  match xs with
  | [] => simp
  | x :: rest =>
      rw [List.eraseDups_cons, List.nodup_cons]
      exact ⟨by simp, nodup_eraseDups _⟩
termination_by xs.length
decreasing_by exact length_filter_lt_cons _ x rest

-- One more item is enough where at most one is left out.
theorem take_filter_of_nodup {x : α} {xs : List α} (h : xs.Nodup) (n : Nat) :
    (xs.filter (· ≠ x)).take n = ((xs.take (n + 1)).filter (· ≠ x)).take n := by
  induction xs generalizing n with
  | nil => simp
  | cons y rest ih =>
      rw [List.nodup_cons] at h
      rw [List.take_succ_cons]
      by_cases hy : y = x
      · subst hy
        have hrest : ∀ k, (rest.take k).filter (· ≠ y) = rest.take k := fun k =>
          List.filter_eq_self.mpr fun z hz => by
            rw [decide_eq_true_eq]
            rintro rfl
            exact h.1 (List.mem_of_mem_take hz)
        have hall := hrest rest.length
        rw [List.take_length] at hall
        rw [List.filter_cons_of_neg (by simp), List.filter_cons_of_neg (by simp), hall, hrest,
          List.take_take, Nat.min_self]
      · rw [List.filter_cons_of_pos (by simpa using hy), List.filter_cons_of_pos (by simpa using hy)]
        cases n with
        | zero => rfl
        | succ k => rw [List.take_succ_cons, List.take_succ_cons, ih h.2 k]

variable [BEq α] [LawfulBEq α]

theorem lookup_filter_ne {fields : List (α × β)} {name other : α} (h : other ≠ name) :
    (fields.filter fun field => field.1 ≠ name).lookup other = fields.lookup other := by
  induction fields with
  | nil => rfl
  | cons field rest ih =>
      by_cases hfield : field.1 = name
      · have hother : (other == field.1) = false := by simpa [hfield] using h
        rw [List.filter_cons_of_neg (by simpa using hfield), ih, List.lookup_cons, hother]
      · rw [List.filter_cons_of_pos (by simpa using hfield), List.lookup_cons, List.lookup_cons, ih]

theorem lookup_filter_self (fields : List (α × β)) (name : α) :
    (fields.filter fun field => field.1 ≠ name).lookup name = none := by
  rw [List.lookup_eq_none_iff]
  intro field hfield
  have hne := (List.mem_filter.mp hfield).2
  rw [decide_eq_true_eq] at hne
  simpa using Ne.symm hne

end Lists

end Tileboard
