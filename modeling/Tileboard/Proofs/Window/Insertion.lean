import Mathlib
import Tileboard.Proofs.Window.Comparison

namespace Tileboard

-- The second list is the first with items put in anywhere, all of which have a property.
inductive Inserted {α : Type} (P : α → Prop) : List α → List α → Prop
  | nil : Inserted P [] []
  | keep (x : α) {xs ys : List α} (h : Inserted P xs ys) : Inserted P (x :: xs) (x :: ys)
  | insert {y : α} (hy : P y) {xs ys : List α} (h : Inserted P xs ys) : Inserted P xs (y :: ys)

theorem Inserted.filter_eq {α : Type} {P : α → Prop} {xs ys : List α} {test : α → Bool}
    (h : Inserted P xs ys) (htest : ∀ y, P y → test y = false) :
    ys.filter test = xs.filter test := by
  induction h with
  | nil => rfl
  | keep x _ ih => rw [List.filter_cons, List.filter_cons, ih]
  | insert hy _ ih => rw [List.filter_cons_of_neg (by simp [htest _ hy]), ih]

-- The time lies in the closed range from the first to the last moment of a period.
def Period.Includes (p : Period) (t : Instant) : Prop :=
  p.first.nanoseconds ≤ t.nanoseconds ∧ t.nanoseconds ≤ p.last.nanoseconds

instance (p : Period) (t : Instant) : Decidable (p.Includes t) :=
  inferInstanceAs
    (Decidable (p.first.nanoseconds ≤ t.nanoseconds ∧ t.nanoseconds ≤ p.last.nanoseconds))

theorem Period.covers_iff {p : Period} {t : Instant} :
    Period.covers (some p) (some t) = true ↔ p.Includes t := by
  simp [Period.covers, Period.contains, Instant.isWithin, Instant.atOrBefore, Period.Includes]

namespace Windows

variable {α : Type} {time : α → Except Fault (Option Instant)} {p : Period} {rows others : List α}

-- The row has no time, or one that is neither in the period nor in the period before it.
def Unseen (time : α → Except Fault (Option Instant)) (p : Period) (row : α) : Prop :=
  ∃ t, time row = .ok t ∧
    ∀ u, t = some u → ¬p.Includes u ∧ ∀ q, p.previous = .ok (some q) → ¬q.Includes u

theorem unseen_of_none {row : α} (h : time row = .ok none) : Unseen time p row :=
  ⟨none, h, fun u hu => by cases hu⟩

theorem Unseen.not_covered {row : α} (h : Unseen time p row) :
    Period.covers (some p) (timeOf time row) = false ∧
      ∀ q, p.previous = .ok q → Period.covers q (timeOf time row) = false := by
  obtain ⟨t, ht, houtside⟩ := h
  simp only [timeOf, ht]
  cases t with
  | none =>
      refine ⟨rfl, fun q _ => ?_⟩
      cases q <;> rfl
  | some u =>
      obtain ⟨hcurrent, hprevious⟩ := houtside u rfl
      rw [← Period.covers_iff, Bool.not_eq_true] at hcurrent
      refine ⟨hcurrent, fun q hq => ?_⟩
      cases q with
      | none => rfl
      | some q =>
          have hnot := hprevious q hq
          rw [← Period.covers_iff, Bool.not_eq_true] at hnot
          exact hnot

theorem within_eq (q : Option Period) (rows : List α) :
    within q (rows.map fun row => (row, timeOf time row)) =
      rows.filter fun row => Period.covers q (timeOf time row) := by
  unfold within
  rw [List.filter_map, List.map_map]
  simp only [Function.comp_def, List.map_id']

theorem ofPeriod_eq_filters {w : Windows α} (h : ofPeriod time (some p) rows = .ok w) :
    ∃ q, p.previous = .ok q ∧
      w.current = (rows.filter fun row => Period.covers (some p) (timeOf time row)) ∧
      w.previous = rows.filter fun row => Period.covers q (timeOf time row) := by
  obtain ⟨q, hq, hw⟩ := ofPeriod_eq_ok h
  refine ⟨q, hq, ?_, ?_⟩
  · rw [current_eq_within h, within_eq]
  · rw [hw, within_eq]

-- The rows put in do not come into the windows of the period, and move none out.
theorem windows_of_inserted {w other : Windows α} (h : Inserted (Unseen time p) rows others)
    (hw : ofPeriod time (some p) rows = .ok w) (hother : ofPeriod time (some p) others = .ok other) :
    other.current = w.current ∧ other.previous = w.previous := by
  obtain ⟨q, hq, hcurrent, hprevious⟩ := ofPeriod_eq_filters hw
  obtain ⟨q', hq', hcurrent', hprevious'⟩ := ofPeriod_eq_filters hother
  rw [hq, Except.ok.injEq] at hq'
  subst hq'
  constructor
  · rw [hcurrent', hcurrent]
    exact h.filter_eq fun row hrow => hrow.not_covered.1
  · rw [hprevious', hprevious]
    exact h.filter_eq fun row hrow => hrow.not_covered.2 q hq

end Windows

end Tileboard
