import Mathlib
import Tileboard.Proofs.Value.Equality

namespace Tileboard

namespace Number

-- Of two places one is before the other or they are the same, and no two of these hold.
theorem placeBefore_eq_not (p q : Int × Rat) :
    placeBefore q p = !(placeBefore p q || p == q) := by
  obtain ⟨i, r⟩ := p
  obtain ⟨j, s⟩ := q
  rcases lt_trichotomy i j with hij | rfl | hij
  · simp [placeBefore, hij, hij.ne', hij.not_gt]
  · rcases lt_trichotomy r s with hrs | rfl | hrs
    · simp [placeBefore, hrs, hrs.not_gt]
    · simp [placeBefore]
    · simp [placeBefore, hrs, hrs.ne', hrs.not_gt]
  · simp [placeBefore, hij, hij.ne', hij.not_gt]

end Number

namespace Comparison

-- The comparison that holds in a total order exactly where this one does not.
def opposite : Comparison → Comparison
  | .less => .greaterOrEqual
  | .lessOrEqual => .greater
  | .greater => .lessOrEqual
  | .greaterOrEqual => .less

theorem onLengths_opposite (cmp : Comparison) (m n : Nat) :
    cmp.opposite.onLengths m n = !cmp.onLengths m n := by
  cases cmp <;> simp [opposite, onLengths, ← decide_not]

theorem onTexts_opposite (cmp : Comparison) (s t : String) :
    cmp.opposite.onTexts s t = !cmp.onTexts s t := by
  cases cmp <;> simp [opposite, onTexts]

theorem onNumbers_opposite (cmp : Comparison) {x y : Number} (hx : x ≠ .real .nan)
    (hy : y ≠ .real .nan) : cmp.opposite.onNumbers x y = !cmp.onNumbers x y := by
  obtain ⟨p, hp⟩ := Number.exists_place hx
  obtain ⟨q, hq⟩ := Number.exists_place hy
  have hpq := Number.placeBefore_eq_not p q
  have hqp := Number.placeBefore_eq_not q p
  rw [Bool.beq_comm] at hqp
  cases cmp with
  | less => simp only [opposite, onNumbers, Number.before, Number.same, hp, hq, hqp, Bool.not_not]
  | lessOrEqual => simp only [opposite, onNumbers, Number.before, Number.same, hp, hq, hpq]
  | greater =>
      simp only [opposite, onNumbers, Number.before, Number.same, hp, hq, hpq, Bool.not_not]
  | greaterOrEqual => simp only [opposite, onNumbers, Number.before, Number.same, hp, hq, hqp]

theorem onNumbers_nan_right (cmp : Comparison) (x : Number) :
    cmp.onNumbers x (.real .nan) = false := by
  cases cmp <;> cases x.place? <;> simp [onNumbers, Number.same, Number.before, Number.place?]

end Comparison

namespace Value

-- Two values with an order of their own: numbers and truth values, or texts.
def Comparable (v w : Value) : Prop :=
  (v.number?.isSome = true ∧ w.number?.isSome = true) ∨ (v.isText = true ∧ w.isText = true)

-- The pair of values that decides how two values compare. Of two lists it is sought in the first
-- pair of items that are not equal; other values decide themselves. Lists that differ in their
-- lengths at most have no such pair.
inductive DecidedBy : Value → Value → Value → Value → Prop
  | itself {v w : Value} (h : ∀ xs ys, v = .list xs → w ≠ .list ys) : DecidedBy v w v w
  | item {x y : Value} {xs ys : List Value} {a b : Value} (hne : x.equal y = false)
      (h : DecidedBy x y a b) : DecidedBy (.list (x :: xs)) (.list (y :: ys)) a b
  | later {x y : Value} {xs ys : List Value} {a b : Value} (heq : x.equal y = true)
      (h : DecidedBy (.list xs) (.list ys) a b) : DecidedBy (.list (x :: xs)) (.list (y :: ys)) a b

variable {v w a b : Value}

theorem DecidedBy.not_lists (h : DecidedBy v w a b) : ∀ xs ys, a = .list xs → b ≠ .list ys := by
  induction h with
  | itself h => exact h
  | item _ _ ih => exact ih
  | later _ _ ih => exact ih

theorem DecidedBy.compare?_eq (h : DecidedBy v w a b) (cmp : Comparison) :
    compare? cmp v w = compare? cmp a b := by
  induction h with
  | itself h => rfl
  | item hne _ ih => rw [compare?, compareLists?, hne, if_neg Bool.false_ne_true, ih]
  | later heq _ ih => rw [compare?, compareLists?, heq, if_pos rfl, ← ih, compare?]

mutual

-- Induction on the first value: a pair decides, or else the lengths of two lists.
theorem decidedBy_or_lengths (v w : Value) : (∃ a b, DecidedBy v w a b) ∨
    ∃ m n, ∀ cmp, compare? cmp v w = some (cmp.onLengths m n) := by
  by_cases hlists : ∃ xs ys, v = .list xs ∧ w = .list ys
  · obtain ⟨xs, ys, rfl, rfl⟩ := hlists
    rcases decidedBy_or_lengths_lists xs ys with h | ⟨m, n, h⟩
    · exact .inl h
    · exact .inr ⟨m, n, fun cmp => by rw [compare?, h]⟩
  · exact .inl ⟨v, w, .itself fun xs ys hv hw => hlists ⟨xs, ys, hv, hw⟩⟩

theorem decidedBy_or_lengths_lists : ∀ xs ys : List Value,
    (∃ a b, DecidedBy (.list xs) (.list ys) a b) ∨
      ∃ m n, ∀ cmp, compareLists? cmp xs ys = some (cmp.onLengths m n)
  | [], ys => .inr ⟨0, ys.length, fun cmp => by cases ys <;> simp [compareLists?]⟩
  | x :: xs, [] => .inr ⟨xs.length + 1, 0, fun cmp => by simp [compareLists?]⟩
  | x :: xs, y :: ys => by
      cases hequal : x.equal y with
      | true =>
          rcases decidedBy_or_lengths_lists xs ys with ⟨a, b, h⟩ | ⟨m, n, h⟩
          · exact .inl ⟨a, b, .later hequal h⟩
          · exact .inr ⟨m, n, fun cmp => by rw [compareLists?, hequal, if_pos rfl, h]⟩
      | false =>
          rcases decidedBy_or_lengths x y with ⟨a, b, h⟩ | ⟨m, n, h⟩
          · exact .inl ⟨a, b, .item hequal h⟩
          · exact .inr ⟨m, n, fun cmp => by
              rw [compareLists?, hequal, if_neg Bool.false_ne_true, h]⟩

end

theorem compare?_of_numbers {x y : Number} (cmp : Comparison) (ha : a.number? = some x)
    (hb : b.number? = some y) : compare? cmp a b = some (cmp.onNumbers x y) := by
  cases a <;> cases b <;> simp_all [number?, compare?]

theorem number?_ne_nan {x : Number} (h : v.number? = some x) (hne : v ≠ .real .nan) :
    x ≠ .real .nan := by
  rintro rfl
  cases v with
  | number y =>
      cases h
      exact hne rfl
  | bool p => cases h
  | _ => cases h

theorem compare?_eq_none_of_not_lists {cmp : Comparison}
    (hlists : ∀ xs ys, a = .list xs → b ≠ .list ys) :
    compare? cmp a b = none ↔ ¬Comparable a b := by
  cases a <;> cases b <;> simp_all [compare?, Comparable, number?, isText]

theorem compare?_nan_right (cmp : Comparison) (v : Value) :
    (compare? cmp v (.real .nan)).getD false = false := by
  cases v with
  | bool p => exact cmp.onNumbers_nan_right _
  | number x => exact cmp.onNumbers_nan_right x
  | _ => simp [compare?, real]

-- Two values with an order that are not NaN are in one of two opposite relations.
theorem compare?_opposite_of_comparable (cmp : Comparison) (h : Comparable a b)
    (ha : a ≠ .real .nan) (hb : b ≠ .real .nan) :
    ∃ r, compare? cmp a b = some r ∧ compare? cmp.opposite a b = some !r := by
  rcases h with ⟨hx, hy⟩ | ⟨hs, ht⟩
  · obtain ⟨x, hx⟩ := Option.isSome_iff_exists.mp hx
    obtain ⟨y, hy⟩ := Option.isSome_iff_exists.mp hy
    refine ⟨_, compare?_of_numbers cmp hx hy, ?_⟩
    rw [compare?_of_numbers _ hx hy,
      cmp.onNumbers_opposite (number?_ne_nan hx ha) (number?_ne_nan hy hb)]
  · cases a with
    | text s =>
        cases b with
        | text t => exact ⟨_, by rw [compare?], by rw [compare?, cmp.onTexts_opposite]⟩
        | _ => cases ht
    | _ => cases hs

-- The pair that decides leaves the order open: its values have none, or one of them is NaN.
def Undecided (v w : Value) : Prop :=
  ∃ a b, DecidedBy v w a b ∧ (¬Comparable a b ∨ a = .real .nan ∨ b = .real .nan)

theorem Undecided.compare?_eq (h : Undecided v w) (cmp : Comparison) :
    (compare? cmp v w).getD false = false := by
  obtain ⟨a, b, hdecided, hopen⟩ := h
  rw [hdecided.compare?_eq]
  rcases hopen with hnone | rfl | rfl
  · rw [(compare?_eq_none_of_not_lists hdecided.not_lists).mpr hnone]
    rfl
  · exact compare?_nan cmp b
  · exact compare?_nan_right cmp a

theorem compare?_opposite (cmp : Comparison) (h : ¬Undecided v w) :
    ∃ r, compare? cmp v w = some r ∧ compare? cmp.opposite v w = some !r := by
  rcases decidedBy_or_lengths v w with ⟨a, b, hdecided⟩ | ⟨m, n, hlengths⟩
  · have hclear : ¬(¬Comparable a b ∨ a = .real .nan ∨ b = .real .nan) :=
      fun hopen => h ⟨a, b, hdecided, hopen⟩
    rw [not_or, not_not, not_or] at hclear
    rw [hdecided.compare?_eq, hdecided.compare?_eq]
    exact compare?_opposite_of_comparable cmp hclear.1 hclear.2.1 hclear.2.2
  · refine ⟨_, hlengths cmp, ?_⟩
    rw [hlengths, cmp.onLengths_opposite]

theorem compare?_eq_none_iff {cmp : Comparison} :
    compare? cmp v w = none ↔ ∃ a b, DecidedBy v w a b ∧ ¬Comparable a b := by
  constructor
  · intro hnone
    rcases decidedBy_or_lengths v w with ⟨a, b, hdecided⟩ | ⟨m, n, hlengths⟩
    · rw [hdecided.compare?_eq, compare?_eq_none_of_not_lists hdecided.not_lists] at hnone
      exact ⟨a, b, hdecided, hnone⟩
    · rw [hlengths] at hnone
      cases hnone
  · rintro ⟨a, b, hdecided, hnone⟩
    rw [hdecided.compare?_eq, compare?_eq_none_of_not_lists hdecided.not_lists]
    exact hnone

theorem undecided_iff {cmp : Comparison} : Undecided v w ↔ compare? cmp v w = none ∨
    ∃ a b, DecidedBy v w a b ∧ (a = .real .nan ∨ b = .real .nan) := by
  rw [compare?_eq_none_iff]
  constructor
  · rintro ⟨a, b, hdecided, hnone | hnan⟩
    · exact .inl ⟨a, b, hdecided, hnone⟩
    · exact .inr ⟨a, b, hdecided, hnan⟩
  · rintro (⟨a, b, hdecided, hnone⟩ | ⟨a, b, hdecided, hnan⟩)
    · exact ⟨a, b, hdecided, .inl hnone⟩
    · exact ⟨a, b, hdecided, .inr hnan⟩

end Value

end Tileboard
