import Mathlib
import Tileboard.Proofs.Filter.Passing
import Tileboard.Proofs.Filter.Strictness
import Tileboard.Proofs.Value.Order

namespace Tileboard.Matcher

open Tileboard.Filter (Leaf)

def outcome (mode : Mode) (column : Value) (operator : Operator) (operand row : Value) :
    Except Fault Bool := do
  let m ← (ofFilter mode (.leaf column (some operator) operand)).result
  (m.accepts row).result

-- Of two tests of a column one comes to true and the other to false. Both stop with one fault where
-- the record has no cell to test, and only there.
structure ExactlyOne (column row : Value) (x y : Except Fault Bool) : Prop where
  opposed : y = x.map (!·)
  answers : ∀ cell, row.cell column = .ok cell → ∃ answer, x = .ok answer

def Neither (x y : Except Fault Bool) : Prop := x = .ok false ∧ y = .ok false

section Outcomes

variable {mode : Mode} {column operand row : Value}

theorem outcome_of_ready {operator : Operator} {m : Matcher}
    (h : (ofLeaf mode column (some operator) operand).result = .ok m) :
    outcome mode column operator operand row = (m.accepts row).result := by
  rw [outcome, ofFilter, h, ok_bind]

theorem result_eq_map {cell : Except Fault Value} {test : Value → Traced Bool} {f : Value → Bool}
    (h : ∀ v, (test v).result = .ok (f v)) :
    (liftM cell >>= test : Traced Bool).result = cell.map f := by
  rw [Traced.result_lift_bind]
  cases cell with
  | error e => rfl
  | ok v => exact h v

theorem outcome_isNull (negated : Bool) : outcome mode column (.isNull negated) operand row =
    (row.cell column).map fun cell => (cell.isNull != isFalse operand) != negated := by
  rw [outcome_of_ready rfl, accepts]
  refine result_eq_map fun cell => ?_
  cases cell.isNull <;> cases isFalse operand <;> cases negated <;> rfl

theorem outcome_equals (negated : Bool) : outcome mode column (.equals negated) operand row =
    (row.cell column).map fun cell => cell.matchesValue operand != negated := by
  rw [outcome_of_ready rfl, accepts]
  exact result_eq_map fun cell => rfl

theorem outcome_member (negated : Bool) : outcome mode column (.member negated) operand row =
    (row.cell column).map fun cell => (membersOf operand).any cell.matchesValue != negated := by
  rw [outcome_of_ready rfl, accepts]
  exact result_eq_map fun cell => rfl

theorem outcome_search {pattern : Pattern.Compiled} (negated : Bool)
    (h : Pattern.read operand.asText = .ok pattern) :
    outcome mode column (.search negated) operand row =
      (row.cell column).map fun cell => pattern.occursIn (subject cell) != negated := by
  have hready : (ofLeaf mode column (some (.search negated)) operand).result =
      .ok (.search column pattern negated) := congrArg Traced.result (searchFor_ok h mode)
  rw [outcome_of_ready hready, accepts]
  exact result_eq_map fun cell => rfl

theorem outcome_contains (negated : Bool) (h : operand.isNull = false) :
    outcome mode column (.contains negated) operand row =
      (row.cell column).map (contained (needleOf operand) negated) := by
  have hready : (ofLeaf mode column (some (.contains negated)) operand).result =
      .ok (.contains column (needleOf operand) negated) := by
    rw [ofLeaf, ofTest]
    simp [h]
  rw [outcome_of_ready hready, accepts]
  exact result_eq_map fun cell => by cases cell <;> rfl

theorem outcome_contains_null (negated : Bool) (h : operand.isNull = true) :
    outcome mode column (.contains negated) operand row = .ok false := by
  have hready : (ofLeaf mode column (some (.contains negated)) operand).result = .ok .never := by
    rw [ofLeaf, ofTest]
    simp only [h, if_true]
    rfl
  rw [outcome_of_ready hready, accepts]
  rfl

theorem outcome_compare (comparison : Comparison) :
    outcome mode column (.compare comparison) operand row =
      (row.cell column).map fun cell => (cell.compare? comparison operand).getD false := by
  rw [outcome_of_ready rfl, accepts]
  refine result_eq_map fun cell => ?_
  unfold Value.ordered
  cases cell.compare? comparison operand <;> rfl

theorem outcome_search_flawed {column : Value} (negated : Bool)
    (h : (Leaf.flaw? operand).isSome = true) :
    outcome .permissive column (.search negated) operand row = .ok false := by
  obtain ⟨e, hflaw⟩ := Option.isSome_iff_exists.mp h
  have hready : (ofLeaf .permissive column (some (.search negated)) operand).result = .ok .never :=
    (searchFor_flawed hflaw).2
  rw [outcome_of_ready hready, accepts]
  rfl

-- Two tests that put the same question to the cell, one of them the other way round.
theorem exactlyOne_of_asked {x y : Except Fault Bool} {f : Value → Bool}
    (hx : x = (row.cell column).map fun cell => f cell != false)
    (hy : y = (row.cell column).map fun cell => f cell != true) : ExactlyOne column row x y := by
  subst hx hy
  constructor
  · cases row.cell column with
    | error e => rfl
    | ok cell => simp [Except.map]
  · intro cell h
    rw [h]
    exact ⟨_, rfl⟩

theorem exactlyOne_of_ok {x y : Except Fault Bool} {answer : Bool} (hx : x = .ok answer)
    (hy : y = .ok !answer) : ExactlyOne column row x y := by
  subst hx hy
  exact ⟨rfl, fun cell h => ⟨answer, rfl⟩⟩

theorem contains_answers {cell : Value} (hcell : row.cell column = .ok cell)
    (hnull : operand.isNull = false) :
    (cell.isText = true → ExactlyOne column row
      (outcome mode column (.contains false) operand row)
      (outcome mode column (.contains true) operand row)) ∧
    (cell.isText = false → Neither
      (outcome mode column (.contains false) operand row)
      (outcome mode column (.contains true) operand row)) := by
  have hanswer : ∀ negated, outcome mode column (.contains negated) operand row =
      .ok (contained (needleOf operand) negated cell) := by
    intro negated
    rw [outcome_contains negated hnull, hcell]
    rfl
  rw [hanswer, hanswer]
  constructor
  · intro htext
    cases cell with
    | text s => exact exactlyOne_of_ok rfl (by simp [contained])
    | _ => cases htext
  · intro hother
    cases cell with
    | text s => cases hother
    | _ => exact ⟨rfl, rfl⟩

-- A comparison and its opposite: both fail where the order is left open, else one of them holds.
theorem compare_answers (comparison : Comparison) (cell operand : Value) :
    let a := (cell.compare? comparison operand).getD false
    let b := (cell.compare? comparison.opposite operand).getD false
    ¬(a = true ∧ b = true) ∧ (a = false ∧ b = false ↔ Value.Undecided cell operand) := by
  intro a b
  by_cases hopen : Value.Undecided cell operand
  · have ha : a = false := hopen.compare?_eq comparison
    have hb : b = false := hopen.compare?_eq comparison.opposite
    simp [ha, hb, hopen]
  · obtain ⟨r, hr, hopposite⟩ := Value.compare?_opposite comparison hopen
    have ha : a = r := by simp [a, hr]
    have hb : b = !r := by simp [b, hopposite]
    cases r <;> simp [ha, hb, hopen]

end Outcomes

-- The tests of a cell with one operand, each beside its opposite.
theorem opposite_tests (mode : Mode) (column operand row : Value) :
    (∀ operator ∈ [Operator.isNull, .equals, .member], ExactlyOne column row
      (outcome mode column (operator false) operand row)
      (outcome mode column (operator true) operand row)) ∧
    (∀ pattern, Pattern.read operand.asText = .ok pattern → ExactlyOne column row
      (outcome mode column (.search false) operand row)
      (outcome mode column (.search true) operand row)) ∧
    ((Leaf.flaw? operand).isSome = true → Neither
      (outcome .permissive column (.search false) operand row)
      (outcome .permissive column (.search true) operand row)) ∧
    (operand.isNull = true → Neither
      (outcome mode column (.contains false) operand row)
      (outcome mode column (.contains true) operand row)) ∧
    (∀ cell, row.cell column = .ok cell → operand.isNull = false →
      (cell.isText = true → ExactlyOne column row
        (outcome mode column (.contains false) operand row)
        (outcome mode column (.contains true) operand row)) ∧
      (cell.isText = false → Neither
        (outcome mode column (.contains false) operand row)
        (outcome mode column (.contains true) operand row))) ∧
    (∀ cell, row.cell column = .ok cell → ∀ comparison, ∃ a b,
      outcome mode column (.compare comparison) operand row = .ok a ∧
      outcome mode column (.compare comparison.opposite) operand row = .ok b ∧
      ¬(a = true ∧ b = true) ∧
      (a = false ∧ b = false ↔ cell.compare? comparison operand = none ∨
        ∃ x y, Value.DecidedBy cell operand x y ∧ (x = .real .nan ∨ y = .real .nan)) ∧
      (cell.compare? comparison operand = none ↔
        ∃ x y, Value.DecidedBy cell operand x y ∧ ¬Value.Comparable x y)) := by
  refine ⟨?_, ?_, ?_, ?_, ?_, ?_⟩
  · intro operator hoperator
    simp only [List.mem_cons, List.not_mem_nil, or_false] at hoperator
    rcases hoperator with rfl | rfl | rfl
    · exact exactlyOne_of_asked (outcome_isNull false) (outcome_isNull true)
    · exact exactlyOne_of_asked (outcome_equals false) (outcome_equals true)
    · exact exactlyOne_of_asked (outcome_member false) (outcome_member true)
  · intro pattern hread
    exact exactlyOne_of_asked (outcome_search false hread) (outcome_search true hread)
  · intro hflaw
    exact ⟨outcome_search_flawed false hflaw, outcome_search_flawed true hflaw⟩
  · intro hnull
    exact ⟨outcome_contains_null false hnull, outcome_contains_null true hnull⟩
  · intro cell hcell hnull
    exact contains_answers hcell hnull
  · intro cell hcell comparison
    have hcompare : ∀ cmp, outcome mode column (.compare cmp) operand row =
        .ok ((cell.compare? cmp operand).getD false) := by
      intro cmp
      rw [outcome_compare, hcell]
      rfl
    obtain ⟨hboth, hneither⟩ := compare_answers comparison cell operand
    rw [Value.undecided_iff] at hneither
    exact ⟨_, _, hcompare comparison, hcompare comparison.opposite, hboth, hneither,
      Value.compare?_eq_none_iff⟩

-- The first items are equal, true being one, and of the second NaN decides against three: the texts
-- and numbers after it do not come to be compared.
def uncertain : Value := .list [.bool true, .list [.real .nan, .text "b"]]

def bounds : Value := .list [.int 1, .list [.int 3, .int 4]]

theorem uncertain_neither : ∃ a b,
    outcome .strict (.text "size") (.compare .less) bounds (.object [("size", uncertain)]) = .ok a ∧
    outcome .strict (.text "size") (.compare .greaterOrEqual) bounds
      (.object [("size", uncertain)]) = .ok b ∧ a = false ∧ b = false := by
  obtain ⟨-, -, -, -, -, hcompare⟩ :=
    opposite_tests .strict (.text "size") bounds (.object [("size", uncertain)])
  obtain ⟨a, b, ha, hb, -, hneither, -⟩ := hcompare uncertain rfl .less
  have hnan : Value.DecidedBy uncertain bounds (.real .nan) (.int 3) :=
    .later rfl (.item rfl (.item rfl (.itself (by simp [Value.real]))))
  exact ⟨a, b, ha, hb, hneither.mpr (.inr ⟨_, _, hnan, .inl rfl⟩)⟩

end Tileboard.Matcher
