import Mathlib
import Tileboard.Proofs.Filter.Passing
import Tileboard.Proofs.Filter.Strictness
import Tileboard.Proofs.Table.Rows
import Tileboard.Proofs.Value.Equality

namespace Tileboard

open Table (Redrawn)

namespace Test

-- Whether a test takes null apart from everything else.
def asksForNull (t : Test) : Bool :=
  match t.operator with
  | .isNull _ => true
  | .equals _ => t.operand.isNull
  | .member _ => (Matcher.membersOf t.operand).any Value.isNull
  | _ => false

-- Whether a test goes by the quantity of a number.
def asksForQuantity (t : Test) : Bool :=
  match t.operator with
  | .equals _ => true
  | .compare _ => true
  | .member _ => true
  | _ => false

-- Whether the pattern of a test is found in one of two cells only.
def tellsTexts (t : Test) (v u : Value) : Bool :=
  match t.operator, Pattern.read t.operand.asText with
  | .search _, .ok pattern =>
      pattern.occursIn (Matcher.subject v) != pattern.occursIn (Matcher.subject u)
  | _, _ => false

-- A test that does not see the change of a cell: it does not ask for a null that is gone, nor
-- for a quantity that was rounded, and its pattern is found in both texts or in none.
structure Overlooks (t : Test) (v u : Value) : Prop where
  gap : v = .null → u ≠ .null → t.asksForNull = false
  rounded : ∀ n x, v = .int n → u = .real x → t.asksForQuantity = true →
    Number.same (.int n) (.real x) = true
  texts : t.tellsTexts v u = false

end Test

namespace Table.Redrawn

variable {v u operand : Value}

theorem isNull_eq (h : Redrawn v u) (hgap : v = .null → u = .null) : v.isNull = u.isNull := by
  cases h with
  | gap => cases hgap rfl
  | _ => rfl

theorem matchesValue_eq (h : Redrawn v u) (hgap : v = .null → u ≠ .null → operand.isNull = false)
    (hrounded : ∀ n x, v = .int n → u = .real x → Number.same (.int n) (.real x) = true) :
    v.matchesValue operand = u.matchesValue operand := by
  cases h with
  | kept => rfl
  | gap =>
      rw [Value.matchesValue_null, Value.matchesValue_nan]
      exact hgap rfl (by simp [Value.real])
  | rounded n =>
      exact Value.matchesValue_number_congr
        (Number.place?_eq_of_same (hrounded n _ rfl rfl)) operand

theorem any_matchesValue_eq {wanted : List Value} (h : Redrawn v u)
    (hgap : v = .null → u ≠ .null → wanted.any Value.isNull = false)
    (hrounded : ∀ n x, v = .int n → u = .real x → Number.same (.int n) (.real x) = true) :
    wanted.any v.matchesValue = wanted.any u.matchesValue := by
  have heach : ∀ w ∈ wanted, v.matchesValue w = u.matchesValue w := fun w hw =>
    h.matchesValue_eq (fun hnull hne => Bool.eq_false_iff.mpr
      (List.any_eq_false.mp (hgap hnull hne) w hw)) hrounded
  rw [Bool.eq_iff_iff, List.any_eq_true, List.any_eq_true]
  exact exists_congr fun w => and_congr_right fun hw => by rw [heach w hw]

theorem compare_eq (h : Redrawn v u) (comparison : Comparison)
    (hrounded : ∀ n x, v = .int n → u = .real x → Number.same (.int n) (.real x) = true) :
    (Value.compare? comparison v operand).getD false =
      (Value.compare? comparison u operand).getD false := by
  cases h with
  | kept => rfl
  | gap => rw [Value.compare?_null, Value.compare?_nan]; rfl
  | rounded n =>
      have hplace := Number.place?_eq_of_same (hrounded n _ rfl rfl)
      exact congrArg (·.getD false) (Value.compare?_number_congr comparison hplace operand)

end Table.Redrawn

namespace Matcher

variable {mode : Mode} {column row other v u : Value} {test : Test} {m : Matcher}

-- A pattern that cannot be read matches nothing, where it is not refused.
theorem never_of_searchFor {operand : Value} {negated : Bool} {e : Pattern.Refusal}
    (hread : Pattern.read operand.asText = .error e)
    (hm : (searchFor mode column operand negated).result = .ok m) : m = .never := by
  unfold searchFor at hm
  rw [hread] at hm
  cases e with
  | flawed flaw position => cases mode <;> cases hm; rfl
  | tooLarge => cases hm
  | twoAlphabets => cases hm

-- A test that overlooks the change of a cell comes to the same before and after it.
theorem ofTest_accepts_eq (hm : (ofTest mode column test).result = .ok m)
    (hv : row.cell column = .ok v) (hu : other.cell column = .ok u) (h : Redrawn v u)
    (ho : test.Overlooks v u) : (m.accepts row).result = (m.accepts other).result := by
  obtain ⟨operator, operand⟩ := test
  cases operator with
  | isNull negated =>
      cases hm
      rw [accepts_isNull _ hv, accepts_isNull _ hu, h.isNull_eq]
      intro hnull
      by_contra hne
      cases ho.gap hnull hne
  | equals negated =>
      cases hm
      rw [accepts_equals _ _ hv, accepts_equals _ _ hu, h.matchesValue_eq ho.gap]
      exact fun n x hn hx => ho.rounded n x hn hx rfl
  | compare comparison =>
      cases hm
      rw [accepts_compare _ _ hv, accepts_compare _ _ hu, h.compare_eq]
      exact fun n x hn hx => ho.rounded n x hn hx rfl
  | contains negated =>
      unfold ofTest at hm
      dsimp only at hm
      split at hm
      · cases hm
        rfl
      · cases hm
        rw [accepts_contains _ _ hv, accepts_contains _ _ hu]
        cases h <;> rfl
  | search negated =>
      cases hread : Pattern.read operand.asText with
      | ok pattern =>
          have hsearch : (searchFor mode column operand negated).result = .ok m := hm
          rw [searchFor_ok hread] at hsearch
          cases hsearch
          have htexts := ho.texts
          simp only [Test.tellsTexts, hread, bne_eq_false_iff_eq] at htexts
          rw [accepts_search _ _ hv, accepts_search _ _ hu, htexts]
      | error e =>
          rw [never_of_searchFor hread hm]
          rfl
  | member negated =>
      cases hm
      rw [accepts_member _ _ hv, accepts_member _ _ hu,
        h.any_matchesValue_eq ho.gap fun n x hn hx => ho.rounded n x hn hx rfl]

end Matcher

namespace Filter.Leaf

def Overlooks (l : Leaf) (row other : Value) : Prop :=
  ∀ test, l.test = some test → ∀ v u, row.cell l.column = .ok v → other.cell l.column = .ok u →
    test.Overlooks v u

end Filter.Leaf

namespace Matcher

variable {mode : Mode} {row other : Value}

theorem ofLeaf_accepts_eq {l : Filter.Leaf} {m : Matcher}
    (hrows : ∀ column, SameUpTo Redrawn (row.cell column) (other.cell column))
    (ho : l.Overlooks row other) (hm : (ofLeaf mode l.column l.operator l.operand).result = .ok m) :
    (m.accepts row).result = (m.accepts other).result := by
  obtain ⟨column, operator, operand⟩ := l
  have hcells := hrows column
  generalize hrow : row.cell column = asked, hother : other.cell column = askedOther at hcells
  cases hcells with
  | error e =>
      -- neither row can be asked for this column, so they agree on all that the leaf asks for
      refine congrArg _ (accepts_eq m fun asked hasked => ?_)
      rw [List.mem_singleton.mp (columns_ofLeaf hm hasked), hrow, hother]
  | ok h =>
      cases operator with
      | none =>
          cases mode with
          | strict => cases hm
          | permissive =>
              cases hm
              rfl
      | some operator => exact ofTest_accepts_eq hm hrow hother h (ho _ rfl _ _ hrow hother)

mutual

-- Induction on the filter: what its leaves overlook, its groups overlook.
theorem ofFilter_accepts_eq (hrows : ∀ column, SameUpTo Redrawn (row.cell column) (other.cell column)) :
    ∀ (f : Filter) {m : Matcher}, (∀ l ∈ f.leaves, l.Overlooks row other) →
      (ofFilter mode f).result = .ok m → (m.accepts row).result = (m.accepts other).result
  | .leaf column operator operand, m, ho, hm =>
      ofLeaf_accepts_eq hrows (ho ⟨column, operator, operand⟩ (by simp [Filter.leaves])) hm
  | .all parts, m, ho, hm => by
      obtain ⟨ms, hms, h⟩ := Traced.bind_result_eq_ok_iff.mp hm
      cases h
      exact acceptsAll_congr (ofFilters_accepts_eq hrows parts ho hms)
  | .any parts, m, ho, hm => by
      obtain ⟨ms, hms, h⟩ := Traced.bind_result_eq_ok_iff.mp hm
      cases h
      exact acceptsAny_congr (ofFilters_accepts_eq hrows parts ho hms)

theorem ofFilters_accepts_eq (hrows : ∀ column, SameUpTo Redrawn (row.cell column) (other.cell column)) :
    ∀ (fs : List Filter) {ms : List Matcher}, (∀ l ∈ Filter.leavesOf fs, l.Overlooks row other) →
      (ofFilters mode fs).result = .ok ms →
      ∀ m ∈ ms, (m.accepts row).result = (m.accepts other).result
  | [], ms, _, hms => by
      cases hms
      simp
  | f :: rest, ms, ho, hms => by
      obtain ⟨first, hfirst, h⟩ := Traced.bind_result_eq_ok_iff.mp hms
      obtain ⟨others, hothers, h⟩ := Traced.bind_result_eq_ok_iff.mp h
      cases h
      rw [List.forall_mem_cons]
      exact ⟨ofFilter_accepts_eq hrows f (fun l hl => ho l (List.mem_append_left _ hl)) hfirst,
        ofFilters_accepts_eq hrows rest (fun l hl => ho l (List.mem_append_right _ hl)) hothers⟩

end

theorem readAll_accepts_eq {descriptions : List Value} {ms : List Matcher}
    (hrows : ∀ column, SameUpTo Redrawn (row.cell column) (other.cell column))
    (ho : ∀ description ∈ descriptions, ∀ f, Filter.ofValue description = .ok f →
      ∀ l ∈ f.leaves, l.Overlooks row other)
    (hms : (Selection.readAll mode descriptions).result = .ok ms) :
    ∀ m ∈ ms, (m.accepts row).result = (m.accepts other).result := by
  induction descriptions generalizing ms with
  | nil =>
      cases hms
      simp
  | cons description rest ih =>
      obtain ⟨f, hf, h⟩ := Traced.lift_bind_eq_ok_iff.mp hms
      obtain ⟨first, hfirst, h⟩ := Traced.bind_result_eq_ok_iff.mp h
      obtain ⟨others, hothers, h⟩ := Traced.bind_result_eq_ok_iff.mp h
      cases h
      rw [List.forall_mem_cons] at ho ⊢
      exact ⟨ofFilter_accepts_eq hrows f (ho.1 f hf) hfirst, ih ho.2 hothers⟩

end Matcher

end Tileboard
