import Mathlib
import Tileboard.Filter.Matcher
import Tileboard.Proofs.Computation

namespace Tileboard

namespace Filter

structure Leaf where
  column : Value
  operator : Option Operator
  operand : Value

mutual

def leaves : Filter → List Leaf
  | .leaf column operator operand => [⟨column, operator, operand⟩]
  | .all parts => leavesOf parts
  | .any parts => leavesOf parts

def leavesOf : List Filter → List Leaf
  | [] => []
  | f :: rest => leaves f ++ leavesOf rest

end

namespace Leaf

def test (l : Leaf) : Option Test := l.operator.map fun operator => ⟨operator, l.operand⟩

def searched? (l : Leaf) : Option Value :=
  match l.test with
  | some ⟨.search _, operand⟩ => some operand
  | _ => none

def flaw? (operand : Value) : Option Fault :=
  match Pattern.read operand.asText with
  | .error (.flawed flaw position) =>
      some (.badPattern operand (Pattern.flawText operand.asText flaw position))
  | _ => none

-- What a strict reading refuses a leaf with: one that asks nothing, or one whose pattern
-- is flawed.
def refusal? (l : Leaf) : Option Fault :=
  if l.test.isNone then some (.noOperator l.column) else l.searched?.bind flaw?

-- The pattern of the leaf, if it has one, can be read or is flawed. What is left out is a
-- pattern that is refused for its size or its flags.
def Decided (l : Leaf) : Prop :=
  ∀ operand, l.searched? = some operand →
    (∃ pattern, Pattern.read operand.asText = .ok pattern) ∨ (flaw? operand).isSome

theorem refusal?_isSome_iff {l : Leaf} : l.refusal?.isSome ↔
    l.test = none ∨ ∃ operand, l.searched? = some operand ∧ (flaw? operand).isSome := by
  unfold refusal?
  cases htest : l.test with
  | none => simp
  | some test => simp [Option.isSome_bind, Option.any_eq_true]

theorem flaw?_eq_none_of_read {operand : Value} {pattern : Pattern.Compiled}
    (h : Pattern.read operand.asText = .ok pattern) : flaw? operand = none := by
  unfold flaw?
  rw [h]

theorem kind_of_refusal? {l : Leaf} {e : Fault} (h : l.refusal? = some e) :
    e.kind = "FilterError" := by
  unfold refusal? at h
  split at h
  · cases h
    rfl
  · obtain ⟨operand, -, h⟩ := Option.bind_eq_some_iff.mp h
    unfold flaw? at h
    split at h
    · cases h
      rfl
    · cases h

end Leaf

end Filter

open Tileboard.Filter (Leaf)

namespace Matcher

-- A pattern that is read serves both modes; a flawed one divides them.
theorem searchFor_ok {column operand : Value} {negated : Bool} {pattern : Pattern.Compiled}
    (h : Pattern.read operand.asText = .ok pattern) (mode : Mode) :
    searchFor mode column operand negated = pure (.search column pattern negated) := by
  unfold searchFor
  rw [h]

theorem searchFor_flawed {column operand : Value} {negated : Bool} {e : Fault}
    (h : Leaf.flaw? operand = some e) :
    (searchFor .strict column operand negated).result = .error e ∧
      (searchFor .permissive column operand negated).result = .ok .never := by
  unfold Leaf.flaw? at h
  unfold searchFor
  split at h
  · rename_i flaw position hread
    cases h
    rw [hread]
    exact ⟨rfl, rfl⟩
  · cases h

variable {column operand : Value} {operator : Option Operator}

theorem ofLeaf_permissive_ok (h : Leaf.Decided ⟨column, operator, operand⟩) :
    ∃ m, (ofLeaf .permissive column operator operand).result = .ok m := by
  cases operator with
  | none => exact ⟨.always, rfl⟩
  | some operator =>
      cases operator with
      | contains negated =>
          unfold ofLeaf ofTest
          dsimp only
          split
          · exact ⟨.never, rfl⟩
          · exact ⟨_, rfl⟩
      | search negated =>
          change ∃ m, (searchFor .permissive column operand negated).result = .ok m
          rcases h operand rfl with ⟨pattern, hread⟩ | hflaw
          · exact ⟨_, by rw [searchFor_ok hread]; rfl⟩
          · obtain ⟨e, hflaw⟩ := Option.isSome_iff_exists.mp hflaw
            exact ⟨_, (searchFor_flawed hflaw).2⟩
      | _ => exact ⟨_, rfl⟩

theorem ofLeaf_strict_refused {e : Fault}
    (h : Leaf.refusal? ⟨column, operator, operand⟩ = some e) :
    (ofLeaf .strict column operator operand).result = .error e := by
  cases operator with
  | none =>
      cases h
      rfl
  | some operator =>
      cases operator with
      | search negated => exact (searchFor_flawed h).1
      | _ => cases h

theorem ofLeaf_strict_eq (hdecided : Leaf.Decided ⟨column, operator, operand⟩)
    (h : Leaf.refusal? ⟨column, operator, operand⟩ = none) :
    ofLeaf .strict column operator operand = ofLeaf .permissive column operator operand := by
  cases operator with
  | none => cases h
  | some operator =>
      cases operator with
      | search negated =>
          rcases hdecided operand rfl with ⟨pattern, hread⟩ | hflaw
          · exact (searchFor_ok hread .strict).trans (searchFor_ok hread .permissive).symm
          · have hnone : Leaf.flaw? operand = none := h
            rw [hnone] at hflaw
            cases hflaw
      | _ => rfl

mutual

-- Induction on the filter: whatever its leaves are, a permissive reading comes to an end.
theorem ofFilter_permissive_ok : ∀ (f : Filter), (∀ l ∈ f.leaves, l.Decided) →
    ∃ m, (ofFilter .permissive f).result = .ok m
  | .leaf _ _ _, h => ofLeaf_permissive_ok (h _ (by simp [Filter.leaves]))
  | .all parts, h => by
      obtain ⟨ms, hms⟩ := ofFilters_permissive_ok parts h
      exact ⟨.all ms, Traced.bind_result_eq_ok_iff.mpr ⟨ms, hms, rfl⟩⟩
  | .any parts, h => by
      obtain ⟨ms, hms⟩ := ofFilters_permissive_ok parts h
      exact ⟨.any ms, Traced.bind_result_eq_ok_iff.mpr ⟨ms, hms, rfl⟩⟩

theorem ofFilters_permissive_ok : ∀ (fs : List Filter), (∀ l ∈ Filter.leavesOf fs, l.Decided) →
    ∃ ms, (ofFilters .permissive fs).result = .ok ms
  | [], _ => ⟨[], rfl⟩
  | f :: rest, h => by
      obtain ⟨m, hm⟩ := ofFilter_permissive_ok f fun l hl => h l (List.mem_append_left _ hl)
      obtain ⟨ms, hms⟩ := ofFilters_permissive_ok rest fun l hl => h l (List.mem_append_right _ hl)
      exact ⟨m :: ms, Traced.bind_result_eq_ok_iff.mpr
        ⟨m, hm, Traced.bind_result_eq_ok_iff.mpr ⟨ms, hms, rfl⟩⟩⟩

end

mutual

-- Without a leaf that is refused the two modes do the same, notes included.
theorem ofFilter_strict_eq : ∀ (f : Filter), (∀ l ∈ f.leaves, l.Decided) →
    f.leaves.findSome? Leaf.refusal? = none → ofFilter .strict f = ofFilter .permissive f
  | .leaf _ _ _, hdecided, h => by
      rw [ofFilter, ofFilter]
      exact ofLeaf_strict_eq (hdecided _ (by simp [Filter.leaves]))
        (by simpa [Filter.leaves] using h)
  | .all parts, hdecided, h => by rw [ofFilter, ofFilter, ofFilters_strict_eq parts hdecided h]
  | .any parts, hdecided, h => by rw [ofFilter, ofFilter, ofFilters_strict_eq parts hdecided h]

theorem ofFilters_strict_eq : ∀ (fs : List Filter), (∀ l ∈ Filter.leavesOf fs, l.Decided) →
    (Filter.leavesOf fs).findSome? Leaf.refusal? = none →
      ofFilters .strict fs = ofFilters .permissive fs
  | [], _, _ => rfl
  | f :: rest, hdecided, h => by
      rw [Filter.leavesOf, List.findSome?_append, Option.or_eq_none_iff] at h
      rw [ofFilters, ofFilters,
        ofFilter_strict_eq f (fun l hl => hdecided l (List.mem_append_left _ hl)) h.1,
        ofFilters_strict_eq rest (fun l hl => hdecided l (List.mem_append_right _ hl)) h.2]

end

mutual

-- The parts before the first leaf that is refused are read, so its fault is the one that
-- comes out.
theorem ofFilter_strict_refused {e : Fault} : ∀ (f : Filter), (∀ l ∈ f.leaves, l.Decided) →
    f.leaves.findSome? Leaf.refusal? = some e → (ofFilter .strict f).result = .error e
  | .leaf _ _ _, _, h => ofLeaf_strict_refused (by simpa [Filter.leaves] using h)
  | .all parts, hdecided, h => by
      rw [ofFilter, Traced.result_bind, ofFilters_strict_refused parts hdecided h]
      rfl
  | .any parts, hdecided, h => by
      rw [ofFilter, Traced.result_bind, ofFilters_strict_refused parts hdecided h]
      rfl

theorem ofFilters_strict_refused {e : Fault} : ∀ (fs : List Filter),
    (∀ l ∈ Filter.leavesOf fs, l.Decided) →
    (Filter.leavesOf fs).findSome? Leaf.refusal? = some e →
      (ofFilters .strict fs).result = .error e
  | [], _, h => by cases h
  | f :: rest, hdecided, h => by
      have hfirst : ∀ l ∈ f.leaves, l.Decided := fun l hl => hdecided l (List.mem_append_left _ hl)
      rw [Filter.leavesOf, List.findSome?_append, Option.or_eq_some_iff] at h
      rw [ofFilters, Traced.result_bind]
      rcases h with h | ⟨hnone, h⟩
      · rw [ofFilter_strict_refused f hfirst h]
        rfl
      · obtain ⟨m, hm⟩ := ofFilter_permissive_ok f hfirst
        rw [ofFilter_strict_eq f hfirst hnone, hm, ok_bind, Traced.result_bind,
          ofFilters_strict_refused rest (fun l hl => hdecided l (List.mem_append_right _ hl)) h]
        rfl

end

theorem ofFilter_strict_eq_error_iff {f : Filter} {e : Fault} (hdecided : ∀ l ∈ f.leaves, l.Decided) :
    (ofFilter .strict f).result = .error e ↔ f.leaves.findSome? Leaf.refusal? = some e := by
  constructor
  · intro h
    cases hfirst : f.leaves.findSome? Leaf.refusal? with
    | some e' =>
        rw [ofFilter_strict_refused f hdecided hfirst] at h
        cases h
        rfl
    | none =>
        obtain ⟨m, hm⟩ := ofFilter_permissive_ok f hdecided
        rw [ofFilter_strict_eq f hdecided hfirst, hm] at h
        cases h
  · exact ofFilter_strict_refused f hdecided

-- What a strict reading comes to, every reading comes to.
theorem ofLeaf_of_strict {m : Matcher}
    (h : (ofLeaf .strict column operator operand).result = .ok m) :
    (ofLeaf .permissive column operator operand).result = .ok m := by
  cases operator with
  | none => cases h
  | some operator =>
      cases operator with
      | search negated =>
          change (searchFor .strict column operand negated).result = .ok m at h
          change (searchFor .permissive column operand negated).result = .ok m
          cases hread : Pattern.read operand.asText with
          | ok pattern => rwa [searchFor_ok hread] at h ⊢
          | error reason =>
              unfold searchFor at h
              rw [hread] at h
              cases reason <;> cases h
      | _ => exact h

mutual

theorem ofFilter_of_strict : ∀ (f : Filter) {m : Matcher},
    (ofFilter .strict f).result = .ok m → (ofFilter .permissive f).result = .ok m
  | .leaf _ _ _, _, h => ofLeaf_of_strict h
  | .all parts, _, h => by
      obtain ⟨ms, hms, h⟩ := Traced.bind_result_eq_ok_iff.mp h
      exact Traced.bind_result_eq_ok_iff.mpr ⟨ms, ofFilters_of_strict parts hms, h⟩
  | .any parts, _, h => by
      obtain ⟨ms, hms, h⟩ := Traced.bind_result_eq_ok_iff.mp h
      exact Traced.bind_result_eq_ok_iff.mpr ⟨ms, ofFilters_of_strict parts hms, h⟩

theorem ofFilters_of_strict : ∀ (fs : List Filter) {ms : List Matcher},
    (ofFilters .strict fs).result = .ok ms → (ofFilters .permissive fs).result = .ok ms
  | [], _, h => h
  | f :: rest, _, h => by
      obtain ⟨m, hm, h⟩ := Traced.bind_result_eq_ok_iff.mp h
      obtain ⟨ms, hms, h⟩ := Traced.bind_result_eq_ok_iff.mp h
      exact Traced.bind_result_eq_ok_iff.mpr ⟨m, ofFilter_of_strict f hm,
        Traced.bind_result_eq_ok_iff.mpr ⟨ms, ofFilters_of_strict rest hms, h⟩⟩

end

-- Two readings that both come to a matcher come to the same, whatever their modes.
theorem ofFilter_unique {mode other : Mode} {f : Filter} {m n : Matcher}
    (h : (ofFilter mode f).result = .ok m) (hother : (ofFilter other f).result = .ok n) : m = n := by
  have hpermissive : ∀ {mode : Mode} {m : Matcher}, (ofFilter mode f).result = .ok m →
      (ofFilter .permissive f).result = .ok m := by
    intro mode m h
    cases mode with
    | permissive => exact h
    | strict => exact ofFilter_of_strict f h
  exact Except.ok.inj ((hpermissive h).symm.trans (hpermissive hother))

-- A permissive reading always comes to a matcher. A strict one stops exactly when a leaf
-- asks nothing or has a flawed pattern, at the first such leaf; and where it does not stop,
-- its matcher answers every record as the permissive one does.
theorem strict_restricts_permissive (f : Filter) (hdecided : ∀ l ∈ f.leaves, l.Decided) :
    (∃ m, (ofFilter .permissive f).result = .ok m) ∧
    (∀ e, (ofFilter .strict f).result = .error e ↔
      ∃ before l after, f.leaves = before ++ l :: after ∧ l.refusal? = some e ∧
        ∀ earlier ∈ before, earlier.refusal? = none) ∧
    ((∃ e, e.kind = "FilterError" ∧ (ofFilter .strict f).result = .error e) ↔
      ∃ l ∈ f.leaves, l.test = none ∨
        ∃ operand, l.searched? = some operand ∧ (Leaf.flaw? operand).isSome) ∧
    (∀ strict permissive, (ofFilter .strict f).result = .ok strict →
      (ofFilter .permissive f).result = .ok permissive →
      ∀ row, strict.accepts row = permissive.accepts row) := by
  refine ⟨ofFilter_permissive_ok f hdecided, ?_, ?_, ?_⟩
  · intro e
    rw [ofFilter_strict_eq_error_iff hdecided, List.findSome?_eq_some_iff]
  · simp only [ofFilter_strict_eq_error_iff hdecided, ← Leaf.refusal?_isSome_iff]
    rw [← List.findSome?_isSome_iff, Option.isSome_iff_exists]
    constructor
    · rintro ⟨e, -, h⟩
      exact ⟨e, h⟩
    · rintro ⟨e, h⟩
      obtain ⟨l, -, hl⟩ := List.exists_of_findSome?_eq_some h
      exact ⟨e, Leaf.kind_of_refusal? hl, h⟩
  · intro strict permissive hstrict hpermissive row
    have hnone : f.leaves.findSome? Leaf.refusal? = none := by
      cases hfirst : f.leaves.findSome? Leaf.refusal? with
      | none => rfl
      | some e =>
          rw [ofFilter_strict_refused f hdecided hfirst] at hstrict
          cases hstrict
    rw [ofFilter_strict_eq f hdecided hnone, hpermissive] at hstrict
    cases hstrict
    rfl

-- A choice that is decided by its first part, with a flawed pattern and a leaf that asks
-- nothing behind it.
def doubtful : Filter :=
  .any [.all [], .leaf (.text "status") (some (.search true)) (.text "^late"),
    .all [.leaf (.text "note") (some (.search false)) (.text "("),
      .leaf (.text "day") none .null]]

theorem doubtful_refused :
    (∃ m, (ofFilter .permissive doubtful).result = .ok m) ∧
    (ofFilter .strict doubtful).result =
      .error (.badPattern (.text "(") "missing ), unterminated subpattern at position 0") := by
  have hread : ∃ pattern, Pattern.read "^late" = .ok pattern := eq_ok_of_isOk (by decide +kernel)
  have hflaw : Leaf.flaw? (.text "(") =
      some (.badPattern (.text "(") "missing ), unterminated subpattern at position 0") := by
    have hopen : Pattern.read "(" = .error (.flawed .unterminatedGroup (some 0)) := by cbv
    have htext : Pattern.flawText "(" .unterminatedGroup (some 0) =
        "missing ), unterminated subpattern at position 0" := by decide +kernel
    rw [← htext]
    unfold Leaf.flaw?
    rw [Value.asText, hopen]
  have hdecided : ∀ l ∈ doubtful.leaves, l.Decided := by
    intro l hl operand hoperand
    simp only [doubtful, Filter.leaves, Filter.leavesOf, List.append_nil, List.nil_append,
      List.cons_append, List.mem_cons, List.not_mem_nil, or_false] at hl
    rcases hl with rfl | rfl | rfl
    · cases hoperand
      exact .inl hread
    · cases hoperand
      exact .inr (by rw [hflaw]; rfl)
    · cases hoperand
  have hearlier : Leaf.refusal? ⟨.text "status", some (.search true), .text "^late"⟩ = none := by
    obtain ⟨pattern, hread⟩ := hread
    have hsound : Leaf.flaw? (.text "^late") = none := Leaf.flaw?_eq_none_of_read hread
    exact hsound
  obtain ⟨hpermissive, hstrict, -⟩ := strict_restricts_permissive doubtful hdecided
  refine ⟨hpermissive, (hstrict _).mpr ?_⟩
  exact ⟨[⟨.text "status", some (.search true), .text "^late"⟩],
    ⟨.text "note", some (.search false), .text "("⟩, [⟨.text "day", none, .null⟩], rfl, hflaw,
    by simpa using hearlier⟩

end Matcher

end Tileboard
