import Mathlib
import Tileboard.Proofs.Filter.Negation

namespace Tileboard

namespace Filter

def group (conjunction : Bool) (parts : List Filter) : Filter :=
  if conjunction then .all parts else .any parts

-- The equality tests of a column, one for each member.
def tests (column : Value) (negated : Bool) (members : List Value) : List Filter :=
  members.map fun v => .leaf column (some (.equals negated)) v

-- One rewriting of a filter. Both kinds of group obey the same laws; of a test for membership a
-- group is made of tests for equality with the members, a conjunction if it is negated.
inductive Rewrite : Filter → Filter → Prop
  | permute (conjunction : Bool) {parts parts' : List Filter} (h : parts.Perm parts') :
      Rewrite (group conjunction parts) (group conjunction parts')
  | duplicate (conjunction : Bool) (before : List Filter) (f : Filter) (after : List Filter) :
      Rewrite (group conjunction (before ++ f :: after))
        (group conjunction (before ++ f :: f :: after))
  | flatten (conjunction : Bool) (before parts after : List Filter) :
      Rewrite (group conjunction (before ++ group conjunction parts :: after))
        (group conjunction (before ++ parts ++ after))
  | single (conjunction : Bool) (f : Filter) : Rewrite (group conjunction [f]) f
  | insert (conjunction : Bool) (before after : List Filter) :
      Rewrite (group conjunction (before ++ after))
        (group conjunction (before ++ group conjunction [] :: after))
  | distribute (conjunction : Bool) (before parts after : List Filter) :
      Rewrite (group conjunction (before ++ group (!conjunction) parts :: after))
        (group (!conjunction) (parts.map fun f => group conjunction (before ++ f :: after)))
  | expand (column : Value) (negated : Bool) (operand : Value) :
      Rewrite (.leaf column (some (.member negated)) operand)
        (group negated (tests column negated (Matcher.membersOf operand)))
  | inside (conjunction : Bool) (before : List Filter) {f f' : Filter} (after : List Filter)
      (h : Rewrite f f') :
      Rewrite (group conjunction (before ++ f :: after)) (group conjunction (before ++ f' :: after))

theorem mem_leavesOf {l : Leaf} {fs : List Filter} : l ∈ leavesOf fs ↔ ∃ f ∈ fs, l ∈ f.leaves := by
  induction fs with
  | nil => simp [leavesOf]
  | cons f rest ih => simp [leavesOf, ih]

def EveryLeaf (P : Leaf → Prop) (f : Filter) : Prop := ∀ l ∈ f.leaves, P l

theorem everyLeaf_leaf {P : Leaf → Prop} {column operand : Value}
    {operator : Option Operator} :
    EveryLeaf P (.leaf column operator operand) ↔ P ⟨column, operator, operand⟩ := by
  simp [EveryLeaf, leaves]

theorem everyLeaf_group {P : Leaf → Prop} {conjunction : Bool} {parts : List Filter} :
    EveryLeaf P (group conjunction parts) ↔ ∀ f ∈ parts, EveryLeaf P f := by
  have hleaves : (group conjunction parts).leaves = leavesOf parts := by
    cases conjunction <;> simp [group, leaves]
  unfold EveryLeaf
  rw [hleaves]
  simp only [mem_leavesOf]
  constructor
  · exact fun h f hf l hl => h l ⟨f, hf, hl⟩
  · rintro h l ⟨f, hf, hl⟩
    exact h f hf l hl

mutual

def holds (answer : Leaf → Bool) : Filter → Bool
  | .leaf column operator operand => answer ⟨column, operator, operand⟩
  | .all parts => holdsAll answer parts
  | .any parts => holdsAny answer parts

def holdsAll (answer : Leaf → Bool) : List Filter → Bool
  | [] => true
  | f :: rest => holds answer f && holdsAll answer rest

def holdsAny (answer : Leaf → Bool) : List Filter → Bool
  | [] => false
  | f :: rest => holds answer f || holdsAny answer rest

end

section Laws

variable {answer : Leaf → Bool} {conjunction : Bool}

theorem holds_group_iff {parts : List Filter} : holds answer (group conjunction parts) = conjunction ↔
    ∀ f ∈ parts, holds answer f = conjunction := by
  induction parts with
  | nil => cases conjunction <;> simp [group, holds, holdsAll, holdsAny]
  | cons f rest ih =>
      rw [List.forall_mem_cons, ← ih]
      cases conjunction <;> simp [group, holds, holdsAll, holdsAny]

theorem holds_opposite_iff {parts : List Filter} :
    holds answer (group (!conjunction) parts) = conjunction ↔
      ∃ f ∈ parts, holds answer f = conjunction := by
  have hall : holds answer (group (!conjunction) parts) = (!conjunction) ↔
      ∀ f ∈ parts, holds answer f = !conjunction := holds_group_iff
  rw [← not_iff_not] at hall
  simpa [← Bool.eq_not] using hall

theorem eq_of_iff (conjunction : Bool) {x y : Bool} (h : x = conjunction ↔ y = conjunction) : x = y := by
  cases x <;> cases y <;> cases conjunction <;> simp_all

-- Both sides come to the kind of the outer group exactly if all before and after and one of the
-- parts do.
theorem holds_distribute (before parts after : List Filter) :
    holds answer (group (!conjunction)
      (parts.map fun f => group conjunction (before ++ f :: after))) =
    holds answer (group conjunction (before ++ group (!conjunction) parts :: after)) := by
  apply eq_of_iff conjunction
  rw [holds_opposite_iff, holds_group_iff]
  simp only [List.mem_map, exists_exists_and_eq_and, List.forall_mem_append, List.forall_mem_cons,
    holds_group_iff, holds_opposite_iff]
  constructor
  · rintro ⟨f, hf, hbefore, hholds, hafter⟩
    exact ⟨hbefore, ⟨f, hf, hholds⟩, hafter⟩
  · rintro ⟨hbefore, ⟨f, hf, hholds⟩, hafter⟩
    exact ⟨f, hf, hbefore, hholds, hafter⟩

end Laws

def Leaf.result (mode : Mode) (row : Value) (l : Leaf) : Except Fault Bool := do
  let m ← (Matcher.ofLeaf mode l.column l.operator l.operand).result
  (m.accepts row).result

def Leaf.Answers (mode : Mode) (row : Value) (l : Leaf) : Prop := ∃ answer, l.result mode row = .ok answer

def Leaf.answer (mode : Mode) (row : Value) (l : Leaf) : Bool := (l.result mode row).toOption.getD false

section Members

variable {mode : Mode} {row column operand : Value} {negated : Bool}

theorem result_equals (v : Value) :
    Leaf.result mode row ⟨column, some (.equals negated), v⟩ =
      (row.cell column).map fun cell => cell.matchesValue v != negated :=
  show Matcher.outcome mode column (.equals negated) v row = _ from Matcher.outcome_equals negated

theorem result_member : Leaf.result mode row ⟨column, some (.member negated), operand⟩ =
    (row.cell column).map fun cell =>
      (Matcher.membersOf operand).any cell.matchesValue != negated :=
  show Matcher.outcome mode column (.member negated) operand row = _ from
    Matcher.outcome_member negated

-- A test for membership comes to an answer where the row has a cell, and so do the tests for
-- equality it is expanded to.
theorem expand_answers
    (h : Leaf.Answers mode row ⟨column, some (.member negated), operand⟩) :
    EveryLeaf (Leaf.Answers mode row)
        (group negated (tests column negated (Matcher.membersOf operand))) ∧
      holds (Leaf.answer mode row) (group negated (tests column negated (Matcher.membersOf operand))) =
        Leaf.answer mode row ⟨column, some (.member negated), operand⟩ := by
  obtain ⟨answer, h⟩ := h
  rw [result_member, map_eq_ok_iff] at h
  obtain ⟨cell, hcell, -⟩ := h
  constructor
  · rw [everyLeaf_group, tests, List.forall_mem_map]
    intro v hv
    rw [everyLeaf_leaf]
    exact ⟨_, by rw [result_equals, hcell]; rfl⟩
  · have hbne : ∀ x, (x != negated) = negated ↔ x = false := by
      intro x
      cases x <;> cases negated <;> decide
    apply eq_of_iff negated
    rw [holds_group_iff, tests, List.forall_mem_map]
    simp only [holds, Leaf.answer, result_equals, result_member, hcell, Except.map]
    simp [Except.toOption, hbne]

end Members

variable {f g : Filter} {mode : Mode} {row : Value}

-- What a rewriting within one group has to show: that all parts have a property before as they have
-- it afterwards, if a group has it exactly with all its parts.
theorem group_keeps_answer {conjunction : Bool} {parts parts' : List Filter}
    (hparts : ∀ P : Filter → Prop, (∀ fs, P (group conjunction fs) ↔ ∀ f ∈ fs, P f) →
      ((∀ f ∈ parts', P f) ↔ ∀ f ∈ parts, P f))
    (hleaves : EveryLeaf (Leaf.Answers mode row) (group conjunction parts)) :
    EveryLeaf (Leaf.Answers mode row) (group conjunction parts') ∧
      holds (Leaf.answer mode row) (group conjunction parts') =
        holds (Leaf.answer mode row) (group conjunction parts) := by
  constructor
  · rw [everyLeaf_group] at hleaves ⊢
    exact (hparts _ fun fs => everyLeaf_group).mpr hleaves
  · apply eq_of_iff conjunction
    rw [holds_group_iff, holds_group_iff]
    exact hparts _ fun fs => holds_group_iff

theorem Rewrite.keeps_answer (h : Rewrite f g) (hleaves : EveryLeaf (Leaf.Answers mode row) f) :
    EveryLeaf (Leaf.Answers mode row) g ∧
      holds (Leaf.answer mode row) g = holds (Leaf.answer mode row) f := by
  induction h with
  | permute conjunction hperm =>
      exact group_keeps_answer (fun P _ => by simp only [hperm.mem_iff]) hleaves
  | duplicate conjunction before f after =>
      exact group_keeps_answer (fun P _ => by simp) hleaves
  | flatten conjunction before parts after =>
      refine group_keeps_answer (fun P hP => ?_) hleaves
      simp only [List.forall_mem_append, List.forall_mem_cons, hP, and_assoc]
  | single conjunction f =>
      refine ⟨everyLeaf_group.mp hleaves f (List.mem_singleton_self f), ?_⟩
      apply eq_of_iff conjunction
      simp [holds_group_iff]
  | insert conjunction before after =>
      refine group_keeps_answer (fun P hP => ?_) hleaves
      have hempty : P (group conjunction []) := (hP []).mpr (by simp)
      simp only [List.forall_mem_append, List.forall_mem_cons, hempty, true_and]
  | distribute conjunction before parts after =>
      refine ⟨?_, holds_distribute before parts after⟩
      simp only [everyLeaf_group, List.forall_mem_append, List.forall_mem_cons,
        List.forall_mem_map] at hleaves ⊢
      exact fun f hf => ⟨hleaves.1, hleaves.2.1 f hf, hleaves.2.2⟩
  | expand column negated operand => exact expand_answers (everyLeaf_leaf.mp hleaves)
  | inside conjunction before after _ ih =>
      simp only [everyLeaf_group, List.forall_mem_append, List.forall_mem_cons] at hleaves ⊢
      obtain ⟨hf, hsame⟩ := ih hleaves.2.1
      refine ⟨⟨hleaves.1, hf, hleaves.2.2⟩, ?_⟩
      apply eq_of_iff conjunction
      simp only [holds_group_iff, List.forall_mem_append, List.forall_mem_cons, hsame]

theorem rewrites_keep_answer (h : Relation.ReflTransGen Rewrite f g)
    (hleaves : EveryLeaf (Leaf.Answers mode row) f) : EveryLeaf (Leaf.Answers mode row) g ∧
      holds (Leaf.answer mode row) g = holds (Leaf.answer mode row) f := by
  induction h with
  | refl => exact ⟨hleaves, rfl⟩
  | tail _ hstep ih =>
      obtain ⟨hmiddle, hsame⟩ := ih
      obtain ⟨hlast, hsame'⟩ := hstep.keeps_answer hmiddle
      exact ⟨hlast, hsame'.trans hsame⟩

end Filter

namespace Matcher

open Tileboard.Filter (Leaf)

variable {mode : Mode} {row : Value}

theorem ofLeaf_of_answers {l : Leaf} (h : l.Answers mode row) :
    ∃ m, (ofLeaf mode l.column l.operator l.operand).result = .ok m ∧
      (m.accepts row).result = .ok (l.answer mode row) := by
  obtain ⟨answer, h⟩ := h
  obtain ⟨m, hm, haccepts⟩ := bind_eq_ok_iff.mp h
  refine ⟨m, hm, ?_⟩
  rw [haccepts, Leaf.answer, h]
  rfl

mutual

-- Induction on the filter: with all leaves the whole is made ready, and its matcher answers as the
-- filter holds.
theorem ofFilter_of_answers : ∀ f : Filter, f.EveryLeaf (Leaf.Answers mode row) →
    ∃ m, (ofFilter mode f).result = .ok m ∧
      (m.accepts row).result = .ok (f.holds (Leaf.answer mode row))
  | .leaf _ _ _, h => by
      rw [ofFilter, Filter.holds]
      exact ofLeaf_of_answers (Filter.everyLeaf_leaf.mp h)
  | .all parts, h => by
      obtain ⟨ms, hms, hall, -⟩ := ofFilters_of_answers parts
        (Filter.everyLeaf_group.mp (show Filter.EveryLeaf _ (Filter.group true parts) from h))
      exact ⟨.all ms, Traced.bind_result_eq_ok_iff.mpr ⟨ms, hms, rfl⟩, hall⟩
  | .any parts, h => by
      obtain ⟨ms, hms, -, hany⟩ := ofFilters_of_answers parts
        (Filter.everyLeaf_group.mp (show Filter.EveryLeaf _ (Filter.group false parts) from h))
      exact ⟨.any ms, Traced.bind_result_eq_ok_iff.mpr ⟨ms, hms, rfl⟩, hany⟩

theorem ofFilters_of_answers : ∀ fs : List Filter,
    (∀ f ∈ fs, f.EveryLeaf (Leaf.Answers mode row)) → ∃ ms, (ofFilters mode fs).result = .ok ms ∧
      (acceptsAll ms row).result = .ok (Filter.holdsAll (Leaf.answer mode row) fs) ∧
      (acceptsAny ms row).result = .ok (Filter.holdsAny (Leaf.answer mode row) fs)
  | [], _ => ⟨[], rfl, rfl, rfl⟩
  | f :: rest, h => by
      rw [List.forall_mem_cons] at h
      obtain ⟨m, hm, haccepts⟩ := ofFilter_of_answers f h.1
      obtain ⟨ms, hms, hall, hany⟩ := ofFilters_of_answers rest h.2
      refine ⟨m :: ms, ?_, ?_, ?_⟩
      · exact Traced.bind_result_eq_ok_iff.mpr
          ⟨m, hm, Traced.bind_result_eq_ok_iff.mpr ⟨ms, hms, rfl⟩⟩
      · rw [acceptsAll, Traced.result_bind, haccepts, ok_bind, Filter.holdsAll]
        cases f.holds (Leaf.answer mode row) with
        | false => rfl
        | true => exact hall
      · rw [acceptsAny, Traced.result_bind, haccepts, ok_bind, Filter.holdsAny]
        cases f.holds (Leaf.answer mode row) with
        | false => exact hany
        | true => rfl

end

mutual

theorem ofLeaf_of_ofFilter : ∀ (f : Filter) (m : Matcher), (ofFilter mode f).result = .ok m →
    ∀ l ∈ f.leaves, ∃ n, (ofLeaf mode l.column l.operator l.operand).result = .ok n
  | .leaf _ _ _, m, h => by
      intro l hl
      rw [Filter.leaves, List.mem_singleton] at hl
      subst hl
      exact ⟨m, h⟩
  | .all parts, m, h => by
      obtain ⟨ms, hms, -⟩ := Traced.bind_result_eq_ok_iff.mp h
      exact ofLeaf_of_ofFilters parts ms hms
  | .any parts, m, h => by
      obtain ⟨ms, hms, -⟩ := Traced.bind_result_eq_ok_iff.mp h
      exact ofLeaf_of_ofFilters parts ms hms

theorem ofLeaf_of_ofFilters : ∀ (fs : List Filter) (ms : List Matcher),
    (ofFilters mode fs).result = .ok ms →
    ∀ l ∈ Filter.leavesOf fs, ∃ n, (ofLeaf mode l.column l.operator l.operand).result = .ok n
  | [], _, _ => by simp [Filter.leavesOf]
  | f :: rest, ms, h => by
      obtain ⟨m, hm, h⟩ := Traced.bind_result_eq_ok_iff.mp h
      obtain ⟨others, hothers, -⟩ := Traced.bind_result_eq_ok_iff.mp h
      rw [Filter.leavesOf, List.forall_mem_append]
      exact ⟨ofLeaf_of_ofFilter f m hm, ofLeaf_of_ofFilters rest others hothers⟩

end

-- However often a filter is rewritten, it is still made ready, and its matcher answers a record as
-- before if no leaf of the first filter stops there.
theorem rewritten_answers_alike {f g : Filter} {m : Matcher}
    (hrewrites : Relation.ReflTransGen Filter.Rewrite f g) (hm : (ofFilter mode f).result = .ok m)
    (hleaves : ∀ l ∈ f.leaves, ∀ n, (ofLeaf mode l.column l.operator l.operand).result = .ok n →
      (n.accepts row).Answers) :
    ∃ n answer, (ofFilter mode g).result = .ok n ∧ (m.accepts row).result = .ok answer ∧
      (n.accepts row).result = .ok answer := by
  have hanswers : f.EveryLeaf (Leaf.Answers mode row) := by
    intro l hl
    obtain ⟨n, hn⟩ := ofLeaf_of_ofFilter f m hm l hl
    obtain ⟨answer, haccepts⟩ := hleaves l hl n hn
    exact ⟨answer, bind_eq_ok_iff.mpr ⟨n, hn, haccepts⟩⟩
  obtain ⟨hanswers', hsame⟩ := Filter.rewrites_keep_answer hrewrites hanswers
  obtain ⟨m', hm', haccepts⟩ := ofFilter_of_answers f hanswers
  obtain ⟨n, hn, haccepts'⟩ := ofFilter_of_answers g hanswers'
  rw [hm, Except.ok.injEq] at hm'
  subst hm'
  exact ⟨n, _, hn, haccepts, by rw [haccepts', hsame]⟩

-- A choice of two texts, spread over the test beside it and turned round.
def overdue : Test := ⟨.compare .greater, .int 3⟩

def urgent : Filter := .all [
  .leaf (.text "status") (some (.member false)) (.list [.text "Late ", .text "lost"]),
  .leaf (.text "days") (some overdue.operator) overdue.operand]

def urgentSpread : Filter := .any [
  .all [.leaf (.text "status") (some (.equals false)) (.text "lost"),
    .leaf (.text "days") (some overdue.operator) overdue.operand],
  .all [.leaf (.text "status") (some (.equals false)) (.text "Late "),
    .leaf (.text "days") (some overdue.operator) overdue.operand]]

def lateRow : Value := .object [("status", .text "LATE"), ("days", .real (.ofInt 4))]

theorem urgentSpread_accepts : ∃ n, (ofFilter .strict urgentSpread).result = .ok n ∧
    (n.accepts lateRow).result = .ok true := by
  have hexpand : Filter.Rewrite urgent (Filter.group true ([] ++ Filter.group false
      (Filter.tests (.text "status") false [.text "Late ", .text "lost"]) ::
        [.leaf (.text "days") (some overdue.operator) overdue.operand])) :=
    .inside true [] _ (.expand (.text "status") false (.list [.text "Late ", .text "lost"]))
  have hrewrites : Relation.ReflTransGen Filter.Rewrite urgent urgentSpread :=
    .tail (.tail (.single hexpand) (.distribute true [] _ _)) (.permute false (.swap _ _ []))
  have hready : (ofFilter .strict urgent).result = .ok (.all
      [.member (.text "status") [.text "Late ", .text "lost"] false,
        .compare (.text "days") .greater (.int 3)]) := rfl
  have hleaves : ∀ l ∈ urgent.leaves, ∀ n, (ofLeaf .strict l.column l.operator l.operand).result = .ok n →
      (n.accepts lateRow).Answers := by
    intro l hl n hn
    simp only [urgent, Filter.leaves, Filter.leavesOf, List.append_nil, List.cons_append,
      List.nil_append, List.mem_cons, List.not_mem_nil, or_false] at hl
    rcases hl with rfl | rfl
    · cases hn
      exact ⟨_, accepts_member _ _ rfl⟩
    · cases hn
      exact ⟨_, accepts_compare _ _ rfl⟩
  obtain ⟨n, answer, hn, hbefore, hafter⟩ := rewritten_answers_alike hrewrites hready hleaves
  have hpasses : (acceptsAll [.member (.text "status") [.text "Late ", .text "lost"] false,
      .compare (.text "days") .greater (.int 3)] lateRow).isTrue = true := by decide +kernel
  have hanswer : answer = true := (Traced.isTrue_of_ok hbefore).symm.trans hpasses
  exact ⟨n, hn, hanswer ▸ hafter⟩

end Matcher

end Tileboard
