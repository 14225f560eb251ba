import Tileboard.Filter.Selection
import Tileboard.Proofs.Computation

namespace Tileboard

namespace Traced

def Answers (x : Traced Bool) : Prop := ∃ answer, x.result = .ok answer

def isTrue (x : Traced Bool) : Bool :=
  match x.result with
  | .ok answer => answer
  | .error _ => false

variable {x : Traced Bool} {answer : Bool}

theorem isTrue_of_ok (h : x.result = .ok answer) : x.isTrue = answer := by
  rw [isTrue, h]

theorem ok_of_isTrue (h : x.isTrue = true) : x.result = .ok true := by
  cases hresult : x.result with
  | ok answer => rw [← isTrue_of_ok hresult, h]
  | error e => simp [isTrue, hresult] at h

theorem Answers.result_eq (h : x.Answers) : x.result = .ok x.isTrue := by
  obtain ⟨answer, h⟩ := h
  rw [isTrue_of_ok h, h]

end Traced

theorem Value.cell_of_record {row : Value} (h : ∃ fields, row = .object fields) (name : String) :
    row.cell (.text name) = .ok (row.field name) := by
  obtain ⟨fields, rfl⟩ := h
  rfl

namespace Selection

variable {α : Type} {test : α → Traced Bool} {items : List α}

theorem keep_eq_filter (h : ∀ a ∈ items, (test a).Answers) :
    (keep test items).result = .ok (items.filter fun a => (test a).isTrue) := by
  induction items with
  | nil => rfl
  | cons a rest ih =>
      have ha := (h a List.mem_cons_self).result_eq
      have hrest := ih fun b hb => h b (List.mem_cons_of_mem _ hb)
      rw [keep, Traced.result_bind, ha, ok_bind, List.filter_cons]
      cases (test a).isTrue with
      | false => exact hrest
      | true =>
          simp only [if_true]
          rw [Traced.result_bind, hrest]
          rfl

theorem keep_eq_ok {kept : List α} (h : (keep test items).result = .ok kept) :
    (∀ a ∈ items, (test a).Answers) ∧ kept = items.filter fun a => (test a).isTrue := by
  have hanswers : ∀ a ∈ items, (test a).Answers := by
    induction items generalizing kept with
    | nil => simp
    | cons a rest ih =>
        rw [keep] at h
        obtain ⟨answer, ha, h⟩ := Traced.bind_result_eq_ok_iff.mp h
        have hrest : ∃ others, (keep test rest).result = .ok others := by
          cases answer with
          | false => exact ⟨kept, h⟩
          | true =>
              obtain ⟨others, hothers, -⟩ := Traced.bind_result_eq_ok_iff.mp h
              exact ⟨others, hothers⟩
        obtain ⟨others, hothers⟩ := hrest
        exact List.forall_mem_cons.mpr ⟨⟨answer, ha⟩, ih hothers⟩
  rw [keep_eq_filter hanswers] at h
  exact ⟨hanswers, (Except.ok.inj h).symm⟩

theorem keep_result_congr {β : Type} {other : β → Traced Bool} {f : β → α} {items : List β}
    (h : ∀ b ∈ items, (test (f b)).result = (other b).result) :
    (keep test (items.map f)).result = (keep other items).result.map (List.map f) := by
  induction items with
  | nil => rfl
  | cons b rest ih =>
      have hb := h b List.mem_cons_self
      have hrest := ih fun c hc => h c (List.mem_cons_of_mem _ hc)
      rw [List.map_cons, keep, keep, Traced.result_bind, Traced.result_bind, hb]
      cases (other b).result with
      | error e => rfl
      | ok answer =>
          rw [ok_bind, ok_bind]
          cases answer with
          | false => exact hrest
          | true =>
              simp only [if_true]
              rw [Traced.result_bind, Traced.result_bind, hrest]
              cases (keep other rest).result <;> rfl

end Selection

namespace Matcher

-- Whether a cell contains a text, or lacks it. What is no text does neither.
def contained (needle : String) (negated : Bool) : Value → Bool
  | .text s => Text.contains (Text.fold s) needle != negated
  | _ => false

section Leaves

variable {column cell row : Value}

theorem accepts_isNull (wanted : Bool) (h : row.cell column = .ok cell) :
    (accepts (.isNull column wanted) row).result = .ok (cell.isNull == wanted) := by
  rw [accepts, Traced.result_lift_bind, h]
  rfl

theorem accepts_equals (operand : Value) (negated : Bool) (h : row.cell column = .ok cell) :
    (accepts (.equals column operand negated) row).result =
      .ok (cell.matchesValue operand != negated) := by
  rw [accepts, Traced.result_lift_bind, h]
  rfl

theorem accepts_compare (comparison : Comparison) (operand : Value)
    (h : row.cell column = .ok cell) : (accepts (.compare column comparison operand) row).result =
      .ok ((Value.compare? comparison cell operand).getD false) := by
  rw [accepts, Traced.result_lift_bind, h, ok_bind]
  unfold Value.ordered
  cases Value.compare? comparison cell operand <;> rfl

theorem accepts_contains (needle : String) (negated : Bool) (h : row.cell column = .ok cell) :
    (accepts (.contains column needle negated) row).result =
      .ok (contained needle negated cell) := by
  rw [accepts, Traced.result_lift_bind, h, ok_bind]
  cases cell <;> rfl

theorem accepts_search (pattern : Pattern.Compiled) (negated : Bool)
    (h : row.cell column = .ok cell) : (accepts (.search column pattern negated) row).result =
      .ok (pattern.occursIn (subject cell) != negated) := by
  rw [accepts, Traced.result_lift_bind, h]
  rfl

theorem accepts_member (members : List Value) (negated : Bool) (h : row.cell column = .ok cell) :
    (accepts (.member column members negated) row).result =
      .ok (members.any cell.matchesValue != negated) := by
  rw [accepts, Traced.result_lift_bind, h]
  rfl

end Leaves

variable {m : Matcher} {ms : List Matcher} {row : Value}

-- A row passes all matchers when it passes the first and then the others. The others are
-- not asked where the first does not let it pass.
theorem isTrue_acceptsAll_cons :
    (acceptsAll (m :: ms) row).isTrue = ((m.accepts row).isTrue && (acceptsAll ms row).isTrue) := by
  unfold Traced.isTrue
  rw [acceptsAll, Traced.result_bind]
  cases (m.accepts row).result with
  | error e => rfl
  | ok answer => cases answer <;> rfl

theorem isTrue_acceptsAll : (acceptsAll ms row).isTrue = ms.all fun m => (m.accepts row).isTrue := by
  induction ms with
  | nil => rfl
  | cons m ms ih => rw [isTrue_acceptsAll_cons, ih, List.all_cons]

theorem acceptsAll_congr {other : Value}
    (h : ∀ m ∈ ms, (m.accepts row).result = (m.accepts other).result) :
    (acceptsAll ms row).result = (acceptsAll ms other).result := by
  induction ms with
  | nil => rfl
  | cons m ms ih =>
      rw [List.forall_mem_cons] at h
      rw [acceptsAll, acceptsAll, Traced.result_bind, Traced.result_bind, h.1]
      cases (m.accepts other).result with
      | error e => rfl
      | ok answer =>
          cases answer with
          | false => rfl
          | true => exact ih h.2

theorem acceptsAny_congr {other : Value}
    (h : ∀ m ∈ ms, (m.accepts row).result = (m.accepts other).result) :
    (acceptsAny ms row).result = (acceptsAny ms other).result := by
  induction ms with
  | nil => rfl
  | cons m ms ih =>
      rw [List.forall_mem_cons] at h
      rw [acceptsAny, acceptsAny, Traced.result_bind, Traced.result_bind, h.1]
      cases (m.accepts other).result with
      | error e => rfl
      | ok answer =>
          cases answer with
          | false => exact ih h.2
          | true => rfl

theorem ofFilters_result (mode : Mode) (fs : List Filter) :
    (ofFilters mode fs).result = fs.mapM fun f => (ofFilter mode f).result := by
  induction fs with
  | nil => rfl
  | cons f fs ih => simp only [ofFilters, Traced.result_bind, List.mapM_cons, ih]; rfl

theorem acceptsAll_answers (h : ∀ m ∈ ms, (m.accepts row).Answers) :
    (acceptsAll ms row).Answers := by
  induction ms with
  | nil => exact ⟨true, rfl⟩
  | cons m ms ih =>
      obtain ⟨answer, hm⟩ := h m List.mem_cons_self
      have hrest := ih fun n hn => h n (List.mem_cons_of_mem _ hn)
      unfold Traced.Answers
      rw [acceptsAll, Traced.result_bind, hm, ok_bind]
      cases answer with
      | false => exact ⟨false, rfl⟩
      | true => exact hrest

end Matcher

namespace Selection

variable {α : Type} {record : α → Value} {mode : Mode} {fs : List Filter} {ms : List Matcher}
  {rows : List α}

theorem readAll_result (mode : Mode) (descriptions : List Value) :
    (readAll mode descriptions).result = descriptions.mapM fun v =>
      Filter.ofValue v >>= fun f => (Matcher.ofFilter mode f).result := by
  induction descriptions with
  | nil => rfl
  | cons v rest ih =>
      simp only [readAll, Traced.result_bind, List.mapM_cons, ih, bind_assoc]
      rfl

-- A selection by filters that are ready and come to an answer is a filter of the list. Where there
-- is nothing to do, the rows that are returned as they are pass all the same.
theorem apply_result (hms : (Matcher.ofFilters mode fs).result = .ok ms)
    (hanswers : ∀ row ∈ rows, ∀ m ∈ ms, (m.accepts (record row)).Answers) :
    (apply record mode fs rows).result =
      .ok (rows.filter fun row => ms.all fun m => (m.accepts (record row)).isTrue) := by
  unfold apply
  by_cases hidle : isIdle fs rows = true
  · rw [if_pos hidle]
    refine congrArg Except.ok (List.filter_eq_self.mpr fun row hrow => ?_).symm
    rcases Bool.or_eq_true_iff.mp hidle with hfs | hrows
    · rw [List.isEmpty_iff.mp hfs] at hms
      cases hms
      rfl
    · rw [List.isEmpty_iff.mp hrows] at hrow
      cases hrow
  · rw [if_neg hidle, Traced.result_bind, hms, ok_bind, passing,
      keep_eq_filter fun row hrow => Matcher.acceptsAll_answers (hanswers row hrow)]
    simp only [Matcher.isTrue_acceptsAll]

end Selection

end Tileboard
