import Mathlib
import Tileboard.Proofs.Filter.Pair

namespace Tileboard.DrillDown

def Pair.Textual (pair : Pair) : Prop := ∃ slot s, pair = ⟨.text slot, .text s⟩

-- The name of the column for which a slot stands. It is empty if there is none.
def columnOf (columns : Value) (slot : String) : String :=
  match columns.field slot with
  | .text name => name
  | _ => ""

-- Whether a row answers a pair of texts. An issue is known or not, whatever the row.
def Pair.answered (columns : Value) (issues : List Value) : Pair → Value → Bool
  | ⟨.text slot, .text s⟩, row =>
      if slot = issueSlot then issues.any (Value.equal (.text s))
      else finds (columnOf columns slot) s row
  | _, _ => true

-- A pair that asks nothing: it is about no issue, and its text is empty or its slot stands for no
-- column with a name.
def Pair.Idle (columns : Value) (pair : Pair) : Prop :=
  pair.slot ≠ .text issueSlot ∧ (pair.value = .text "" ∨
    ¬∃ slot name, pair.slot = .text slot ∧ columns.field slot = .text name ∧ name ≠ "")

section Answers

variable {columns row : Value} {issues : List Value} {pair : Pair} {pairs : List Pair}

theorem finds_unnamed (s : String) (row : Value) : finds "" s row = true := by
  simp [finds]

theorem finds_nothing (name : String) (row : Value) : finds name "" row = true := by
  simp [finds]

theorem accepts_textual (hcolumns : ∃ fields, columns = .object fields)
    (hrow : ∃ fields, row = .object fields) (h : pair.Textual) :
    accepts columns issues pair row = .ok (pair.answered columns issues row) := by
  obtain ⟨slot, s, rfl⟩ := h
  rw [Pair.answered]
  by_cases hslot : slot = issueSlot
  · have hissue : (Value.text slot).equal (.text issueSlot) = true := by
      simpa [Value.equal] using hslot
    rw [if_pos hslot, accepts, if_pos hissue]
    rfl
  · have hissue := equal_issueSlot hslot
    have hcell := Value.cell_of_record hcolumns slot
    rw [if_neg hslot, columnOf]
    cases hfield : columns.field slot with
    | text name =>
        rw [hfield] at hcell
        rw [← acceptsAll_singleton]
        exact acceptsAll_text hissue hcell hrow s
    | _ =>
        -- what is no text names no column
        rw [accepts, hissue, if_neg Bool.false_ne_true, hcell, hfield, finds_unnamed]
        rfl

theorem acceptsAll_textual (hcolumns : ∃ fields, columns = .object fields)
    (hrow : ∃ fields, row = .object fields) (h : ∀ pair ∈ pairs, pair.Textual) :
    acceptsAll columns issues pairs row =
      .ok (pairs.all fun pair => pair.answered columns issues row) := by
  induction pairs with
  | nil => rfl
  | cons pair rest ih =>
      obtain ⟨hpair, hrest⟩ := List.forall_mem_cons.mp h
      rw [acceptsAll, accepts_textual hcolumns hrow hpair, ok_bind, ih hrest, List.all_cons]
      cases pair.answered columns issues row <;> rfl

theorem answered_of_idle (h : pair.Idle columns) (row : Value) :
    pair.answered columns issues row = true := by
  obtain ⟨hissue, hasks⟩ := h
  unfold Pair.answered
  split
  · rename_i slot s
    have hslot : slot ≠ issueSlot := fun hslot => hissue (congrArg Value.text hslot)
    rw [if_neg hslot]
    rcases hasks with hvalue | hcolumn
    · obtain rfl : s = "" := Value.text.inj hvalue
      exact finds_nothing _ _
    · have hunnamed : columnOf columns slot = "" := by
        unfold columnOf
        split
        · rename_i name hfield
          by_contra hname
          exact hcolumn ⟨slot, name, rfl, hfield, hname⟩
        · rfl
      rw [hunnamed]
      exact finds_unnamed _ _
  · rfl

theorem answered_of_unknown (h : pair.Textual) (hissue : pair.slot = .text issueSlot)
    (hunknown : pair.value ∉ issues) (row : Value) : pair.answered columns issues row = false := by
  obtain ⟨slot, s, rfl⟩ := h
  obtain rfl : slot = issueSlot := Value.text.inj hissue
  rw [Pair.answered, if_pos rfl, List.any_eq_false]
  intro v hv hequal
  have hsame : v = .text s := by
    cases v <;> simp_all [Value.equal]
  exact hunknown (hsame ▸ hv)

end Answers

section Selections

variable {α : Type} {record : α → Value} {columns : Value} {issues : List Value}
  {pairs P Q : List Pair} {rows : List α}

theorem checkIssues_of_keys (h : ∀ v ∈ issues, v.canBeKey = true) :
    checkIssues issues = .ok () := by
  induction issues with
  | nil => rfl
  | cons v rest ih =>
      obtain ⟨hv, hrest⟩ := List.forall_mem_cons.mp h
      rw [checkIssues, if_pos hv, ih hrest]

def narrowed (record : α → Value) (columns : Value) (issues : List Value) (pairs : List Pair)
    (rows : List α) : List α :=
  rows.filter fun a => pairs.all fun pair => pair.answered columns issues (record a)

theorem apply_textual (hissues : ∀ v ∈ issues, v.canBeKey = true)
    (hcolumns : ∃ fields, columns = .object fields)
    (hrows : ∀ a ∈ rows, ∃ fields, record a = .object fields)
    (hpairs : ∀ pair ∈ pairs, pair.Textual) :
    (apply record columns issues pairs rows).result =
      .ok (narrowed record columns issues pairs rows) := by
  have hasked : ∀ a ∈ rows, (Traced.ofExcept (acceptsAll columns issues pairs (record a))).result =
      .ok (pairs.all fun pair => pair.answered columns issues (record a)) :=
    fun a ha => acceptsAll_textual hcolumns (hrows a ha) hpairs
  rw [apply, Traced.result_lift_bind, checkIssues_of_keys hissues, ok_bind,
    Selection.keep_eq_filter fun a ha => ⟨_, hasked a ha⟩]
  exact congrArg Except.ok
    (List.filter_congr fun a ha => Traced.isTrue_of_ok (hasked a ha))

theorem narrowed_sublist : (narrowed record columns issues P rows).Sublist rows :=
  List.filter_sublist

theorem narrowed_append : narrowed record columns issues (P ++ Q) rows =
    narrowed record columns issues Q (narrowed record columns issues P rows) := by
  simp only [narrowed, List.filter_filter, List.all_append, Bool.and_comm]

theorem narrowed_congr (h : ∀ pair, pair ∈ P ↔ pair ∈ Q) :
    narrowed record columns issues P rows = narrowed record columns issues Q rows := by
  refine List.filter_congr fun a _ => ?_
  rw [Bool.eq_iff_iff, List.all_eq_true, List.all_eq_true]
  exact forall_congr' fun pair => imp_congr_left (h pair)

theorem narrowed_without_idle {before after : List Pair} {pair : Pair} (h : pair.Idle columns) :
    narrowed record columns issues (before ++ pair :: after) rows =
      narrowed record columns issues (before ++ after) rows := by
  simp only [narrowed, List.all_append, List.all_cons, answered_of_idle h, Bool.true_and]

theorem narrowed_of_unknown {pair : Pair} (hpair : pair ∈ P) (h : pair.Textual)
    (hissue : pair.slot = .text issueSlot) (hunknown : pair.value ∉ issues) :
    narrowed record columns issues P rows = [] := by
  refine List.filter_eq_nil_iff.mpr fun a _ hall => ?_
  have hanswered := List.all_eq_true.mp hall pair hpair
  rw [answered_of_unknown h hissue hunknown] at hanswered
  cases hanswered

-- Pairs of texts show the rows that answer each of them. More pairs show of these rows the ones
-- that answer them as well; neither the order of the pairs counts, nor how often one comes, nor a
-- pair that asks nothing, and an issue that is not known leaves no row.
theorem pairs_conjoin (hissues : ∀ v ∈ issues, v.canBeKey = true)
    (hcolumns : ∃ fields, columns = .object fields)
    (hrows : ∀ a ∈ rows, ∃ fields, record a = .object fields)
    (hP : ∀ pair ∈ P, pair.Textual) (hQ : ∀ pair ∈ Q, pair.Textual) :
    ∃ kept, (apply record columns issues P rows).result = .ok kept ∧ kept.Sublist rows ∧
      kept = (rows.filter fun a => P.all fun pair => pair.answered columns issues (record a)) ∧
      (apply record columns issues (P ++ Q) rows).result =
        (apply record columns issues Q kept).result ∧
      (∀ R : List Pair, (∀ pair, pair ∈ R ↔ pair ∈ P) →
        (apply record columns issues R rows).result = .ok kept) ∧
      (∀ before pair after, P = before ++ pair :: after → pair.Idle columns →
        (apply record columns issues (before ++ after) rows).result = .ok kept) ∧
      (∀ pair ∈ P, pair.slot = .text issueSlot → pair.value ∉ issues → kept = []) := by
  have hkept : ∀ a ∈ narrowed record columns issues P rows, ∃ fields, record a = .object fields :=
    fun a ha => hrows a (List.mem_of_mem_filter ha)
  refine ⟨narrowed record columns issues P rows, apply_textual hissues hcolumns hrows hP,
    narrowed_sublist, rfl, ?_, fun R hR => ?_, ?_, fun pair hpair hissue hunknown => ?_⟩
  · have hall : ∀ pair ∈ P ++ Q, pair.Textual := List.forall_mem_append.mpr ⟨hP, hQ⟩
    rw [apply_textual hissues hcolumns hrows hall, apply_textual hissues hcolumns hkept hQ,
      narrowed_append]
  · rw [apply_textual hissues hcolumns hrows fun pair hpair => hP pair ((hR pair).mp hpair),
      narrowed_congr hR]
  · rintro before pair after rfl hidle
    have hothers : ∀ other ∈ before ++ after, other.Textual := fun other hother =>
      hP other (by simp only [List.mem_append, List.mem_cons] at hother ⊢; tauto)
    rw [apply_textual hissues hcolumns hrows hothers, narrowed_without_idle hidle]
  · exact narrowed_of_unknown hpair (hP pair hpair) hissue hunknown

-- Slots as a board configures them: the last one stands for no column.
def slots : Value :=
  .object [("status", .text "status"), ("creator", .text "created_by"), ("flag", .bool true)]

def orders : List Value :=
  [.object [("status", .text "Open"), ("created_by", .text "Alice")],
    .object [("status", .text "Closed"), ("created_by", .text "Bob")],
    .object [("status", .null), ("created_by", .text "alice")],
    .object [("status", .text "reopened"), ("created_by", .number (.int 5))]]

-- A status, a slot without a column and an issue.
def questions : List Pair :=
  [⟨.text "status", .text "OPEN"⟩, ⟨.text "flag", .text "x"⟩, ⟨.text "issue", .text "late"⟩]

def byAli : List Pair := [⟨.text "creator", .text "ali"⟩]

-- Two orders are open, and one of these is by the creator. Neither the slot without a column nor
-- the order of the questions makes a difference; an issue that is not known leaves nothing.
theorem openOrders_narrowed :
    (∃ fields, slots = .object fields) ∧ (∀ row ∈ orders, ∃ fields, id row = .object fields) ∧
    (∀ pair ∈ questions, pair.Textual) ∧ (∀ pair ∈ byAli, pair.Textual) ∧
    (apply id slots [.text "late"] (questions ++ byAli) orders).result = .ok (orders.take 1) ∧
    (apply id slots [.text "late"] questions.reverse orders).result =
      (apply id slots [.text "late"]
        [⟨.text "status", .text "OPEN"⟩, ⟨.text "issue", .text "late"⟩] orders).result ∧
    (apply id slots [] questions orders).result = .ok [] := by
  have hissues : ∀ v ∈ [Value.text "late"], v.canBeKey = true := by simp [Value.canBeKey]
  have hnone : ∀ v ∈ ([] : List Value), v.canBeKey = true := List.forall_mem_nil _
  have hcolumns : ∃ fields, slots = .object fields := ⟨_, rfl⟩
  have hrows : ∀ row ∈ orders, ∃ fields, id row = .object fields := by simp [orders]
  have hquestions : ∀ pair ∈ questions, pair.Textual := by simp [questions, Pair.Textual]
  have hcreator : ∀ pair ∈ byAli, pair.Textual := by simp [byAli, Pair.Textual]
  have hflag : Pair.Idle slots ⟨.text "flag", .text "x"⟩ := by
    refine ⟨by simp [issueSlot], .inr ?_⟩
    rintro ⟨slot, name, hslot, hname, -⟩
    cases hslot
    cases hname
  obtain ⟨kept, -, -, rfl, hboth, hsame, hidle, -⟩ :=
    pairs_conjoin hissues hcolumns hrows hquestions hcreator
  obtain ⟨left, hleft, -, -, -, -, -, hunknown⟩ :=
    pairs_conjoin hnone hcolumns hrows hquestions hcreator
  refine ⟨hcolumns, hrows, hquestions, hcreator, hboth.trans rfl, ?_, ?_⟩
  · exact (hsame _ fun pair => List.mem_reverse).trans (hidle [_] _ [_] rfl hflag).symm
  · rw [hleft, hunknown ⟨.text "issue", .text "late"⟩ (by simp [questions]) rfl (by simp)]

end Selections

end Tileboard.DrillDown
