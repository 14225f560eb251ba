import Mathlib
import Tileboard.Proofs.Column.Mention
import Tileboard.Proofs.Filter.Passing
import Tileboard.Proofs.Filter.Strictness

namespace Tileboard

theorem Value.cell_eq_error_iff {fields : List (String × Value)} {column : Value} {e : Fault} :
    (Value.object fields).cell column = .error e ↔
      column.canBeKey = false ∧ e = .unhashable column := by
  unfold Value.cell
  cases column <;> simp [Value.canBeKey, eq_comm]

namespace Matcher

-- The column that a test looks at. Groups and fixed answers have none of their own.
def column? : Matcher → Option Value
  | .isNull column _ => some column
  | .equals column _ _ => some column
  | .compare column _ _ => some column
  | .contains column _ _ => some column
  | .search column _ _ => some column
  | .member column _ _ => some column
  | _ => none

-- The columns that a matcher asks a record for. A test asks for its own, and a group asks what its
-- parts ask, up to the first part that decides the group.
inductive Asks (row : Value) : Matcher → Value → Prop
  | test {m : Matcher} {column : Value} (h : m.column? = some column) : Asks row m column
  | all (before after : List Matcher) {m : Matcher} {column : Value}
      (hbefore : ∀ n ∈ before, (n.accepts row).result = .ok true) (h : Asks row m column) :
      Asks row (.all (before ++ m :: after)) column
  | any (before after : List Matcher) {m : Matcher} {column : Value}
      (hbefore : ∀ n ∈ before, (n.accepts row).result = .ok false) (h : Asks row m column) :
      Asks row (.any (before ++ m :: after)) column

variable {row column : Value} {m : Matcher} {ms : List Matcher} {e : Fault}

section Tests

theorem answers_of_cell {cell : Value} (h : m.column? = some column)
    (hcell : row.cell column = .ok cell) : (m.accepts row).Answers := by
  cases m with
  | always => cases h
  | never => cases h
  | all parts => cases h
  | any parts => cases h
  | isNull c wanted => cases h; exact ⟨_, accepts_isNull wanted hcell⟩
  | equals c operand negated => cases h; exact ⟨_, accepts_equals operand negated hcell⟩
  | compare c comparison operand => cases h; exact ⟨_, accepts_compare comparison operand hcell⟩
  | contains c needle negated => cases h; exact ⟨_, accepts_contains needle negated hcell⟩
  | search c pattern negated => cases h; exact ⟨_, accepts_search pattern negated hcell⟩
  | member c members negated => cases h; exact ⟨_, accepts_member members negated hcell⟩

theorem error_of_cell (h : m.column? = some column) (hcell : row.cell column = .error e) :
    (m.accepts row).result = .error e := by
  cases m <;> cases h <;> rw [accepts, Traced.result_lift_bind, hcell, error_bind]

theorem exists_asked_of_test (h : m.column? = some column)
    (herror : (m.accepts row).result = .error e) :
    ∃ asked, Asks row m asked ∧ row.cell asked = .error e := by
  cases hcell : row.cell column with
  | error e' =>
      rw [error_of_cell h hcell] at herror
      cases herror
      exact ⟨column, .test h, hcell⟩
  | ok cell =>
      obtain ⟨answer, hanswer⟩ := answers_of_cell h hcell
      rw [hanswer] at herror
      cases herror

end Tests

section Groups

variable {before : List Matcher}

theorem acceptsAll_append (hbefore : ∀ n ∈ before, (n.accepts row).result = .ok true) :
    (acceptsAll (before ++ ms) row).result = (acceptsAll ms row).result := by
  induction before with
  | nil => rfl
  | cons n rest ih =>
      obtain ⟨hn, hrest⟩ := List.forall_mem_cons.mp hbefore
      rw [List.cons_append, acceptsAll, Traced.result_bind, hn, ok_bind, if_pos rfl]
      exact ih hrest

theorem acceptsAny_append (hbefore : ∀ n ∈ before, (n.accepts row).result = .ok false) :
    (acceptsAny (before ++ ms) row).result = (acceptsAny ms row).result := by
  induction before with
  | nil => rfl
  | cons n rest ih =>
      obtain ⟨hn, hrest⟩ := List.forall_mem_cons.mp hbefore
      rw [List.cons_append, acceptsAny, Traced.result_bind, hn, ok_bind, if_neg (by decide)]
      exact ih hrest

theorem Asks.all_cons (hm : (m.accepts row).result = .ok true) (h : Asks row (.all ms) column) :
    Asks row (.all (m :: ms)) column := by
  cases h with
  | test h => cases h
  | all before after hbefore h =>
      exact .all (m :: before) after (List.forall_mem_cons.mpr ⟨hm, hbefore⟩) h

theorem Asks.any_cons (hm : (m.accepts row).result = .ok false) (h : Asks row (.any ms) column) :
    Asks row (.any (m :: ms)) column := by
  cases h with
  | test h => cases h
  | any before after hbefore h =>
      exact .any (m :: before) after (List.forall_mem_cons.mpr ⟨hm, hbefore⟩) h

end Groups

-- Induction on what is asked: a fault in a part is a fault of the group, as the parts before it do
-- not decide the group.
theorem Asks.accepts_eq_error (h : Asks row m column) (hcell : row.cell column = .error e) :
    (m.accepts row).result = .error e := by
  induction h with
  | test h => exact error_of_cell h hcell
  | all _ _ hbefore h ih =>
      rw [accepts, acceptsAll_append hbefore, acceptsAll, Traced.result_bind, ih hcell, error_bind]
  | any _ _ hbefore h ih =>
      rw [accepts, acceptsAny_append hbefore, acceptsAny, Traced.result_bind, ih hcell, error_bind]

mutual

theorem exists_asked : ∀ m : Matcher, (m.accepts row).result = .error e →
    ∃ column, Asks row m column ∧ row.cell column = .error e
  | .always, h => by cases h
  | .never, h => by cases h
  | .isNull .., h => exists_asked_of_test rfl h
  | .equals .., h => exists_asked_of_test rfl h
  | .compare .., h => exists_asked_of_test rfl h
  | .contains .., h => exists_asked_of_test rfl h
  | .search .., h => exists_asked_of_test rfl h
  | .member .., h => exists_asked_of_test rfl h
  | .all parts, h => exists_asked_all parts h
  | .any parts, h => exists_asked_any parts h

theorem exists_asked_all : ∀ ms : List Matcher, (acceptsAll ms row).result = .error e →
    ∃ column, Asks row (.all ms) column ∧ row.cell column = .error e
  | [], h => by cases h
  | m :: rest, h => by
      rw [acceptsAll, Traced.result_bind] at h
      cases hm : (m.accepts row).result with
      | error e' =>
          rw [hm, error_bind] at h
          cases h
          obtain ⟨column, hasks, hcell⟩ := exists_asked m hm
          exact ⟨column, .all [] rest (by simp) hasks, hcell⟩
      | ok answer =>
          rw [hm, ok_bind] at h
          cases answer with
          | false => cases h
          | true =>
              obtain ⟨column, hasks, hcell⟩ := exists_asked_all rest h
              exact ⟨column, hasks.all_cons hm, hcell⟩

theorem exists_asked_any : ∀ ms : List Matcher, (acceptsAny ms row).result = .error e →
    ∃ column, Asks row (.any ms) column ∧ row.cell column = .error e
  | [], h => by cases h
  | m :: rest, h => by
      rw [acceptsAny, Traced.result_bind] at h
      cases hm : (m.accepts row).result with
      | error e' =>
          rw [hm, error_bind] at h
          cases h
          obtain ⟨column, hasks, hcell⟩ := exists_asked m hm
          exact ⟨column, .any [] rest (by simp) hasks, hcell⟩
      | ok answer =>
          rw [hm, ok_bind] at h
          cases answer with
          | true => cases h
          | false =>
              obtain ⟨column, hasks, hcell⟩ := exists_asked_any rest h
              exact ⟨column, hasks.any_cons hm, hcell⟩

end

theorem accepts_eq_error_iff : (m.accepts row).result = .error e ↔
    ∃ column, Asks row m column ∧ row.cell column = .error e :=
  ⟨exists_asked m, fun ⟨_, hasks, hcell⟩ => hasks.accepts_eq_error hcell⟩

theorem answers_iff_not_error : (m.accepts row).Answers ↔ ∀ e, (m.accepts row).result ≠ .error e := by
  unfold Traced.Answers
  cases (m.accepts row).result <;> simp

section Columns

theorem mem_columnsOf {n : Matcher} (h : n ∈ ms) (hcolumn : column ∈ n.columns) :
    column ∈ columnsOf ms := by
  induction ms with
  | nil => cases h
  | cons m rest ih =>
      rw [columnsOf, List.mem_append]
      rcases List.mem_cons.mp h with rfl | h
      · exact .inl hcolumn
      · exact .inr (ih h)

theorem Asks.mem_columns (h : Asks row m column) : column ∈ m.columns := by
  induction h with
  | test h => rename_i m _; cases m <;> cases h <;> simp [columns]
  | all _ _ _ _ ih => exact mem_columnsOf (by simp) ih
  | any _ _ _ _ ih => exact mem_columnsOf (by simp) ih

mutual

theorem tested_of_ofFilter {mode : Mode} : ∀ {f : Filter} {m : Matcher},
    (ofFilter mode f).result = .ok m → ∀ column ∈ m.columns,
      ∃ l ∈ f.leaves, l.test.isSome ∧ l.column = column
  | .leaf own (some operator) operand, m, h, column, hcolumn => by
      have hown : column ∈ [own] := columns_ofLeaf h hcolumn
      rw [List.mem_singleton] at hown
      exact ⟨⟨own, some operator, operand⟩, List.mem_singleton_self _, rfl, hown.symm⟩
  | .leaf own none _, m, h, column, hcolumn => by
      cases mode with
      | strict => cases h
      | permissive => cases h; simp [columns] at hcolumn
  | .all parts, m, h, column, hcolumn => by
      obtain ⟨ms, hms, h⟩ := Traced.bind_result_eq_ok_iff.mp h
      cases h
      exact tested_of_ofFilters hms column hcolumn
  | .any parts, m, h, column, hcolumn => by
      obtain ⟨ms, hms, h⟩ := Traced.bind_result_eq_ok_iff.mp h
      cases h
      exact tested_of_ofFilters hms column hcolumn

theorem tested_of_ofFilters {mode : Mode} : ∀ {fs : List Filter} {ms : List Matcher},
    (ofFilters mode fs).result = .ok ms → ∀ column ∈ columnsOf ms,
      ∃ l ∈ Filter.leavesOf fs, l.test.isSome ∧ l.column = column
  | [], _, h, column, hcolumn => by cases h; simp [columnsOf] at hcolumn
  | f :: rest, _, h, column, hcolumn => by
      obtain ⟨m, hm, h⟩ := Traced.bind_result_eq_ok_iff.mp h
      obtain ⟨ms, hms, h⟩ := Traced.bind_result_eq_ok_iff.mp h
      cases h
      rw [Filter.leavesOf]
      rcases List.mem_append.mp hcolumn with hcolumn | hcolumn
      · obtain ⟨l, hl, htested⟩ := tested_of_ofFilter hm column hcolumn
        exact ⟨l, List.mem_append_left _ hl, htested⟩
      · obtain ⟨l, hl, htested⟩ := tested_of_ofFilters hms column hcolumn
        exact ⟨l, List.mem_append_right _ hl, htested⟩

end

end Columns

-- A described filter that is made ready answers on a record exactly if no column it asks for is a
-- list or an object, so on every record if none of its tests has such a column. Asking for one is
-- the only fault there is.
theorem answers_unless_unhashable_asked {mode : Mode} {description : Value}
    (hm : (ofDescription mode description).result = .ok m) (fields : List (String × Value)) :
    ∃ f, Filter.ofValue description = .ok f ∧ (ofFilter mode f).result = .ok m ∧
      ((∀ l ∈ f.leaves, l.test.isSome → l.column.canBeKey = true) →
        (m.accepts (.object fields)).Answers) ∧
      ((m.accepts (.object fields)).Answers ↔
        ∀ column, Asks (.object fields) m column → column.canBeKey = true) ∧
      ∀ e, (m.accepts (.object fields)).result = .error e ↔
        ∃ column, Asks (.object fields) m column ∧ column.canBeKey = false ∧
          e = .unhashable column := by
  have herror : ∀ e, (m.accepts (.object fields)).result = .error e ↔
      ∃ column, Asks (.object fields) m column ∧ column.canBeKey = false ∧
        e = .unhashable column := by
    intro e
    simp only [accepts_eq_error_iff, Value.cell_eq_error_iff]
  have hanswers : (m.accepts (.object fields)).Answers ↔
      ∀ column, Asks (.object fields) m column → column.canBeKey = true := by
    rw [answers_iff_not_error]
    constructor
    · intro h column hasks
      by_contra hkey
      exact h _ ((herror _).mpr ⟨column, hasks, by simpa using hkey, rfl⟩)
    · intro h e he
      obtain ⟨column, hasks, hkey, -⟩ := (herror e).mp he
      rw [h column hasks] at hkey
      cases hkey
  cases description with
  | object described =>
      obtain ⟨f, hf, hready⟩ := Traced.lift_bind_eq_ok_iff.mp hm
      refine ⟨f, hf, hready, fun hleaves => hanswers.mpr fun column hasks => ?_, hanswers, herror⟩
      obtain ⟨l, hl, htest, rfl⟩ := tested_of_ofFilter hready column hasks.mem_columns
      exact hleaves l hl htest
  | _ => cases hm

-- The second test is asked only of what passes the first.
def guarded : Value :=
  .object [("and", .list [
    .object [("column", .text "kind"), ("equals", .text "part")],
    .object [("column", .list [.text "size"]), ("isNull", .bool true)]])]

theorem guarded_answers_others : ∃ m, (ofDescription .strict guarded).result = .ok m ∧
    (m.accepts (.object [("kind", .text "tool")])).Answers ∧
    (m.accepts (.object [("kind", .text "Part")])).result =
      .error (.unhashable (.list [.text "size"])) := by
  have hm : (ofDescription .strict guarded).result = .ok (.all [
      .equals (.text "kind") (.text "part") false, .isNull (.list [.text "size"]) true]) := rfl
  obtain ⟨f, -, -, -, -, herror⟩ := answers_unless_unhashable_asked hm [("kind", .text "Part")]
  refine ⟨_, hm, ⟨false, rfl⟩, (herror _).mpr ⟨.list [.text "size"], ?_, rfl, rfl⟩⟩
  refine .all [.equals (.text "kind") (.text "part") false] [] ?_ (.test rfl)
  intro n hn
  rw [List.mem_singleton.mp hn]
  rfl

-- A column that is a list is accepted, by both ways of reading, and no record can be tested.
theorem list_column_stops : ∃ m,
    (ofDescription .strict (.object [("column", .list [.text "a"]), ("equals", .int 1)])).result =
      .ok m ∧
    (ofDescription .permissive (.object [("column", .list [.text "a"]), ("equals", .int 1)])).result =
      .ok m ∧
    (m.accepts (.object [])).result = .error (.unhashable (.list [.text "a"])) :=
  ⟨.equals (.list [.text "a"]) (.int 1) false, rfl, rfl, rfl⟩

end Matcher

end Tileboard
