import Mathlib
import Tileboard.Filter.DrillDown
import Tileboard.Proofs.Measure.Restriction
import Tileboard.Proofs.Number.Written
import Tileboard.Proofs.Text.Folding

namespace Tileboard

theorem Value.equal_text_iff {v : Value} {s : String} : v.equal (.text s) = true ↔ v = .text s := by
  cases v <;> simp [Value.equal]

theorem Value.matchesValue_text_iff {v : Value} {s : String} : v.matchesValue (.text s) = true ↔
    ∃ t, v = .text t ∧ Text.fold t = Text.fold s := by
  cases v <;> simp [Value.matchesValue, Value.normalize, Value.isBool, Value.equal]

theorem Value.isText_of_matchesValue {v w : Value} (hw : w.isText = false)
    (h : v.matchesValue w = true) : v.isText = false := by
  cases v with
  | text t =>
      cases w with
      | text s => cases hw
      | _ => simp [Value.matchesValue, Value.normalize, Value.equal] at h
  | _ => rfl

-- A value that is no text is written as a word, a number or something in brackets.
theorem Value.asText_ne_empty {v : Value} (h : v.isText = false) : v.asText ≠ "" := by
  cases v with
  | text s => cases h
  | null => decide
  | bool b => cases b <;> decide
  | number n => exact n.text_ne_empty
  | list items => simp [Value.asText, Value.shown]
  | object fields => simp [Value.asText, Value.shown]

namespace Selection

-- Tests that stop with one fault, or come to an answer, stop the selection with that fault if one
-- of them does.
theorem keep_eq_error {α : Type} {test : α → Traced Bool} {items : List α} {e : Fault}
    (h : ∀ a ∈ items, (test a).Answers ∨ (test a).result = .error e)
    (hstops : ∃ a ∈ items, (test a).result = .error e) : (keep test items).result = .error e := by
  induction items with
  | nil => simp at hstops
  | cons a rest ih =>
      obtain ⟨ha, hrest⟩ := List.forall_mem_cons.mp h
      rw [keep, Traced.result_bind]
      rcases ha with ha | ha
      · have hlater : ∃ b ∈ rest, (test b).result = .error e := by
          obtain ⟨b, hb, hfault⟩ := hstops
          rcases List.mem_cons.mp hb with rfl | hb
          · rw [ha.result_eq] at hfault
            cases hfault
          · exact ⟨b, hb, hfault⟩
        have hkeep := ih hrest hlater
        rw [ha.result_eq, ok_bind]
        cases (test a).isTrue with
        | false => exact hkeep
        | true =>
            rw [if_pos rfl, Traced.result_bind, hkeep, error_bind]
      · rw [ha, error_bind]

end Selection

namespace DrillDown

variable {name s : String} {value operand row cell : Value} {rows : List Value} {m : Matcher}

-- The question of a pair whose slot stands for the column of the same name.
def looksFor (name : String) (value row : Value) : Traced Bool :=
  Traced.ofExcept (acceptsAll (.object [(name, .text name)]) [] [⟨.text name, value⟩] row)

def shown (pair : Pair) (name : String) (rows : List Value) : Except Fault (List Value) :=
  (apply id (.object [(name, .text name)]) [] [pair] rows).result

theorem shown_eq_keep (name : String) (value : Value) (rows : List Value) :
    shown ⟨.text name, value⟩ name rows = (Selection.keep (looksFor name value) rows).result := by
  rfl

-- Whether a text is found in a cell that is a text, in lower case on both sides. A slot without a
-- name and an empty text ask nothing.
def finds (name s : String) (row : Value) : Bool :=
  name == "" || s == "" || match row.field name with
    | .text t => Text.contains (Text.lower t) (Text.lower s)
    | _ => false

theorem finds_of_text {t : String} (h : row.field name = .text t)
    (hcontains : Text.contains (Text.lower t) (Text.lower s) = true) : finds name s row = true := by
  simp [finds, h, hcontains]

theorem finds_eq_false (hname : name ≠ "") (hs : s ≠ "") (h : (row.field name).isText = false) :
    finds name s row = false := by
  unfold finds
  cases hfield : row.field name with
  | text t =>
      rw [hfield] at h
      cases h
  | _ => simp [hname, hs]

section Questions

section Slots

variable {columns slot : Value} {issues : List Value}

theorem acceptsAll_singleton (columns : Value) (issues : List Value) (pair : Pair) (row : Value) :
    acceptsAll columns issues [pair] row = accepts columns issues pair row := by
  unfold acceptsAll
  cases accepts columns issues pair row with
  | error e => rfl
  | ok answer => cases answer <;> rfl

theorem acceptsAll_single (value : Value) (hissue : slot.equal (.text issueSlot) = false)
    (hslot : columns.cell slot = .ok (.text name)) (hcell : row.cell (.text name) = .ok cell) :
    acceptsAll columns issues [⟨slot, value⟩] row =
      if name = "" ∨ value.equal (.text "") = true then .ok true else cellAgrees cell value := by
  rw [acceptsAll_singleton]
  simp only [accepts, hissue, hslot, hcell, ok_bind, Bool.false_eq_true, if_false, Value.isText,
    Value.holds, Bool.true_and]
  by_cases hblank : name = ""
  · simp [hblank]
    rfl
  · by_cases hvalue : value.equal (.text "") = true
    · simp [hvalue]
      rfl
    · simp [hblank, hvalue]

-- A cell that is no text would have to be the text that is looked for, which it is not.
theorem acceptsAll_text (hissue : slot.equal (.text issueSlot) = false)
    (hslot : columns.cell slot = .ok (.text name)) (hrow : ∃ fields, row = .object fields)
    (s : String) :
    acceptsAll columns issues [⟨slot, .text s⟩] row = .ok (finds name s row) := by
  have hresult : acceptsAll columns issues [⟨slot, .text s⟩] row = _ :=
    acceptsAll_single (.text s) hissue hslot (Value.cell_of_record hrow name)
  simp only [Value.equal_text_iff, Value.text.injEq] at hresult
  rw [hresult, finds]
  by_cases hasked : name = "" ∨ s = ""
  · rw [if_pos hasked]
    rcases hasked with h | h <;> simp [h]
  · rw [if_neg hasked]
    rw [not_or] at hasked
    cases row.field name <;> simp [cellAgrees, Value.equal, hasked]

end Slots

theorem equal_issueSlot (hname : name ≠ issueSlot) :
    (Value.text name).equal (.text issueSlot) = false := by
  simpa [Value.equal] using hname

theorem cell_slot (name : String) :
    (Value.object [(name, .text name)]).cell (.text name) = .ok (.text name) := by
  simp [Value.cell, Value.canBeKey]

theorem result_looksFor (value : Value) (hname : name ≠ issueSlot)
    (hcell : row.cell (.text name) = .ok cell) : (looksFor name value row).result =
      if name = "" ∨ value.equal (.text "") = true then .ok true else cellAgrees cell value :=
  acceptsAll_single value (equal_issueSlot hname) (cell_slot name) hcell

theorem looksFor_text (hname : name ≠ issueSlot) (hrow : ∃ fields, row = .object fields)
    (s : String) : (looksFor name (.text s) row).result = .ok (finds name s row) :=
  acceptsAll_text (equal_issueSlot hname) (cell_slot name) hrow s

-- Nothing but a text can be looked for in a cell that is a text.
theorem looksFor_other (hname : name ≠ issueSlot) (hblank : name ≠ "")
    (hvalue : value.isText = false) (hcell : row.cell (.text name) = .ok cell) :
    (looksFor name value row).Answers ∧ cell.isText = false ∨
      (looksFor name value row).result = .error (.notARecord value "lower") := by
  have hresult := result_looksFor value hname hcell
  have hempty : ¬(name = "" ∨ value.equal (.text "") = true) := by
    rw [not_or, Value.equal_text_iff]
    refine ⟨hblank, ?_⟩
    rintro rfl
    cases hvalue
  rw [if_neg hempty] at hresult
  cases cell with
  | text t =>
      cases value with
      | text s => cases hvalue
      | _ => exact .inr hresult
  | _ => exact .inl ⟨⟨_, hresult⟩, rfl⟩

end Questions

section Counted

variable {mode : Mode} {test : Test} {tile : Value} {pair : Pair}

theorem pairOfTile_eq_some (hpair : pairOfTile tile = .ok (some pair))
    (hfilter : Filter.ofValue (tile.field "filter") =
      .ok (.leaf (.text name) (some test.operator) test.operand)) :
    test.operator = .contains false ∧ pair = ⟨.text name, test.operand⟩ ∨
      test.operator = .equals false ∧ pair = ⟨.text name, .text test.operand.asText⟩ := by
  unfold pairOfTile at hpair
  split at hpair
  · dsimp only at hpair
    split at hpair
    · obtain ⟨operator, operand⟩ := test
      obtain ⟨f, hf, hpair⟩ := bind_eq_ok_iff.mp hpair
      rw [hfilter] at hf
      cases hf
      split at hpair
      · rename_i h
        cases h
        cases hpair
        exact .inl ⟨rfl, rfl⟩
      · rename_i h
        cases h
        cases hpair
        exact .inr ⟨rfl, rfl⟩
      · cases hpair
    · cases hpair
  · cases hpair

theorem matched_of_equals (hm : (Matcher.ofTest mode (.text name) ⟨.equals false, operand⟩).result =
    .ok m) (hcell : row.cell (.text name) = .ok cell) :
    (m.accepts row).isTrue = cell.matchesValue operand := by
  cases hm
  rw [Traced.isTrue_of_ok (Matcher.accepts_equals operand false hcell), Bool.bne_false]

theorem matched_of_contains
    (hm : (Matcher.ofTest mode (.text name) ⟨.contains false, operand⟩).result = .ok m)
    (hcell : row.cell (.text name) = .ok cell) (h : (m.accepts row).isTrue = true) :
    ∃ t, cell = .text t ∧ Text.contains (Text.fold t) (Matcher.needleOf operand) = true := by
  unfold Matcher.ofTest at hm
  dsimp only at hm
  split at hm
  · cases hm
    cases h
  · cases hm
    rw [Traced.isTrue_of_ok (Matcher.accepts_contains _ false hcell)] at h
    cases cell with
    | text t => exact ⟨t, rfl, by simpa [Matcher.contained] using h⟩
    | _ => cases h

-- A text is found in the cells that match it or contain it, if there are no blanks around it.
theorem found_of_matched (hoperator : test.operator = .contains false ∨ test.operator = .equals false)
    (hoperand : test.operand = .text s) (htrim : Text.trim s = s)
    (hm : (Matcher.ofTest mode (.text name) test).result = .ok m)
    (hcell : row.cell (.text name) = .ok cell) (hmatched : (m.accepts row).isTrue = true) :
    ∃ t, cell = .text t ∧ Text.contains (Text.lower t) (Text.lower s) = true := by
  have hfold : Text.fold s = Text.lower s := by rw [Text.fold, htrim]
  obtain ⟨operator, operand⟩ := test
  dsimp only at hoperator hoperand
  subst hoperand
  rcases hoperator with rfl | rfl
  · obtain ⟨t, rfl, hcontains⟩ := matched_of_contains hm hcell hmatched
    have hneedle : Matcher.needleOf (.text s) = Text.fold s := rfl
    rw [hneedle, hfold] at hcontains
    exact ⟨t, rfl, Text.contains_lower_of_contains_fold hcontains⟩
  · rw [matched_of_equals hm hcell] at hmatched
    obtain ⟨t, rfl, hsame⟩ := Value.matchesValue_text_iff.mp hmatched
    refine ⟨t, rfl, Text.contains_lower_of_contains_fold ?_⟩
    rw [hsame, hfold]
    exact Text.contains_self _

-- The counted rows are among those in which a text without blanks around it is found.
theorem counted_sublist_found
    (hoperator : test.operator = .contains false ∨ test.operator = .equals false)
    (hoperand : test.operand = .text s) (htrim : Text.trim s = s)
    (hm : (Matcher.ofTest mode (.text name) test).result = .ok m)
    (hrows : ∀ row ∈ rows, ∃ fields, row = .object fields) :
    (Measure.accepted m rows).Sublist (rows.filter (finds name s)) := by
  have hboth : Measure.accepted m rows =
      (rows.filter (finds name s)).filter fun row => (m.accepts row).isTrue := by
    rw [List.filter_filter, Measure.accepted]
    refine List.filter_congr fun row hrow => ?_
    cases hmatched : (m.accepts row).isTrue with
    | false => rfl
    | true =>
        obtain ⟨t, hfield, hcontains⟩ := found_of_matched hoperator hoperand htrim hm
          (Value.cell_of_record (hrows row hrow) name) hmatched
        rw [finds_of_text hfield hcontains, Bool.true_and]
  rw [hboth]
  exact List.filter_sublist

-- A row that is counted for a value that is no text has no text in the column, so the text of the
-- value is not found there.
theorem not_found_of_counted (hother : operand.isText = false) (hblank : name ≠ "")
    (hm : (Matcher.ofTest mode (.text name) ⟨.equals false, operand⟩).result = .ok m)
    (hrows : ∀ row ∈ rows, ∃ fields, row = .object fields) (hrow : row ∈ Measure.accepted m rows) :
    finds name operand.asText row = false := by
  obtain ⟨hmem, hmatched⟩ := List.mem_filter.mp hrow
  rw [matched_of_equals hm (Value.cell_of_record (hrows row hmem) name)] at hmatched
  exact finds_eq_false hblank (Value.asText_ne_empty hother)
    (Value.isText_of_matchesValue hother hmatched)

theorem isText_of_counted
    (hm : (Matcher.ofTest mode (.text name) ⟨.contains false, operand⟩).result = .ok m)
    (hrows : ∀ row ∈ rows, ∃ fields, row = .object fields) (hrow : row ∈ Measure.accepted m rows) :
    row ∈ rows ∧ (row.field name).isText = true := by
  obtain ⟨hmem, hmatched⟩ := List.mem_filter.mp hrow
  obtain ⟨t, hfield, -⟩ := matched_of_contains hm (Value.cell_of_record (hrows row hmem) name) hmatched
  exact ⟨hmem, by rw [hfield]; rfl⟩

end Counted

section Shown

variable {mode : Mode} {test : Test} {tile : Value} {pair : Pair}

theorem shown_unnamed (hrows : ∀ row ∈ rows, ∃ fields, row = .object fields) (value : Value) :
    shown ⟨.text "", value⟩ "" rows = .ok rows := by
  have hall : ∀ row ∈ rows, (looksFor "" value row).result = .ok true := by
    intro row hrow
    have hcell := Value.cell_of_record (hrows row hrow) ""
    rw [result_looksFor value (by decide) hcell, if_pos (.inl rfl)]
  rw [shown_eq_keep, Selection.keep_eq_filter fun row hrow => ⟨true, hall row hrow⟩]
  exact congrArg Except.ok
    (List.filter_eq_self.mpr fun row hrow => Traced.isTrue_of_ok (hall row hrow))

theorem shown_text (hname : name ≠ issueSlot) (hrows : ∀ row ∈ rows, ∃ fields, row = .object fields)
    (s : String) : shown ⟨.text name, .text s⟩ name rows = .ok (rows.filter (finds name s)) := by
  have hasked := fun row hrow => looksFor_text hname (hrows row hrow) s
  rw [shown_eq_keep, Selection.keep_eq_filter fun row hrow => ⟨_, hasked row hrow⟩]
  exact congrArg Except.ok
    (List.filter_congr fun row hrow => Traced.isTrue_of_ok (hasked row hrow))

-- What is no text stops the search at the first cell that is one.
theorem shown_other (hname : name ≠ issueSlot) (hblank : name ≠ "") (hvalue : value.isText = false)
    (hrows : ∀ row ∈ rows, ∃ fields, row = .object fields)
    (htext : ∃ row ∈ rows, (row.field name).isText = true) :
    shown ⟨.text name, value⟩ name rows = .error (.notARecord value "lower") := by
  have hasked := fun row hrow =>
    looksFor_other hname hblank hvalue (Value.cell_of_record (hrows row hrow) name)
  refine Selection.keep_eq_error (fun row hrow => ?_) ?_
  · exact (hasked row hrow).imp_left And.left
  · obtain ⟨row, hrow, htext⟩ := htext
    refine ⟨row, hrow, (hasked row hrow).resolve_left fun h => ?_⟩
    rw [htext] at h
    cases h.2

-- Of the rows that a tile counts, its pair shows those in which the operand is found in lower case:
-- all of them if the operand is a text without blanks around it. An operand that is no text shows
-- none of them for a test for equality, and stops the search for one for containing.
theorem pair_shows_counted (hpair : pairOfTile tile = .ok (some pair))
    (hfilter : Filter.ofValue (tile.field "filter") =
      .ok (.leaf (.text name) (some test.operator) test.operand))
    (hm : (Matcher.ofFilter mode (.leaf (.text name) (some test.operator) test.operand)).result = .ok m)
    (hname : name ≠ issueSlot) (hrows : ∀ row ∈ rows, ∃ fields, row = .object fields) :
    pair.slot = .text name ∧
    (name = "" → shown pair name rows = .ok rows) ∧
    (∀ s, test.operand = .text s → shown pair name rows = .ok (rows.filter (finds name s)) ∧
      (Text.trim s = s → (Measure.accepted m rows).Sublist (rows.filter (finds name s)))) ∧
    (test.operand.isText = false → name ≠ "" → test.operator = .equals false →
      ∃ kept, shown pair name rows = .ok kept ∧ ∀ row ∈ Measure.accepted m rows, row ∉ kept) ∧
    (test.operand.isText = false → name ≠ "" → test.operator = .contains false →
      Measure.accepted m rows ≠ [] →
        shown pair name rows = .error (.notARecord test.operand "lower")) := by
  have hshape := pairOfTile_eq_some hpair hfilter
  have hready : (Matcher.ofTest mode (.text name) test).result = .ok m := hm
  obtain ⟨operator, operand⟩ := test
  dsimp only at hshape ⊢
  refine ⟨?_, ?_, ?_, ?_, ?_⟩
  · rcases hshape with ⟨-, rfl⟩ | ⟨-, rfl⟩ <;> rfl
  · rintro rfl
    rcases hshape with ⟨-, rfl⟩ | ⟨-, rfl⟩ <;> exact shown_unnamed hrows _
  · rintro s rfl
    refine ⟨?_, fun htrim => ?_⟩
    · rcases hshape with ⟨-, rfl⟩ | ⟨-, rfl⟩ <;> exact shown_text hname hrows s
    · exact counted_sublist_found (hshape.imp And.left And.left) rfl htrim hready hrows
  · rintro hother hblank rfl
    rcases hshape with ⟨hoperator, -⟩ | ⟨-, rfl⟩
    · cases hoperator
    · refine ⟨_, shown_text hname hrows _, fun row hrow hkept => ?_⟩
      rw [List.mem_filter, not_found_of_counted hother hblank hready hrows hrow] at hkept
      cases hkept.2
  · rintro hother hblank rfl hcounted
    rcases hshape with ⟨-, rfl⟩ | ⟨hoperator, -⟩
    · obtain ⟨row, hrow⟩ := List.exists_mem_of_ne_nil _ hcounted
      exact shown_other hname hblank hother hrows ⟨row, isText_of_counted hready hrows hrow⟩
    · cases hoperator

def tileFor (column operator : String) (operand : Value) : Value :=
  .object [("clickable", .bool true),
    ("filter", .object [("column", .text column), (operator, operand)])]

def statusRows : List Value :=
  [.object [("status", .text " OPEN\n")], .object [("status", .text "reopened")],
    .object [("status", .number (.int 5))], .object [("status", .text "a5")]]

-- The pair for "Open" shows the row that the tile counts, with blanks around the word, and one
-- more. The pair for containing 5 stops at a text.
theorem open_and_five_shown :
    pairOfTile (tileFor "status" "equals" (.text "Open")) =
      .ok (some ⟨.text "status", .text "Open"⟩) ∧
    pairOfTile (tileFor "status" "contains" (.number (.int 5))) =
      .ok (some ⟨.text "status", .number (.int 5)⟩) ∧
    (∀ row ∈ statusRows, ∃ fields, row = .object fields) ∧ "status" ≠ issueSlot ∧
    Measure.accepted (.equals (.text "status") (.text "Open") false) statusRows =
      statusRows.take 1 ∧
    shown ⟨.text "status", .text "Open"⟩ "status" statusRows = .ok (statusRows.take 2) ∧
    shown ⟨.text "status", .number (.int 5)⟩ "status" statusRows =
      .error (.notARecord (.number (.int 5)) "lower") := by
  have hopen : pairOfTile (tileFor "status" "equals" (.text "Open")) =
      .ok (some ⟨.text "status", .text "Open"⟩) := rfl
  have hfive : pairOfTile (tileFor "status" "contains" (.number (.int 5))) =
      .ok (some ⟨.text "status", .number (.int 5)⟩) := rfl
  have hrows : ∀ row ∈ statusRows, ∃ fields, row = .object fields := by simp [statusRows]
  have hname : "status" ≠ issueSlot := by decide
  have hopenReady : (Matcher.ofFilter .permissive (.leaf (.text "status")
      (some (.equals false)) (.text "Open"))).result =
        .ok (.equals (.text "status") (.text "Open") false) := rfl
  have hfiveReady : (Matcher.ofFilter .permissive (.leaf (.text "status")
      (some (.contains false)) (.number (.int 5)))).result =
        .ok (.contains (.text "status") "5" false) := rfl
  have hlast : Measure.accepted (.contains (.text "status") "5" false) statusRows =
      statusRows.drop 3 := rfl
  have hcounted : Measure.accepted (.contains (.text "status") "5" false) statusRows ≠ [] := by
    rw [hlast]
    exact List.cons_ne_nil _ _
  obtain ⟨-, -, htext, -, -⟩ := pair_shows_counted hopen rfl hopenReady hname hrows
  obtain ⟨-, -, -, -, hstops⟩ := pair_shows_counted hfive rfl hfiveReady hname hrows
  exact ⟨hopen, hfive, hrows, hname, rfl, (htext "Open" rfl).1, hstops rfl (by decide) rfl hcounted⟩

-- A tile counts the rows with 0 in the column, and its pair shows none of them.
theorem zero_not_shown :
    pairOfTile (tileFor "qty" "equals" (.number (.int 0))) = .ok (some ⟨.text "qty", .text "0"⟩) ∧
    ∃ m, (Matcher.ofFilter .permissive
        (.leaf (.text "qty") (some (.equals false)) (.number (.int 0)))).result = .ok m ∧
      (m.accepts (.object [("qty", .number (.int 0))])).result = .ok true ∧
      shown ⟨.text "qty", .text "0"⟩ "qty" [.object [("qty", .number (.int 0))]] = .ok [] :=
  ⟨rfl, _, rfl, rfl, rfl⟩

end Shown

end DrillDown

end Tileboard
