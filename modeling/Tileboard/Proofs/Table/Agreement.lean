import Mathlib
import Tileboard.Proofs.Table.Overlooking

namespace Tileboard

open Table (Redrawn)

namespace Selection

variable {mode : Mode} {filters : List Value}

-- The positions of what passes filters, when there is something to do.
theorem applyDescribed_positions {α : Type} (record : α × Nat → Value) {items : List α}
    (hfilters : filters ≠ []) (hitems : items ≠ []) :
    (do return (← applyDescribed record mode filters items.zipIdx).map (·.2) :
      Traced (List Nat)).result =
      (readAll mode filters).result.bind fun ms =>
        (keep (fun row => Matcher.acceptsAll ms (record row)) items.zipIdx).result.map
          (List.map (·.2)) := by
  have hidle : isIdle filters items.zipIdx = false := by
    simp [isIdle, List.isEmpty_eq_false_iff, hfilters, hitems]
  unfold applyDescribed
  rw [hidle, Traced.result_bind]
  simp only [Bool.false_eq_true, if_false, Traced.result_bind]
  cases (readAll mode filters).result <;> rfl

theorem keep_positions_congr {α β : Type} (g : β → α) (test : α × Nat → Traced Bool)
    (other : β × Nat → Traced Bool) (items : List β)
    (h : ∀ (i : Nat) b, items[i]? = some b → (test (g b, i)).result = (other (b, i)).result) :
    (keep test (items.map g).zipIdx).result.map (List.map (·.2)) =
      (keep other items.zipIdx).result.map (List.map (·.2)) := by
  have hkeep : (keep test (items.zipIdx.map (Prod.map g id))).result =
      (keep other items.zipIdx).result.map (List.map (Prod.map g id)) :=
    keep_result_congr fun row hrow => h row.2 row.1 (List.mem_zipIdx_iff_getElem?.mp hrow)
  rw [List.zipIdx_map, hkeep]
  cases (keep other items.zipIdx).result with
  | error e => rfl
  | ok kept => simp [Except.map, List.map_map, Function.comp_def]

end Selection

namespace Table

variable {records : List Value} {t : Table Value} {mode : Mode} {filters : List Value}

def positions (mode : Mode) (filters records : List Value) : Traced (List Nat) := do
  return (← Selection.applyDescribed (·.1) mode filters records.zipIdx).map (·.2)

theorem positions_eq_filter {ms : List Matcher}
    (hms : (Selection.readAll mode filters).result = .ok ms)
    (hanswers : ∀ record ∈ records, ∀ m ∈ ms, (m.accepts record).Answers) :
    (positions mode filters records).result = .ok ((records.zipIdx.filter fun row =>
      ms.all fun m => (m.accepts row.1).isTrue).map (·.2)) := by
  unfold positions
  by_cases hidle : filters = [] ∨ records = []
  · rcases hidle with rfl | rfl
    · cases hms
      simp [Selection.applyDescribed, Selection.isIdle]
    · simp [Selection.applyDescribed, Selection.isIdle]
  · rw [not_or] at hidle
    have hkeep : (Selection.keep (fun row => Matcher.acceptsAll ms row.1) records.zipIdx).result =
        .ok (records.zipIdx.filter fun row => (Matcher.acceptsAll ms row.1).isTrue) :=
      Selection.keep_eq_filter fun row hrow => Matcher.acceptsAll_answers
        (hanswers row.1 (List.mem_of_getElem? (List.mem_zipIdx_iff_getElem?.mp hrow)))
    rw [Selection.applyDescribed_positions _ hidle.1 hidle.2, hms]
    dsimp only [Except.bind]
    rw [hkeep]
    simp only [Matcher.isTrue_acceptsAll]
    rfl

-- No leaf of the filters sees what became of the cell that it looks at, in any row.
def Unseen (filters records : List Value) (t : Table Value) : Prop :=
  ∀ description ∈ filters, ∀ f, Filter.ofValue description = .ok f → ∀ l ∈ f.leaves,
    ∀ (i : Nat) record row, records[i]? = some record → t.rows[i]? = some row →
      l.Overlooks record (.object row)

-- The tests come to the same on the row that a record became as on the record.
theorem acceptsAll_rowOf_eq {rows : List (List (String × Value))}
    (hrows : t.rows = rows.map (rowOf rows)) (hunseen : Unseen filters (rows.map .object) t)
    {ms : List Matcher} (hms : (Selection.readAll mode filters).result = .ok ms) (i : Nat)
    (fields : List (String × Value)) (hfields : rows[i]? = some fields) :
    (Matcher.acceptsAll ms (.object (rowOf rows fields))).result =
      (Matcher.acceptsAll ms (.object fields)).result := by
  refine (Matcher.acceptsAll_congr (Matcher.readAll_accepts_eq
    (redrawn_rowOf (List.mem_of_getElem? hfields)) ?_ hms)).symm
  intro description hdescription f hf l hl
  refine hunseen description hdescription f hf l hl i _ _ ?_ ?_
  · rw [List.getElem?_map, hfields]
    rfl
  · rw [hrows, List.getElem?_map, hfields]
    rfl

theorem select_result_eq (ht : ofRecords records = .ok t) (hcolumns : t.columns = [] → records = [])
    (hunseen : Unseen filters records t) :
    (t.select mode filters).result = (positions mode filters records).result := by
  obtain ⟨rows, rfl, hheight, hrows⟩ := ofRecords_eq_ok ht
  unfold select positions
  by_cases hidle : filters = [] ∨ rows = []
  · have htable : t.isIdle filters = true := by
      rcases hidle with rfl | rfl
      · simp [isIdle]
      · simp [isIdle, isEmpty, hheight]
    have hrecords : Selection.isIdle filters (rows.map Value.object).zipIdx = true := by
      rcases hidle with rfl | rfl <;> simp [Selection.isIdle]
    simp only [Selection.applyDescribed, htable, hrecords, if_true]
    simp [hheight, List.range_eq_range']
  · rw [not_or] at hidle
    have hbusy : t.isIdle filters = false := by
      simp [isIdle, isEmpty, hheight, hidle, mt hcolumns, List.isEmpty_eq_false_iff]
    rw [hbusy, Selection.applyDescribed_positions _ hidle.1 (by simpa using hidle.2)]
    simp only [Bool.false_eq_true, if_false]
    rw [Selection.applyDescribed_positions _ hidle.1 (by simpa [hrows] using hidle.2)]
    cases hms : (Selection.readAll mode filters).result with
    | error e => rfl
    | ok ms =>
        -- both lists are made of the same fields
        have hofTable := Selection.keep_positions_congr (rowOf rows)
          (fun row => Matcher.acceptsAll ms (.object row.1))
          (fun row => Matcher.acceptsAll ms (.object row.1)) rows
          (acceptsAll_rowOf_eq hrows hunseen hms)
        have hofRecords := Selection.keep_positions_congr Value.object
          (fun row => Matcher.acceptsAll ms row.1)
          (fun row => Matcher.acceptsAll ms (.object row.1)) rows fun _ _ _ => rfl
        dsimp only [Except.bind]
        rw [hrows, hofTable, hofRecords]

-- A table keeps the positions that its records keep, and stops with the same fault, wherever
-- the tests overlook what the table made of the cells. So where all tests answer, what is kept
-- are the positions of the records that pass them.
theorem select_reproduces_records (ht : ofRecords records = .ok t)
    (hcolumns : t.columns = [] → records = []) (hunseen : Unseen filters records t) :
    (t.select mode filters).result = (positions mode filters records).result ∧
    ∀ ms, (Selection.readAll mode filters).result = .ok ms →
      (∀ record ∈ records, ∀ m ∈ ms, (m.accepts record).Answers) →
      (t.select mode filters).result = .ok ((records.zipIdx.filter fun row =>
        ms.all fun m => (m.accepts row.1).isTrue).map (·.2)) := by
  have hsame : (t.select mode filters).result = (positions mode filters records).result :=
    select_result_eq ht hcolumns hunseen
  refine ⟨hsame, fun ms hms hanswers => ?_⟩
  rw [hsame, positions_eq_filter hms hanswers]

-- Records with gaps and whole numbers, and the table that they make.
def orders : List Value :=
  [.object [("amount", .int 1), ("status", .text "sent")], .object [("status", .text " Open")],
    .object [("amount", .int 3)]]

def ordersTable : Table Value :=
  ⟨3, [("amount", [.real (.ofInt 1), .real .nan, .real (.ofInt 3)]),
    ("status", [.text "sent", .text " Open", .real .nan])]⟩

-- Open orders and large ones, the amount seven apart.
def orderFilters : List Value :=
  [.object [("or", .list [.object [("column", .text "amount"), ("gte", .int 2)],
      .object [("column", .text "status"), ("equals", .text "open")]])],
    .object [("column", .text "amount"), ("notEquals", .int 7)]]

theorem unseen_orders : Unseen orderFilters orders ordersTable := by
  intro description hdescription f hf l hl i record row hrecord hrow test htest v u hv hu
  have hleaf : l = ⟨.text "amount", some (.compare .greaterOrEqual), .int 2⟩ ∨
      l = ⟨.text "status", some (.equals false), .text "open"⟩ ∨
      l = ⟨.text "amount", some (.equals true), .int 7⟩ := by
    simp only [orderFilters, List.mem_cons, List.not_mem_nil, or_false] at hdescription
    rcases hdescription with rfl | rfl
    · have hany : f = .any [.leaf (.text "amount") (some (.compare .greaterOrEqual)) (.int 2),
          .leaf (.text "status") (some (.equals false)) (.text "open")] := by
        cases hf
        rfl
      rw [hany] at hl
      simp only [Filter.leaves, Filter.leavesOf, List.singleton_append, List.append_nil,
        List.mem_cons, List.not_mem_nil, or_false] at hl
      exact hl.imp_right .inl
    · have hsingle : f = .leaf (.text "amount") (some (.equals true)) (.int 7) := by
        cases hf
        rfl
      rw [hsingle] at hl
      exact .inr (.inr (List.mem_singleton.mp hl))
  have hrows : ordersTable.rows = [[("amount", .real (.ofInt 1)), ("status", .text "sent")],
      [("amount", .real .nan), ("status", .text " Open")],
      [("amount", .real (.ofInt 3)), ("status", .real .nan)]] := rfl
  rw [hrows] at hrow
  unfold orders at hrecord
  -- each of the three leaves meets each of the three rows
  rcases hleaf with rfl | rfl | rfl <;> cases htest <;> rcases i with _ | _ | _ | i <;>
    cases hrecord <;> cases hrow <;> cases hv <;> cases hu <;>
    exact ⟨fun _ _ => rfl, fun n x hn hx _ => by cases hn <;> cases hx <;> decide +kernel, rfl⟩

theorem orders_kept : ofRecords orders = .ok ordersTable ∧
    (ordersTable.select .strict orderFilters).result = .ok [1, 2] := by
  have ht : ofRecords orders = .ok ordersTable := rfl
  have hcolumns : ordersTable.columns = [] → orders = [] := by rintro ⟨⟩
  have hpositions : (positions .strict orderFilters orders).result = .ok [1, 2] := by cbv
  exact ⟨ht, (select_reproduces_records ht hcolumns unseen_orders).1.trans hpositions⟩

-- A gap is null in a record and NaN in a table: the test for null keeps the record and not the
-- row.
theorem gap_not_null :
    ∃ t, ofRecords [.object [("status", .text "sent")], .object []] = .ok t ∧
      (positions .permissive [.object [("column", .text "status"), ("isNull", .bool true)]]
        [.object [("status", .text "sent")], .object []]).result = .ok [1] ∧
      (t.select .permissive [.object [("column", .text "status"), ("isNull", .bool true)]]).result =
        .ok [] :=
  ⟨⟨2, [("status", [.text "sent", .real .nan])]⟩, rfl, by cbv, by cbv⟩

end Table

end Tileboard
