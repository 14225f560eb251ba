import Mathlib
import Tileboard.Proofs.Measure.Partition
import Tileboard.Proofs.Measure.Settled

namespace Tileboard

namespace Measure

section Groups

variable {matcher : Option Matcher} {column field filterType row : Value} {metric : Option Metric}
  {rows active : List Value} {groups : Groups}

theorem addRow_of_filed (h : Filed column field row) (groups : Groups) :
    ∃ out, addRow column field groups row = .ok out := by
  obtain ⟨cell, hcell⟩ := h.cell
  unfold addRow
  rw [hcell, ok_bind, h.numbers, ok_bind]
  by_cases hempty : (numbersAt field row).isEmpty = true
  · exact ⟨groups, if_pos hempty⟩
  · have hentry : entryAt? column field row = some (keyOf cell, numbersAt field row) := by
      unfold entryAt?
      rw [hcell]
      exact if_neg hempty
    rw [if_neg hempty, if_pos (h.key _ hentry)]
    exact ⟨_, rfl⟩

-- Induction on the rows: each row that is wanted finds its place.
theorem groupRows_of_filed (hanswers : ∀ row ∈ rows, (wants matcher row).Answers)
    (hfiled : ∀ row ∈ matched matcher rows, Filed column field row) (groups : Groups) :
    ∃ out, (groupRows matcher column field groups rows).result = .ok out := by
  induction rows generalizing groups with
  | nil => exact ⟨groups, rfl⟩
  | cons row rest ih =>
      obtain ⟨hrow, hrest⟩ := List.forall_mem_cons.mp hanswers
      have hanswer := hrow.result_eq
      rw [matched, List.filter_cons] at hfiled
      rw [groupRows_cons, Traced.result_bind, hanswer, ok_bind]
      cases hwanted : (wants matcher row).isTrue with
      | false =>
          rw [hwanted, if_neg Bool.false_ne_true] at hfiled
          exact ih hrest hfiled groups
      | true =>
          rw [hwanted, if_pos rfl] at hfiled
          obtain ⟨hrowFiled, hrestFiled⟩ := List.forall_mem_cons.mp hfiled
          obtain ⟨next, hnext⟩ := addRow_of_filed hrowFiled groups
          obtain ⟨out, hout⟩ := ih hrest hrestFiled next
          refine ⟨out, ?_⟩
          rw [if_pos rfl, Traced.result_lift_bind, hnext, ok_bind, hout]

theorem grouped_succeeds_iff (hanswers : ∀ row ∈ active, (wants matcher row).Answers) :
    (∃ o, (grouped matcher column field metric filterType active).result = .ok o) ↔
      (∀ row ∈ matched matcher active, Filed column field row) ∧
      ∀ g ∈ groupsOf column field (counted matcher field active), Settled metric g.numbers := by
  have hkept := matching_matched hanswers
  constructor
  · rintro ⟨o, h⟩
    obtain ⟨tiles, kept, -, hkeep, hfiled, htiles⟩ := grouped_eq_tiles h
    cases hkept.symm.trans hkeep
    refine ⟨hfiled, fun g hg => ?_⟩
    rw [gather_eq_groupsOf hfiled rfl, List.forall₂_map_left_iff] at htiles
    obtain ⟨tile, -, value, hvalue, -⟩ := exists_right_of_forall₂ htiles hg
    exact settled_of_aggregate hvalue
  · rintro ⟨hfiled, hsettled⟩
    obtain ⟨groups, hgroups⟩ := groupRows_of_filed hanswers hfiled []
    obtain ⟨kept, hkeep, -, rfl⟩ := groupRows_eq_ok hgroups
    cases hkept.symm.trans hkeep
    rw [gather_eq_groupsOf hfiled rfl] at hgroups
    have htiles : ∀ entry ∈ (groupsOf column field (counted matcher field active)).map
        fun g => (g.key, g.numbers), ∃ tile, (do
          return groupTile column filterType entry.1 (← Metric.aggregate metric entry.2)) =
            Except.ok tile := by
      rintro entry hentry
      obtain ⟨g, hg, rfl⟩ := List.mem_map.mp hentry
      obtain ⟨value, hvalue, -⟩ := aggregate_of_settled (hsettled g hg)
      exact ⟨_, bind_eq_ok_iff.mpr ⟨value, hvalue, rfl⟩⟩
    obtain ⟨tiles, htiles⟩ := mapM_succeeds_iff.mpr htiles
    exact ⟨_, Traced.bind_result_eq_ok_iff.mpr
      ⟨_, hgroups, Traced.lift_bind_eq_ok_iff.mpr ⟨tiles, htiles, rfl⟩⟩⟩

section Records

variable {column name : String} (hrecords : ∀ row ∈ active, ∃ fields, row = .object fields)

theorem canBeKey_keyOf (cell : Value) : (keyOf cell).canBeKey = cell.canBeKey := by
  cases cell <;> rfl

-- A record is put under its key unless its number is past all others. Only lists and objects are no
-- keys, and they stop it only if there is a number to put under them.
theorem filed_iff (hrecord : ∃ fields, row = .object fields) :
    Filed (.text column) (.text name) row ↔ ¬TooLarge (row.field name) ∧
      ((∃ x, Denotes (row.field name) x) → (row.field column).canBeKey = true) := by
  have hcell := Value.cell_of_record hrecord column
  have hrow : ∀ r ∈ [row], ∃ fields, r = .object fields := by simpa using hrecord
  rw [← canBeKey_keyOf]
  constructor
  · rintro ⟨-, hnumbers, hkey⟩
    have hbounded : Bounded name [row] := bounded_of_numbersIn hnumbers hrow
    refine ⟨hbounded row List.mem_cons_self, ?_⟩
    rintro ⟨x, hx⟩
    have hat : numbersAt (.text name) row = [x] := by
      rw [numbersAt, numbersIn_of_kept (.number hx .nil) hrow hbounded]
    refine hkey (keyOf (row.field column), [x]) ?_
    rw [entryAt?, hcell, hat]
    rfl
  · rintro ⟨hlarge, hkey⟩
    have hbounded : Bounded name [row] := by simpa [Bounded] using hlarge
    obtain ⟨numbers, hkept⟩ := exists_kept name [row]
    have hnumbers := numbersIn_of_kept hkept hrow hbounded
    have hat : numbersAt (.text name) row = numbers := by rw [numbersAt, hnumbers]
    refine ⟨⟨_, hcell⟩, by rw [hat, hnumbers], fun entry hentry => ?_⟩
    obtain ⟨cell, hfound, rfl, hne⟩ := entryAt?_eq_some hentry
    cases hcell.symm.trans hfound
    rw [hat] at hne
    cases hkept with
    | number hx _ => exact hkey ⟨_, hx⟩
    | dropped _ hrest =>
        cases hrest
        exact absurd rfl hne

-- What groups need of the rows and of the numbers in each group: no number past all others, no list
-- or object beside a number, averages that can be rounded.
structure Groupable (column name : String) (metric : Option Metric) (rows : List Value)
    (groups : List Group) : Prop where
  bounded : Bounded name rows
  keys : ∀ row ∈ rows, (∃ x, Denotes (row.field name) x) → (row.field column).canBeKey = true
  settled : ∀ g ∈ groups, Settled metric g.numbers

include hrecords

theorem made_of_records {groups : List Group}
    (hgroups : groups =
      groupsOf (.text column) (.text name) (counted matcher (.text name) active)) :
    ∀ g ∈ groups, g.Made (.text column) (.text name) ∧
      Kept name (g.rows.map Prod.fst) g.numbers := by
  subst hgroups
  have hmem : ∀ row ∈ counted matcher (.text name) active, row.1 ∈ active := fun row hrow =>
    List.mem_of_getElem? (List.mem_zipIdx_iff_getElem?.mp (List.mem_of_mem_filter hrow))
  have hmade := groupsOf_made
    (fun row hrow => ⟨_, Value.cell_of_record (hrecords row.1 (hmem row hrow)) column⟩)
    fun row hrow => ?_
  · intro g hg
    refine ⟨hmade g hg, kept_of_numbersIn (hmade g hg).numbers fun row hrow => ?_⟩
    obtain ⟨found, hfound, rfl⟩ := List.mem_map.mp hrow
    have hall := List.mem_flatMap.mpr ⟨g, hg, hfound⟩
    exact hrecords found.1 (hmem found ((groupsOf_rows _ _ _).mem_iff.mp hall))
  · have hcounts := (List.mem_filter.mp hrow).2
    have hne : numbersAt (.text name) row.1 ≠ [] := by
      simpa using (Bool.and_eq_true_iff.mp hcounts).2
    obtain ⟨x, hx⟩ := numbersIn_eq_singleton hne
    exact ⟨by rw [numbersAt, hx], hne⟩

-- Each row that is wanted and has a number is in one of the groups.
theorem grouped_of_denotes {groups : List Group} {x : Binary64}
    (hshare : Group.ShareOut matcher (.text name) active groups)
    (hrow : row ∈ matched matcher active) (h : Denotes (row.field name) x) :
    ∃ g ∈ groups, row ∈ g.rows.map Prod.fst := by
  obtain ⟨hactive, hwanted⟩ := List.mem_filter.mp hrow
  obtain ⟨place, hplace⟩ := List.mem_iff_getElem?.mp hactive
  have hnumbers : numbersIn (.text name) [row] = .ok [x] := by
    rw [numbersIn, Value.cell_of_record (hrecords row hactive), ok_bind, numberIn_of_denotes h]
    rfl
  have hin := (hshare.complete row place).mpr ⟨hplace, Traced.ok_of_isTrue hwanted, x, hnumbers⟩
  obtain ⟨g, hg, hmem⟩ := List.mem_flatMap.mp hin
  exact ⟨g, hg, List.mem_map_of_mem hmem⟩

theorem groupable_iff (groups : List Group) :
    Groupable column name metric (matched matcher active) groups ↔
    (∀ row ∈ matched matcher active, Filed (.text column) (.text name) row) ∧
      ∀ g ∈ groups, Settled metric g.numbers := by
  have hfiled : ∀ row ∈ matched matcher active, _ := fun row hrow =>
    @filed_iff row column name (records_of_matched hrecords row hrow)
  constructor
  · rintro ⟨hbounded, hkeys, hsettled⟩
    exact ⟨fun row hrow => (hfiled row hrow).mpr ⟨hbounded row hrow, hkeys row hrow⟩, hsettled⟩
  · rintro ⟨hall, hsettled⟩
    exact ⟨fun row hrow => ((hfiled row hrow).mp (hall row hrow)).1,
      fun row hrow => ((hfiled row hrow).mp (hall row hrow)).2, hsettled⟩

end Records

end Groups

section Results

variable {mode : Mode} {f : Option Filter} {matcher : Option Matcher} {column name : String}
  {filterType : Value} {metric : Option Metric} {active previous : List Value}

-- When the metrics of two windows and the tiles of groups come to a result, and to which. A cell
-- that denotes no number is dropped, a missing one is zero, and each key that goes with a number
-- has its tile.
theorem aggregations_return_iff (hready : (readyFor mode f).result = .ok matcher)
    (hrecords : ∀ row ∈ active ++ previous, ∃ fields, row = .object fields)
    (hanswers : ∀ row ∈ active ++ previous, (wants matcher row).Answers) :
    (∃ here before, Kept name (matched matcher active) here ∧
      Kept name (matched matcher previous) before ∧ ∀ compare,
        ((∃ o, (aggregateOf mode f (.text name) metric compare active previous).result = .ok o) ↔
          Measurable name metric compare (matched matcher active) (matched matcher previous) here
            before) ∧
        ∀ o, (aggregateOf mode f (.text name) metric compare active previous).result = .ok o →
          ∃ value valueBefore, Metric.aggregate metric here = .ok value ∧
            Metric.aggregate metric before = .ok valueBefore ∧
            outcomeOf compare value valueBefore = .ok o ∧
            o.value = .number value ∧ o.previous = .number valueBefore) ∧
    ∃ groups, Group.ShareOut matcher (.text name) active groups ∧
      (∀ g ∈ groups, g.Made (.text column) (.text name) ∧
        Kept name (g.rows.map Prod.fst) g.numbers) ∧
      (∀ row ∈ matched matcher active, (∃ x, Denotes (row.field name) x) →
        ∃ g ∈ groups, row ∈ g.rows.map Prod.fst) ∧
      ((∃ o, (groupedOf mode f (.text column) (.text name) metric filterType active).result = .ok o) ↔
        Groupable column name metric (matched matcher active) groups) ∧
      ∀ o, (groupedOf mode f (.text column) (.text name) metric filterType active).result = .ok o →
        ∃ tiles, o.groups = some tiles ∧
          List.Forall₂ (Group.ShownAs (.text column) filterType metric) groups tiles := by
  obtain ⟨hrecordsHere, -⟩ := List.forall_mem_append.mp hrecords
  obtain ⟨hanswersHere, -⟩ := List.forall_mem_append.mp hanswers
  have haggregate : ∀ compare,
      (aggregateOf mode f (.text name) metric compare active previous).result =
      (aggregate matcher (.text name) metric compare active previous).result := fun compare => by
    rw [aggregateOf, Traced.result_bind, hready, ok_bind]
  have hgrouped : (groupedOf mode f (.text column) (.text name) metric filterType active).result =
      (grouped matcher (.text column) (.text name) metric filterType active).result := by
    rw [groupedOf, Traced.result_bind, hready, ok_bind]
  simp only [haggregate, hgrouped]
  constructor
  · obtain ⟨here, hhere⟩ := exists_kept name (matched matcher active)
    obtain ⟨before, hbefore⟩ := exists_kept name (matched matcher previous)
    refine ⟨here, before, hhere, hbefore, fun compare =>
      ⟨aggregate_succeeds_iff hrecords hanswers hhere hbefore, fun o ho => ?_⟩⟩
    obtain ⟨-, -, value, valueBefore, hvalue, hvalueBefore, ho⟩ :=
      (aggregate_eq_ok_iff hrecords hanswers hhere hbefore).mp ho
    exact ⟨value, valueBefore, hvalue, hvalueBefore, ho, outcomeOf_values ho⟩
  · have hshare : Group.ShareOut matcher (.text name) active
        (groupsOf (.text column) (.text name) (counted matcher (.text name) active)) :=
      groupsOf_shareOut hanswersHere
    refine ⟨_, hshare, made_of_records hrecordsHere rfl, ?_, ?_, fun o ho => ?_⟩
    · rintro row hrow ⟨x, hx⟩
      exact grouped_of_denotes hrecordsHere hshare hrow hx
    · rw [grouped_succeeds_iff hanswersHere, groupable_iff hrecordsHere]
    · obtain ⟨tiles, kept, hgroups, hkept, hfiled, htiles⟩ := grouped_eq_tiles ho
      cases (matching_matched hanswersHere).symm.trans hkept
      rw [gather_eq_groupsOf hfiled rfl, List.forall₂_map_left_iff] at htiles
      exact ⟨tiles, hgroups, htiles⟩

-- Past all binary64 numbers.
def vast : Int := 10 ^ 309

-- Rows in a store: a number, the text of one, none at all, a text beside a list, and a number past
-- all others that is not asked for.
def shelf : List Value :=
  [.object [("kind", .text "a"), ("w", .text "Main"), ("q", .int 3)],
    .object [("kind", .text "a"), ("q", .text "2")],
    .object [("kind", .text "a"), ("w", .text "Annex")],
    .object [("kind", .text "a"), ("w", .list []), ("q", .text "n/a")],
    .object [("kind", .text "b"), ("w", .text "Main"), ("q", .int vast)]]

def shelfBefore : List Value := [.object [("kind", .text "a"), ("q", .int 4)]]

def ofKind : Filter := .leaf (.text "kind") (some (.equals false)) (.text "a")

def isOfKind : Matcher := .equals (.text "kind") (.text "a") false

theorem shelf_returns :
    ((aggregateOf .strict (some ofKind) (.text "q") (some .average) true shelf
      shelfBefore).result.toOption.map fun o => (o.value.asText, o.previous.asText)) =
        some ("2", "4") ∧
    (∃ here before, Kept "q" (matched (some isOfKind) shelf) here ∧
      Kept "q" (matched (some isOfKind) shelfBefore) before ∧
      Measurable "q" (some .average) true (matched (some isOfKind) shelf)
        (matched (some isOfKind) shelfBefore) here before) ∧
    ∃ groups, Group.ShareOut (some isOfKind) (.text "q") shelf groups ∧
      Groupable "w" "q" (some .average) (matched (some isOfKind) shelf) groups := by
  have hready : (readyFor .strict (some ofKind)).result = .ok (some isOfKind) := rfl
  have hrecords : ∀ row ∈ shelf ++ shelfBefore, ∃ fields, row = .object fields := by
    simp [shelf, shelfBefore]
  have hanswers : ∀ row ∈ shelf ++ shelfBefore, (wants (some isOfKind) row).Answers := by
    intro row hrow
    exact ⟨_, Matcher.accepts_equals _ _ (Value.cell_of_record (hrecords row hrow) "kind")⟩
  obtain ⟨⟨here, before, hhere, hbefore, haggregate⟩, groups, hshare, -, -, hgrouped, -⟩ :=
    @aggregations_return_iff .strict (some ofKind) (some isOfKind) "w" "q" .null (some .average) shelf
      shelfBefore hready hrecords hanswers
  refine ⟨by decide +kernel, ⟨here, before, hhere, hbefore, ?_⟩, groups, hshare, ?_⟩
  · exact (haggregate true).1.mp (eq_ok_of_isOk (by decide +kernel))
  · exact hgrouped.mp (eq_ok_of_isOk (by decide +kernel))

-- A whole number past all others stops the metric, a list beside a number the groups, and an
-- average of more than twenty-eight digits its rounding.
theorem vast_cell_stops :
    (aggregateOf .strict none (.text "q") (some .sum) true
      [.object [("q", .int vast)]] []).result = .error .numberTooLarge ∧
    (groupedOf .strict none (.text "w") (.text "q") (some .sum) .null
      [.object [("w", .list [.text "a"]), ("q", .int 1)]]).result =
        .error (.unhashable (.list [.text "a"])) ∧
    (aggregateOf .strict none (.text "q") (some .average) false
      [.object [("q", .int (10 ^ 28))]] []).result = .error .notRoundable := by
  have hunasked : ∀ metric compare rows,
      (aggregateOf .strict none (.text "q") metric compare rows []).result = (do
        let value ← numbersIn (.text "q") rows >>= Metric.aggregate metric
        outcomeOf compare value (.int 0)) := by
    intro metric compare rows
    change (aggregate none (.text "q") metric compare rows []).result = _
    rw [aggregate_result none rfl rfl, bind_assoc]
    rfl
  refine ⟨?_, rfl, ?_⟩
  · have hlarge : TooLarge (.int vast) := ⟨_, rfl, by decide +kernel⟩
    rw [hunasked, numbersIn, Value.cell_of_record ⟨_, rfl⟩, ok_bind]
    change ((numberIn (.int vast) >>= _) >>= _) >>= _ = _
    rw [numberIn_tooLarge hlarge]
    rfl
  · have hnumber : numberIn (.int (10 ^ 28)) = .ok (some (Binary64.ofInt (10 ^ 28))) :=
      numberIn_of_denotes (.whole (by decide +kernel))
    have hround : (Number.real (Statistics.mean [Binary64.ofInt (10 ^ 28)])).round 0 =
        .error .notRoundable := by decide +kernel
    rw [hunasked, numbersIn, Value.cell_of_record ⟨_, rfl⟩, ok_bind]
    change ((numberIn (.int (10 ^ 28)) >>= _) >>= _) >>= _ = _
    rw [hnumber, ok_bind]
    change (Metric.aggregate (some .average) [Binary64.ofInt (10 ^ 28)]) >>= _ = _
    rw [Metric.aggregate, roundedWhole, rounded, hround]
    rfl

end Results

end Measure

end Tileboard
