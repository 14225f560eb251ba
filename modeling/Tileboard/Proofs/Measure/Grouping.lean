import Mathlib
import Tileboard.Proofs.Measure.Filing

namespace Tileboard.Measure

section Selecting

-- A cell that is in the group of a key and not among what the filter of the key selects, or the
-- other way round: a missing one, other spellings of one text, and truth values beside numbers.
inductive Astray : Value → Value → Prop
  | missing : Astray unknownKey .null
  | spelling {s t : String} (hne : s ≠ t) (h : Text.fold s = Text.fold t) :
      Astray (.text s) (.text t)
  | truth {b : Bool} {n : Number} (h : Number.same (.int (if b then 1 else 0)) n = true) :
      Astray (.bool b) (.number n)
  | quantity {n : Number} {b : Bool} (h : Number.same n (.int (if b then 1 else 0)) = true) :
      Astray (.number n) (.bool b)

section Cells

variable {key : Value}

theorem matchesValue_ne_iff_astray_null (hnull : key.isNull = false) :
    Value.null.matchesValue key ≠ key.equal (keyOf .null) ↔ Astray key .null := by
  rw [Value.matchesValue_null, hnull, ne_comm, Bool.ne_false_iff]
  cases key with
  | text s =>
      simp only [keyOf, unknownKey, Value.equal, Value.isNull, if_true, beq_iff_eq]
      constructor
      · rintro rfl
        exact .missing
      · rintro ⟨⟩
        rfl
  | _ =>
      simp only [keyOf, unknownKey, Value.equal, Value.isNull, if_true]
      exact iff_of_false (by rintro ⟨⟩) (by rintro ⟨⟩)

theorem matchesValue_ne_iff_astray_bool (hkey : key.canBeKey = true) (hnull : key.isNull = false)
    (b : Bool) :
    (Value.bool b).matchesValue key ≠ key.equal (keyOf (.bool b)) ↔ Astray key (.bool b) := by
  cases key with
  | number n =>
      simp only [keyOf, Value.isNull, Value.matchesValue, Value.normalize, Value.equal,
        Value.isBool]
      simp only [Bool.true_beq, Bool.false_and, Bool.false_eq_true, if_false]
      rw [ne_comm, Bool.ne_false_iff]
      exact ⟨.quantity, fun h => by cases h with | quantity h => exact h⟩
  | null => cases hnull
  | list items => cases hkey
  | object fields => cases hkey
  | _ =>
      exact iff_of_false (by simp [keyOf, Value.isNull, Value.matchesValue, Value.normalize,
        Value.equal, Value.isBool, Bool.beq_comm]) (by rintro ⟨⟩)

theorem matchesValue_ne_iff_astray_number (hkey : key.canBeKey = true) (hnull : key.isNull = false)
    (n : Number) :
    (Value.number n).matchesValue key ≠ key.equal (keyOf (.number n)) ↔ Astray key (.number n) := by
  cases key with
  | bool b =>
      simp only [keyOf, Value.isNull, Value.matchesValue, Value.normalize, Value.equal,
        Value.isBool]
      simp only [Bool.false_beq, Bool.not_true, Bool.false_and, Bool.false_eq_true, if_false]
      rw [ne_comm, Bool.ne_false_iff]
      exact ⟨.truth, fun h => by cases h with | truth h => exact h⟩
  | null => cases hnull
  | list items => cases hkey
  | object fields => cases hkey
  | _ =>
      exact iff_of_false (by simp [keyOf, Value.isNull, Value.matchesValue, Value.normalize,
        Value.equal, Value.isBool, Number.same_comm]) (by rintro ⟨⟩)

theorem matchesValue_ne_iff_astray_text (hkey : key.canBeKey = true) (hnull : key.isNull = false)
    (s : String) :
    (Value.text s).matchesValue key ≠ key.equal (keyOf (.text s)) ↔ Astray key (.text s) := by
  cases key with
  | text t =>
      simp only [keyOf, Value.isNull, Value.matchesValue, Value.normalize, Value.equal,
        Value.isBool, beq_self_eq_true, Bool.true_and, Bool.false_eq_true, if_false]
      constructor
      · intro h
        have hne : t ≠ s := by
          rintro rfl
          simp at h
        have hfold : Text.fold s = Text.fold t := by simpa [hne] using h
        exact .spelling hne hfold.symm
      · rintro (⟨⟩ | ⟨hne, hfold⟩)
        simp [hne, hfold]
  | null => cases hnull
  | list items => cases hkey
  | object fields => cases hkey
  | _ =>
      exact iff_of_false (by simp [keyOf, Value.isNull, Value.matchesValue, Value.normalize,
        Value.equal, Value.isBool]) (by rintro ⟨⟩)

-- A filter and a group tell cells apart in just the ways of going astray.
theorem matchesValue_ne_iff_astray {cell : Value} (hkey : key.canBeKey = true)
    (hnull : key.isNull = false) (hcell : (keyOf cell).canBeKey = true) :
    cell.matchesValue key ≠ key.equal (keyOf cell) ↔ Astray key cell := by
  cases cell with
  | null => exact matchesValue_ne_iff_astray_null hnull
  | bool b => exact matchesValue_ne_iff_astray_bool hkey hnull b
  | number n => exact matchesValue_ne_iff_astray_number hkey hnull n
  | text s => exact matchesValue_ne_iff_astray_text hkey hnull s
  | list items => cases hcell
  | object fields => cases hcell

end Cells

theorem ofValue_groupFilter (column key : Value) :
    Filter.ofValue (groupFilter column key).toValue = .ok (groupFilter column key) := by
  rfl

theorem isNull_keyOf (cell : Value) : (keyOf cell).isNull = false := by
  unfold keyOf
  split
  · rfl
  · exact Bool.eq_false_iff.mpr ‹_›

theorem grouped_eq_tiles {matcher : Option Matcher} {column field filterType : Value}
    {metric : Option Metric} {active : List Value} {o : Outcome}
    (h : (grouped matcher column field metric filterType active).result = .ok o) :
    ∃ tiles kept, o.groups = some tiles ∧ (matching matcher active).result = .ok kept ∧
      (∀ row ∈ kept, Filed column field row) ∧
      List.Forall₂ (fun (entry : Value × List Binary64) tile => ∃ value,
          Metric.aggregate metric entry.2 = .ok value ∧
            tile = groupTile column filterType entry.1 value)
        (gather [] (kept.filterMap (entryAt? column field))) tiles := by
  obtain ⟨groups, hgroups, h⟩ := Traced.bind_result_eq_ok_iff.mp h
  obtain ⟨tiles, htiles, h⟩ := Traced.bind_result_eq_ok_iff.mp h
  cases h
  obtain ⟨kept, hkept, hfiled, rfl⟩ := groupRows_eq_ok hgroups
  refine ⟨tiles, kept, rfl, hkept, hfiled, (mapM_eq_ok htiles).imp ?_⟩
  intro entry tile htile
  obtain ⟨value, hvalue, htile⟩ := bind_eq_ok_iff.mp htile
  cases htile
  exact ⟨value, hvalue, rfl⟩

-- The tiles of groups: their filters are those of keys, and a key comes from a row that matches.
theorem grouped_eq_ok {matcher : Option Matcher} {column field filterType : Value}
    {metric : Option Metric} {active : List Value} {o : Outcome}
    (h : (grouped matcher column field metric filterType active).result = .ok o) :
    ∃ tiles kept, o.groups = some tiles ∧ (matching matcher active).result = .ok kept ∧
      (∀ row ∈ kept, Filed column field row) ∧
      ∀ s ∈ tiles, ∃ key numbers value,
        (key, numbers) ∈ gather [] (kept.filterMap (entryAt? column field)) ∧
        Metric.aggregate metric numbers = .ok value ∧
        s = groupTile column filterType key value := by
  obtain ⟨tiles, kept, ho, hkept, hfiled, htiles⟩ := grouped_eq_tiles h
  refine ⟨tiles, kept, ho, hkept, hfiled, fun s hs => ?_⟩
  obtain ⟨⟨key, numbers⟩, hmem, value, hvalue, rfl⟩ := exists_left_of_forall₂ htiles hs
  exact ⟨key, numbers, value, hmem, hvalue, rfl⟩

-- The filter of a key selects rows with the numbers under this key, if no row with a number is
-- astray for it.
theorem selected_numbers {column field key : Value} {kept : List Value}
    (hfiled : ∀ row ∈ kept, Filed column field row) (hkey : key.canBeKey = true)
    (hnull : key.isNull = false)
    (hastray : ∀ row ∈ kept, ∀ cell, row.cell column = .ok cell → Astray key cell →
      numbersIn field [row] = .ok []) :
    ∃ rows, (Selection.keep (Matcher.accepts (.equals column key false)) kept).result = .ok rows ∧
      numbersIn field rows =
        .ok (numbersOf key.equal (kept.filterMap (entryAt? column field))) := by
  -- the filter asks each row for a cell that matches the key
  have haccepts : ∀ {row cell : Value}, row.cell column = .ok cell →
      (Matcher.accepts (.equals column key false) row).result = .ok (cell.matchesValue key) := by
    intro row cell hcell
    rw [Matcher.accepts_equals _ _ hcell, Bool.bne_false]
  have hkeep := Selection.keep_eq_filter fun row hrow =>
    (hfiled row hrow).cell.elim fun cell hcell => ⟨_, haccepts hcell⟩
  refine ⟨_, hkeep, ?_⟩
  rw [numbersIn_eq_flatMap fun row hrow => (hfiled row (List.mem_of_mem_filter hrow)).numbers]
  congr 1
  refine (numbersOf_entries hfiled fun row hrow entry hentry => ?_).symm
  have hkeyOther := (hfiled row hrow).key entry hentry
  obtain ⟨cell, hcell, rfl, hsome⟩ := entryAt?_eq_some hentry
  rw [Traced.isTrue_of_ok (haccepts hcell)]
  by_contra hne
  have hnone := hastray row hrow cell hcell
    ((matchesValue_ne_iff_astray hkey hnull hkeyOther).mp (Ne.symm hne))
  rw [(hfiled row hrow).numbers] at hnone
  exact hsome (Except.ok.inj hnone)

-- The rows that match the filter of a tile, besides that of the whole, give the value of the tile
-- again: unless the key of the tile is NaN, or a row with a number is astray for it.
theorem filter_selects_group {matcher : Option Matcher} {column field filterType : Value}
    {metric : Option Metric} {active : List Value} {o : Outcome}
    (h : (grouped matcher column field metric filterType active).result = .ok o) :
    ∃ tiles kept, o.groups = some tiles ∧ (matching matcher active).result = .ok kept ∧
      ∀ s ∈ tiles, ∃ key, s.field "filter" = (groupFilter column key).toValue ∧
        (key ≠ .real .nan →
          (∀ row ∈ kept, ∀ cell, row.cell column = .ok cell → Astray key cell →
            numbersIn field [row] = .ok []) →
          ∀ mode, ∃ f m rows numbers value, Filter.ofValue (s.field "filter") = .ok f ∧
            (Matcher.ofFilter mode f).result = .ok m ∧
            (Selection.keep m.accepts kept).result = .ok rows ∧
            numbersIn field rows = .ok numbers ∧ Metric.aggregate metric numbers = .ok value ∧
            s.field "value" = .number value) := by
  obtain ⟨tiles, kept, ho, hkept, hfiled, htiles⟩ := grouped_eq_ok h
  refine ⟨tiles, kept, ho, hkept, fun s hs => ?_⟩
  obtain ⟨key, numbers, value, hmem, hvalue, rfl⟩ := htiles s hs
  refine ⟨key, rfl, fun hnan hastray mode => ?_⟩
  have hkeys : ∀ entry ∈ kept.filterMap (entryAt? column field), entry.1.canBeKey = true := by
    intro entry hentry
    obtain ⟨row, hrow, hat⟩ := List.mem_filterMap.mp hentry
    exact (hfiled row hrow).key entry hat
  obtain ⟨⟨entry, hentry, rfl⟩, hnumbers⟩ := gather_numbers hkeys hmem
  have hkey := hkeys entry hentry
  have hnull : entry.1.isNull = false := by
    obtain ⟨row, -, hat⟩ := List.mem_filterMap.mp hentry
    obtain ⟨cell, -, rfl, -⟩ := entryAt?_eq_some hat
    exact isNull_keyOf cell
  obtain ⟨rows, hrows, hselected⟩ := selected_numbers hfiled hkey hnull hastray
  rw [← hnumbers (Value.equal_self_of_key hkey hnan)] at hselected
  exact ⟨groupFilter column entry.1, .equals column entry.1 false, rows, numbers, value,
    ofValue_groupFilter column entry.1, rfl, hrows, hselected, hvalue, rfl⟩

-- Rows of a store: some without a place, some without a number.
def stock : List Value :=
  [.object [("warehouse", .text "Main"), ("qty", .int 3)],
    .object [("warehouse", .null), ("qty", .int 1)],
    .object [("warehouse", .text "Main"), ("qty", .int 4)],
    .object [("warehouse", .text "main"), ("qty", .text "n/a")]]

def mainTile : Value :=
  groupTile (.text "warehouse") .null (.text "Main") (.real (Statistics.sum [.ofInt 3, .ofInt 4]))

def unknownTile : Value :=
  groupTile (.text "warehouse") .null unknownKey (.real (Statistics.sum [.ofInt 1]))

theorem main_selects_group :
    (grouped none (.text "warehouse") (.text "qty") (some .sum) .null stock).result =
      .ok ⟨.null, .null, Outcome.unchanged, some [mainTile, unknownTile]⟩ ∧
    ∃ f m rows numbers value, Filter.ofValue (mainTile.field "filter") = .ok f ∧
      (Matcher.ofFilter .strict f).result = .ok m ∧
      (Selection.keep m.accepts stock).result = .ok rows ∧
      numbersIn (.text "qty") rows = .ok numbers ∧
      Metric.aggregate (some .sum) numbers = .ok value ∧
      mainTile.field "value" = .number value := by
  have h : (grouped none (.text "warehouse") (.text "qty") (some .sum) .null stock).result =
      .ok ⟨.null, .null, Outcome.unchanged, some [mainTile, unknownTile]⟩ := rfl
  obtain ⟨tiles, kept, htiles, hkept, hselects⟩ := filter_selects_group h
  cases htiles
  cases hkept
  obtain ⟨key, hkey, hselects⟩ := hselects mainTile List.mem_cons_self
  cases hkey
  refine ⟨h, hselects (by rintro ⟨⟩) ?_ .strict⟩
  intro row hrow cell hcell hastray
  simp only [stock, List.mem_cons, List.not_mem_nil, or_false] at hrow
  rcases hrow with rfl | rfl | rfl | rfl <;> cases hcell
  · exact absurd (by cbv) ((matchesValue_ne_iff_astray rfl rfl rfl).mpr hastray)
  · exact absurd (by cbv) ((matchesValue_ne_iff_astray rfl rfl rfl).mpr hastray)
  · exact absurd (by cbv) ((matchesValue_ne_iff_astray rfl rfl rfl).mpr hastray)
  · cbv

-- True and one are one key but not one value to a filter: the tile counts both rows, its filter
-- selects the first.
theorem truth_selects_part :
    ∃ s f m x y,
      (grouped none (.text "w") (.text "q") (some .sum) .null
        [.object [("w", .bool true), ("q", .int 1)], .object [("w", .int 1), ("q", .int 2)]]).result =
        .ok ⟨.null, .null, Outcome.unchanged, some [s]⟩ ∧
      Filter.ofValue (s.field "filter") = .ok f ∧
      (Matcher.ofFilter .permissive f).result = .ok m ∧
      (Selection.keep m.accepts
        [.object [("w", .bool true), ("q", .int 1)], .object [("w", .int 1), ("q", .int 2)]]).result =
        .ok [.object [("w", .bool true), ("q", .int 1)]] ∧
      numbersIn (.text "q") [.object [("w", .bool true), ("q", .int 1)]] = .ok [.ofInt 1] ∧
      Metric.aggregate (some .sum) [.ofInt 1] = .ok x ∧
      s.field "value" = .number y ∧ Number.same x y = false :=
  ⟨groupTile (.text "w") .null (.bool true) (.real (Statistics.sum [.ofInt 1, .ofInt 2])),
    groupFilter (.text "w") (.bool true), .equals (.text "w") (.bool true) false,
    .real (Statistics.sum [.ofInt 1]), .real (Statistics.sum [.ofInt 1, .ofInt 2]),
    rfl, rfl, rfl, rfl, rfl, rfl, rfl, by decide +kernel⟩

end Selecting

end Tileboard.Measure
