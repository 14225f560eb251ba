import Mathlib
import Tileboard.Table.TextColumn
import Tileboard.Proofs.Number.Scanned
import Tileboard.Proofs.Table.Record
import Tileboard.Proofs.Value.Equality

namespace Tileboard

namespace Value

theorem matchesValue_int_iff {m n : Int} : (int m).matchesValue (.int n) = true ↔ m = n := by
  simp [matchesValue, normalize, int, isBool, equal, Number.same, Number.place?]

theorem matchesValue_real_iff {x y : Binary64} (hx : x.isFinite = true) (hy : y.isFinite = true) :
    (real x).matchesValue (.real y) = true ↔ x.toRat? = y.toRat? := by
  cases x with
  | nan | infinite => cases hx
  | finite =>
      cases y with
      | nan | infinite => cases hy
      | finite =>
          simp [matchesValue, normalize, real, isBool, equal, Number.same, Number.place?,
            Binary64.toRat?]

end Value

theorem Cell.plain_real {x : Binary64} (h : x.isFinite = true) :
    (value (.real x)).plain = .real x := by
  cases x with
  | finite => rfl
  | _ => cases h

namespace Table

section Readings

variable {cells : List Cell} {s : WholeSpelling} {t : String} {n : Int} {near : Binary64}

-- A column has texts, and all of them are numbers that are no names.
structure IsConverted (cells : List Cell) : Prop where
  exists_text : ∃ t, some t ∈ trimmedTexts cells
  isNumeric : ∀ t, some t ∈ trimmedTexts cells → isNumericText t = true

-- A column has no gaps and only whole numbers that 64 bits hold, and no negative one beside one
-- past the signed ones.
structure StoresWhole (cells : List Cell) : Prop where
  within : ∀ t ∈ trimmedTexts cells, ∃ s : WholeSpelling, t = some s.text ∧
    -int64Bound ≤ s.value ∧ s.value < uint64Bound
  agree : ∀ s u : WholeSpelling, some s.text ∈ trimmedTexts cells →
    some u.text ∈ trimmedTexts cells → s.value < 0 → u.value < int64Bound

def readings (cells : List Cell) : List Reading :=
  (trimmedTexts cells).map fun t => (t.map Reading.ofText).getD .unreadable

theorem isConverted_iff : IsConverted cells ↔
    (!((trimmedTexts cells).filterMap id).isEmpty &&
      ((trimmedTexts cells).filterMap id).all isNumericText) = true := by
  have hpresent : ∀ t, t ∈ (trimmedTexts cells).filterMap id ↔ some t ∈ trimmedTexts cells := by
    simp
  rw [Bool.and_eq_true, Bool.not_eq_true', List.isEmpty_eq_false_iff_exists_mem, List.all_eq_true]
  simp only [hpresent]
  exact ⟨fun h => ⟨h.exists_text, h.isNumeric⟩, fun h => ⟨h.1, h.2⟩⟩

theorem numericTexts_of_converted (h : IsConverted cells) :
    numericTexts cells = (ofReadings (readings cells)).map .value :=
  if_pos (isConverted_iff.mp h)

theorem trim_of_mem (h : some t ∈ trimmedTexts cells) : Text.trim t = t := by
  obtain ⟨cell, -, hcell⟩ := List.mem_map.mp h
  split at hcell
  · rw [← Option.some.inj hcell, Text.trim_trim]
  · cases hcell

theorem ofText_spelling (h : isNumericText s.text = true) : ∃ near,
    Scan.ofText? s.text = some ⟨near, some s.value⟩ ∧ near.isFinite = true ∧
      Reading.ofText s.text = .whole s.value near := by
  have hread := Scan.ofText?_text s
  cases hscaled : Scan.scaled? (Scan.signed s.isNegative (Scan.start.addWhole s.digits).value)
      (Scan.start.addWhole s.digits).exponent with
  | some near =>
      rw [hscaled, Option.map_some] at hread
      exact ⟨near, hread, Scan.isFinite_of_scaled? hscaled, by rw [Reading.ofText, hread]⟩
  | none =>
      rw [hscaled, Option.map_none] at hread
      have hunreadable : Reading.ofText s.text = .unreadable := by rw [Reading.ofText, hread]
      rw [isNumericText, hunreadable] at h
      simp [Reading.isUnreadable] at h

theorem spelling_of_whole (h : Reading.ofText t = .whole n near) (htrim : Text.trim t = t) :
    ∃ s : WholeSpelling, s.text = t ∧ s.value = n := by
  unfold Reading.ofText at h
  split at h
  · rename_i hread
    cases h
    exact Scan.exists_spelling hread htrim
  · cases h
  · cases h

theorem exists_whole_of_not_needsReal (h : (Reading.ofText t).needsReal = false) :
    ∃ n near, Reading.ofText t = .whole n near ∧ -int64Bound ≤ n ∧ n < uint64Bound := by
  unfold Reading.ofText at h ⊢
  split at h
  · rename_i near n hread
    refine ⟨n, near, rfl, ?_⟩
    simp only [Reading.needsReal, Bool.or_eq_false_iff, decide_eq_false_iff_not, not_lt, not_le] at h
    exact h
  · cases h
  · cases h

theorem mem_wholeNumbers_iff (h : IsConverted cells) :
    n ∈ (readings cells).filterMap Reading.wholeNumber? ↔
      ∃ s : WholeSpelling, some s.text ∈ trimmedTexts cells ∧ s.value = n := by
  rw [readings, List.filterMap_map, List.mem_filterMap]
  constructor
  · rintro ⟨t, ht, hread⟩
    cases t with
    | none => cases hread
    | some t =>
        rw [Function.comp_apply, Option.map_some, Option.getD_some] at hread
        cases hreading : Reading.ofText t with
        | whole k near =>
            rw [hreading] at hread
            cases hread
            obtain ⟨s, rfl, hvalue⟩ := spelling_of_whole hreading (trim_of_mem ht)
            exact ⟨s, ht, hvalue⟩
        | _ =>
            rw [hreading] at hread
            cases hread
  · rintro ⟨s, hs, rfl⟩
    obtain ⟨near, -, -, hreading⟩ := ofText_spelling (h.isNumeric _ hs)
    refine ⟨_, hs, ?_⟩
    rw [Function.comp_apply, Option.map_some, Option.getD_some, hreading, Reading.wholeNumber?]

theorem spansSigns_iff (h : IsConverted cells) : spansSigns (readings cells) = true ↔
    ∃ s u : WholeSpelling, some s.text ∈ trimmedTexts cells ∧ some u.text ∈ trimmedTexts cells ∧
      s.value < 0 ∧ int64Bound ≤ u.value := by
  unfold spansSigns
  simp only [Bool.and_eq_true, List.any_eq_true, mem_wholeNumbers_iff h, decide_eq_true_eq]
  constructor
  · rintro ⟨⟨_, ⟨s, hs, rfl⟩, hnegative⟩, _, ⟨u, hu, rfl⟩, hlarge⟩
    exact ⟨s, u, hs, hu, hnegative, hlarge⟩
  · rintro ⟨s, u, hs, hu, hnegative, hlarge⟩
    exact ⟨⟨_, ⟨s, hs, rfl⟩, hnegative⟩, _, ⟨u, hu, rfl⟩, hlarge⟩

theorem needsReal_iff (h : IsConverted cells) : (readings cells).any Reading.needsReal = false ↔
    ∀ t ∈ trimmedTexts cells, ∃ s : WholeSpelling, t = some s.text ∧
      -int64Bound ≤ s.value ∧ s.value < uint64Bound := by
  rw [readings, List.any_map, List.any_eq_false]
  refine forall₂_congr fun t ht => ?_
  rw [Function.comp_apply, Bool.not_eq_true]
  constructor
  · intro hread
    cases t with
    | none => cases hread
    | some t =>
        obtain ⟨n, near, hreading, hbounds⟩ := exists_whole_of_not_needsReal hread
        obtain ⟨s, rfl, rfl⟩ := spelling_of_whole hreading (trim_of_mem ht)
        exact ⟨s, rfl, hbounds⟩
  · rintro ⟨s, rfl, hleast, hmost⟩
    obtain ⟨near, -, -, hreading⟩ := ofText_spelling (h.isNumeric _ ht)
    rw [Option.map_some, Option.getD_some, hreading, Reading.needsReal, Bool.or_eq_false_iff,
      decide_eq_false_iff_not, decide_eq_false_iff_not, not_lt, not_le]
    exact ⟨hleast, hmost⟩

theorem storesWhole_iff (h : IsConverted cells) : StoresWhole cells ↔
    ((readings cells).any Reading.needsReal || spansSigns (readings cells)) = false := by
  rw [Bool.or_eq_false_iff, needsReal_iff h, Bool.eq_false_iff, Ne, spansSigns_iff h]
  constructor
  · rintro ⟨hwithin, hagree⟩
    refine ⟨hwithin, ?_⟩
    rintro ⟨s, u, hs, hu, hnegative, hlarge⟩
    exact absurd (hagree s u hs hu hnegative) (not_lt.mpr hlarge)
  · rintro ⟨hwithin, hspans⟩
    refine ⟨hwithin, fun s u hs hu hnegative => ?_⟩
    by_contra hlarge
    exact hspans ⟨s, u, hs, hu, hnegative, not_lt.mp hlarge⟩

theorem numericTexts_spelling {i : Nat} (h : IsConverted cells)
    (hs : (trimmedTexts cells)[i]? = some (some s.text)) :
    (StoresWhole cells → (numericTexts cells)[i]? = some (.value (.int s.value))) ∧
    (¬StoresWhole cells → ∃ near, Scan.ofText? s.text = some ⟨near, some s.value⟩ ∧
      near.isFinite = true ∧ (numericTexts cells)[i]? = some (.value (.real near))) := by
  obtain ⟨near, hread, hfinite, hreading⟩ :=
    ofText_spelling (h.isNumeric _ (List.mem_of_getElem? hs))
  have hplace : (readings cells)[i]? = some (.whole s.value near) := by
    rw [readings, List.getElem?_map, hs, Option.map_some, Option.map_some, Option.getD_some, hreading]
  rw [storesWhole_iff h, numericTexts_of_converted h, List.getElem?_map, ofReadings]
  constructor
  · intro hwhole
    have htruth : (readings cells).all Reading.isTruth = false := by
      rw [List.all_eq_false]
      exact ⟨_, List.mem_of_getElem? hplace, by simp [Reading.isTruth]⟩
    rw [hwhole, htruth, if_neg Bool.false_ne_true, if_neg Bool.false_ne_true, List.getElem?_map,
      hplace]
    rfl
  · intro hreal
    rw [Bool.not_eq_false] at hreal
    refine ⟨near, hread, hfinite, ?_⟩
    rw [hreal, if_pos rfl, List.getElem?_map, hplace]
    rfl

end Readings

section Rows

variable {α : Type}

-- A row has the cells of one place in the columns that are long enough.
theorem rowsFrom_getElem? {n i : Nat} (h : i < n) (columns : List (String × List α)) :
    (rowsFrom n columns)[i]? =
      some (columns.filterMap fun column => column.2[i]?.map fun cell => (column.1, cell)) := by
  induction n generalizing i columns with
  | zero => exact absurd h (Nat.not_lt_zero i)
  | succ n ih =>
      cases i with
      | zero => simp [rowsFrom, List.head?_eq_getElem?]
      | succ i =>
          rw [rowsFrom, List.getElem?_cons_succ, ih (Nat.lt_of_succ_lt_succ h), List.filterMap_map]
          simp

end Rows

section Records

variable {t : Table Cell} {name : String} {cells : List Cell} {i : Nat} {c : Cell}

-- The cell of a column in the records of a table whose columns have different names.
theorem records_cell (hcolumn : (name, cells) ∈ t.columns) (hnames : (t.columns.map Prod.fst).Nodup)
    (hheight : i < t.height) (hcell : cells[i]? = some c) :
    ∃ r, t.records[i]? = some r ∧ r.cell (.text name) = .ok c.plain := by
  have hfull : t.isEmpty = false := by
    rw [isEmpty, Bool.or_eq_false_iff, beq_eq_false_iff_ne]
    exact ⟨by omega, List.isEmpty_eq_false_iff.mpr (List.ne_nil_of_mem hcolumn)⟩
  obtain ⟨before, after, hsplit⟩ := List.append_of_mem hcolumn
  rw [hsplit, List.map_append, List.map_cons] at hnames
  have hlast : name ∉ after.map Prod.fst :=
    (List.nodup_cons.mp (List.nodup_append.mp hnames).2.1).1
  have hrow := rowsFrom_getElem? hheight t.columns
  rw [hsplit, List.filterMap_append, List.filterMap_cons, hcell, Option.map_some] at hrow
  rw [records, hfull, if_neg Bool.false_ne_true, List.getElem?_map, rows, hsplit, hrow]
  refine ⟨_, rfl, record_cell _ _ name c fun hmem => hlast ?_⟩
  obtain ⟨entry, hentry, hname⟩ := List.mem_map.mp hmem
  obtain ⟨column, hin, hmade⟩ := List.mem_filterMap.mp hentry
  obtain ⟨x, -, rfl⟩ := Option.map_eq_some_iff.mp hmade
  exact hname ▸ List.mem_map_of_mem hin

variable {j : Nat} {s u : WholeSpelling}

-- The value of a number in the records of a table whose columns of text have become numeric.
theorem records_numericTexts (hcolumn : (name, cells) ∈ t.columns)
    (hnames : (t.columns.map Prod.fst).Nodup) (hheight : cells.length = t.height)
    (hconverted : IsConverted cells) (hs : (trimmedTexts cells)[i]? = some (some s.text)) :
    ∃ r, (t.mapColumns numericTexts).records[i]? = some r ∧
      (StoresWhole cells → r.cell (.text name) = .ok (.int s.value)) ∧
      (¬StoresWhole cells → ∃ near, Scan.ofText? s.text = some ⟨near, some s.value⟩ ∧
        near.isFinite = true ∧ r.cell (.text name) = .ok (.real near)) := by
  have hplace : i < t.height := by
    obtain ⟨hlength, -⟩ := List.getElem?_eq_some_iff.mp hs
    rwa [trimmedTexts, List.length_map, hheight] at hlength
  have hmapped : (name, numericTexts cells) ∈ (t.mapColumns numericTexts).columns :=
    List.mem_map.mpr ⟨(name, cells), hcolumn, rfl⟩
  have hsame : ((t.mapColumns numericTexts).columns.map Prod.fst).Nodup := by
    simpa [mapColumns, List.map_map, Function.comp_def] using hnames
  obtain ⟨hwhole, hreal⟩ := numericTexts_spelling hconverted hs
  by_cases hstored : StoresWhole cells
  · obtain ⟨r, hr, hcell⟩ := records_cell hmapped hsame hplace (hwhole hstored)
    exact ⟨r, hr, fun _ => hcell, fun hnot => absurd hstored hnot⟩
  · obtain ⟨near, hread, hfinite, hvalue⟩ := hreal hstored
    obtain ⟨r, hr, hcell⟩ := records_cell hmapped hsame hplace hvalue
    rw [Cell.plain_real hfinite] at hcell
    exact ⟨r, hr, fun h => absurd h hstored, fun _ => ⟨near, hread, hfinite, hcell⟩⟩

-- Two different numbers in a column that has become numeric are equal in the records exactly if the
-- column is not stored in whole numbers and the two are read as one binary64 number. Numbers of no
-- more than 53 bits and seventeen digits are not.
theorem loaded_numbers_match_iff (hcolumn : (name, cells) ∈ t.columns)
    (hnames : (t.columns.map Prod.fst).Nodup) (hheight : cells.length = t.height)
    (hconverted : IsConverted cells) (hs : (trimmedTexts cells)[i]? = some (some s.text))
    (hu : (trimmedTexts cells)[j]? = some (some u.text)) (hne : s.value ≠ u.value) :
    ∃ r q v w, (t.mapColumns numericTexts).records[i]? = some r ∧
      (t.mapColumns numericTexts).records[j]? = some q ∧
      r.cell (.text name) = .ok v ∧ q.cell (.text name) = .ok w ∧
      (v.matchesValue w = true ↔ ¬StoresWhole cells ∧
        (Scan.ofText? s.text).bind (·.value.toRat?) = (Scan.ofText? u.text).bind (·.value.toRat?)) ∧
      (StoresWhole cells ∨ s.IsShort ∧ u.IsShort → v.matchesValue w = false) := by
  obtain ⟨r, hr, hwhole, hreal⟩ := records_numericTexts hcolumn hnames hheight hconverted hs
  obtain ⟨q, hq, hwhole', hreal'⟩ := records_numericTexts hcolumn hnames hheight hconverted hu
  by_cases hstored : StoresWhole cells
  · have hapart : (Value.int s.value).matchesValue (.int u.value) = false := by
      rw [Bool.eq_false_iff, Ne, Value.matchesValue_int_iff]
      exact hne
    refine ⟨r, q, _, _, hr, hq, hwhole hstored, hwhole' hstored, ?_, fun _ => hapart⟩
    rw [hapart]
    simp [hstored]
  · obtain ⟨x, hread, hx, hcell⟩ := hreal hstored
    obtain ⟨y, hread', hy, hcell'⟩ := hreal' hstored
    refine ⟨r, q, _, _, hr, hq, hcell, hcell', ?_, ?_⟩
    · rw [Value.matchesValue_real_iff hx hy, hread, hread']
      simp [hstored]
    · rintro (h | ⟨hshort, hshort'⟩)
      · exact absurd h hstored
      · obtain ⟨near, hnear, hexact⟩ := Scan.ofText?_of_short s hshort
        obtain ⟨near', hnear', hexact'⟩ := Scan.ofText?_of_short u hshort'
        rw [hread] at hnear
        rw [hread'] at hnear'
        cases hnear
        cases hnear'
        rw [Bool.eq_false_iff, Ne, Value.matchesValue_real_iff hx hy, hexact, hexact']
        simpa using hne

end Records

section Gap

variable {texts : List String}

-- A column of texts with nothing in its last row, and a table that has no other column.
def gappedCells (texts : List String) : List Cell :=
  texts.map (fun s => .value (.text s)) ++ [.missing]

def gapped (texts : List String) : Table Cell := ⟨texts.length + 1, [("id", gappedCells texts)]⟩

theorem trimmedTexts_gapped (texts : List String) :
    trimmedTexts (gappedCells texts) = texts.map (fun s => some (Text.trim s)) ++ [none] := by
  simp [trimmedTexts, gappedCells, Cell.isPresent, Cell.plain, Cell.text, Value.isNull, Value.asText]

theorem isConverted_gapped (hne : texts ≠ [])
    (h : texts.all (fun s => isNumericText (Text.trim s)) = true) :
    IsConverted (gappedCells texts) := by
  obtain ⟨s, rest, rfl⟩ := List.exists_cons_of_ne_nil hne
  refine ⟨⟨Text.trim s, by simp [trimmedTexts_gapped]⟩, fun t ht => ?_⟩
  rw [trimmedTexts_gapped, List.mem_append, List.mem_map] at ht
  rcases ht with ⟨u, hu, htrim⟩ | hnone
  · rw [← Option.some.inj htrim]
    exact List.all_eq_true.mp h u hu
  · simp at hnone

theorem not_storesWhole_gapped (texts : List String) : ¬StoresWhole (gappedCells texts) := by
  intro h
  obtain ⟨s, hs, -⟩ := h.within none (by simp [trimmedTexts_gapped])
  cases hs

-- Two short numbers above a gap, one of them with a sign and blanks around it.
theorem short_numbers_apart : ∃ r q v w,
    ((gapped ["7", " +9 "]).mapColumns numericTexts).records[0]? = some r ∧
    ((gapped ["7", " +9 "]).mapColumns numericTexts).records[1]? = some q ∧
    r.cell (.text "id") = .ok v ∧ q.cell (.text "id") = .ok w ∧ v.matchesValue w = false := by
  let seven : WholeSpelling := ⟨none, [7], by simp, by simp⟩
  let nine : WholeSpelling := ⟨some false, [9], by simp, by simp⟩
  have hseven : (trimmedTexts (gappedCells ["7", " +9 "]))[0]? = some (some seven.text) := by
    decide +kernel
  have hnine : (trimmedTexts (gappedCells ["7", " +9 "]))[1]? = some (some nine.text) := by
    decide +kernel
  have hconverted : IsConverted (gappedCells ["7", " +9 "]) :=
    isConverted_gapped (by simp) (by decide +kernel)
  obtain ⟨r, q, v, w, hr, hq, hv, hw, -, hapart⟩ := loaded_numbers_match_iff
    (t := gapped ["7", " +9 "]) List.mem_cons_self (by simp [gapped]) rfl hconverted hseven hnine
    (by decide)
  exact ⟨r, q, v, w, hr, hq, hv, hw, hapart (.inr (by decide))⟩

-- Two numbers of sixteen digits above a gap become one. They are past 53 bits, where only every
-- second whole number is a binary64 number.
theorem long_numbers_merge : ∃ s u : WholeSpelling, s.text = "9007199254740992" ∧
    u.text = "9007199254740993" ∧ s.value = 9007199254740992 ∧ u.value = 9007199254740993 ∧
    ∃ r q v w, ((gapped [s.text, u.text]).mapColumns numericTexts).records[0]? = some r ∧
      ((gapped [s.text, u.text]).mapColumns numericTexts).records[1]? = some q ∧
      r.cell (.text "id") = .ok v ∧ q.cell (.text "id") = .ok w ∧ v.matchesValue w = true := by
  let s : WholeSpelling := ⟨none, [9, 0, 0, 7, 1, 9, 9, 2, 5, 4, 7, 4, 0, 9, 9, 2], by simp, by simp⟩
  let u : WholeSpelling := ⟨none, [9, 0, 0, 7, 1, 9, 9, 2, 5, 4, 7, 4, 0, 9, 9, 3], by simp, by simp⟩
  have hs : (trimmedTexts (gappedCells [s.text, u.text]))[0]? = some (some s.text) := by
    decide +kernel
  have hu : (trimmedTexts (gappedCells [s.text, u.text]))[1]? = some (some u.text) := by
    decide +kernel
  have hconverted : IsConverted (gappedCells [s.text, u.text]) :=
    isConverted_gapped (by simp) (by decide +kernel)
  have hgap := not_storesWhole_gapped [s.text, u.text]
  have hread : (Scan.ofText? s.text).bind (·.value.toRat?) =
      (Scan.ofText? u.text).bind (·.value.toRat?) := by decide +kernel
  obtain ⟨r, hr, -, hreal⟩ := records_numericTexts (t := gapped [s.text, u.text])
    List.mem_cons_self (by simp [gapped]) rfl hconverted hs
  obtain ⟨q, hq, -, hreal'⟩ := records_numericTexts (t := gapped [s.text, u.text])
    List.mem_cons_self (by simp [gapped]) rfl hconverted hu
  obtain ⟨x, hx, hfinite, hcell⟩ := hreal hgap
  obtain ⟨y, hy, hfinite', hcell'⟩ := hreal' hgap
  rw [hx, hy] at hread
  exact ⟨s, u, by decide +kernel, by decide +kernel, by decide, by decide, r, q, _, _, hr, hq, hcell,
    hcell', (Value.matchesValue_real_iff hfinite hfinite').mpr hread⟩

end Gap

end Table

end Tileboard
