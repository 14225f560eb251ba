import Mathlib
import Tileboard.Table.Numeric
import Tileboard.Proofs.Number.Nearest
import Tileboard.Proofs.Table.Rows

namespace Tileboard

namespace Table

section Settling

variable {v : Value}

theorem isTooLarge_eq_false_iff {n : Number} :
    isTooLarge (.number n) = false ↔ ∃ x, n.toBinary64? = some x := by
  cases n <;> simp [isTooLarge, Number.toBinary64?]

-- A whole number past the binary64 ones stops a column that is not left as given before. Induction
-- on the cells down to the first such number.
theorem run_of_tooLarge {cells : List (Option Value)} (h : some v ∈ cells)
    (hv : isTooLarge v = true) (s : Survey) :
    s.run cells = .error .numberTooLarge ∨ s.run cells = .ok .asGiven := by
  induction cells generalizing s with
  | nil => cases h
  | cons cell rest ih =>
      have hrest : cell ≠ some v → some v ∈ rest := fun hne =>
        (List.mem_cons.mp h).resolve_left fun heq => hne heq.symm
      match cell with
      | none => exact ih (hrest nofun) _
      | some .null =>
          refine ih (hrest ?_) _
          rintro ⟨⟩
          cases hv
      | some (.number (.real x)) =>
          have hrest := ih (hrest (by rintro ⟨⟩; cases hv))
          unfold Survey.run
          split
          · exact hrest _
          · exact hrest _
      | some (.number (.int k)) =>
          unfold Survey.run
          split
          · exact .inl rfl
          · rename_i hnear
            rw [Option.isNone_iff_eq_none, ← Ne, Option.ne_none_iff_exists'] at hnear
            have hsmall := isTooLarge_eq_false_iff.mpr hnear
            have hne : some (.number (.int k)) ≠ some v := by
              rintro ⟨⟩
              exact Bool.false_ne_true (hsmall.symm.trans hv)
            cases s.addWhole k with
            | none => exact .inr rfl
            | some next => exact ih (hrest hne) next
      | some (.bool _) | some (.text _) | some (.list _) | some (.object _) => exact .inr rfl

theorem toReal_ofValue_real (x : Binary64) : (Reading.ofValue (.real x)).toReal = x := by
  cases x <;> rfl

-- In a column that stores binary64 numbers, cells are read as what they are stored as.
theorem toReal_stored (h : isStorable (some v) = true) :
    (Reading.ofValue (stored .real (some v))).toReal = (Reading.ofValue v).toReal := by
  cases v with
  | null => rfl
  | number n =>
      cases n with
      | int k => exact toReal_ofValue_real _
      | real x => rfl
  | _ => cases h

theorem needsReal_stored (h : isStorable (some v) = true) (hint : ∀ k, some v ≠ some (.int k)) :
    (Reading.ofValue v).needsReal = true ∧
      (Reading.ofValue (stored .real (some v))).needsReal = true := by
  cases v with
  | null => exact ⟨rfl, rfl⟩
  | number n =>
      cases n with
      | int k => exact absurd rfl (hint k)
      | real x => cases x <;> exact ⟨rfl, rfl⟩
  | _ => cases h

theorem ofReadings_of_needsReal {readings : List Reading} {r : Reading} (hr : r ∈ readings)
    (h : r.needsReal = true) : ofReadings readings = readings.map fun r => .real r.toReal := by
  have hany : readings.any Reading.needsReal = true := List.any_eq_true.mpr ⟨r, hr, h⟩
  rw [ofReadings, hany, Bool.true_or, if_pos rfl]

variable {cells : List Value}

theorem ofReadings_stored (h : Survey.start.run (cells.map some) = .ok .real) :
    ofReadings ((cells.map fun v => stored .real (some v)).map Reading.ofValue) =
      ofReadings (cells.map Reading.ofValue) := by
  obtain ⟨hcells, hseen⟩ := storable_of_run h
  have hstorable : ∀ v ∈ cells, isStorable (some v) = true := fun v hv =>
    hcells _ (List.mem_map_of_mem hv)
  obtain ⟨cell, hcell, hint⟩ := hseen.resolve_left (by decide)
  obtain ⟨v, hv, rfl⟩ := List.mem_map.mp hcell
  obtain ⟨hread, hstored⟩ := needsReal_stored (hstorable v hv) hint
  rw [ofReadings_of_needsReal (List.mem_map_of_mem (List.mem_map_of_mem hv)) hstored,
    ofReadings_of_needsReal (List.mem_map_of_mem hv) hread, List.map_map, List.map_map,
    List.map_map]
  exact List.map_congr_left fun v hv => congrArg Value.real (toReal_stored (hstorable v hv))

theorem isTooLarge_stored (v : Value) : isTooLarge (stored .real (some v)) = false := by
  cases v with
  | number n => cases n <;> rfl
  | _ => rfl

-- A column becomes the same numbers, and stops at the same cells, with or without its storage.
theorem settle_numeric (cells : List Value) :
    settle (cells.map some) >>= numeric = numeric cells := by
  have hgiven : (cells.map some).map (stored .asGiven) = cells := by
    rw [List.map_map]
    exact List.map_id cells
  by_cases hlarge : cells.any isTooLarge = true
  · obtain ⟨v, hv, hvlarge⟩ := List.any_eq_true.mp hlarge
    rcases run_of_tooLarge (List.mem_map_of_mem hv) hvlarge .start with hrun | hrun
    · rw [settle, hrun, numeric, if_pos hlarge]
      rfl
    · rw [settle, hrun, Except.map, ok_bind, hgiven]
  · have hsmall : ∀ v ∈ cells, isTooLarge v = false := by simpa using hlarge
    have hnear : ∀ k, some (.int k) ∈ cells.map some → ∃ x, (Number.int k).toBinary64? = some x := by
      intro k hk
      obtain ⟨v, hv, hvalue⟩ := List.mem_map.mp hk
      cases hvalue
      exact isTooLarge_eq_false_iff.mp (hsmall _ hv)
    obtain ⟨storage, hrun⟩ := run_succeeds hnear .start
    rw [settle, hrun, Except.map, ok_bind]
    cases storage with
    | asGiven => rw [hgiven]
    | real =>
        have hnone : (cells.map fun v => stored .real (some v)).any isTooLarge = false := by
          simp [isTooLarge_stored]
        rw [List.map_map, Function.comp_def, numeric, numeric, if_neg hlarge, hnone,
          if_neg Bool.false_ne_true, ofReadings_stored hrun]

end Settling

section Numbers

def isWithin (first bound : Int) : Number → Bool
  | .int k => first ≤ k && k < bound
  | .real _ => false

-- Whether 64 bits hold all of some numbers, signed or unsigned.
def keepsWhole (numbers : List Number) : Bool :=
  numbers.all (isWithin (-int64Bound) int64Bound) || numbers.all (isWithin 0 uint64Bound)

-- What a number becomes among the numbers of its column.
def shown (numbers : List Number) (n : Number) : Number :=
  if keepsWhole numbers then n else .real n.near

variable {numbers : List Number} {n : Number} {k : Int} {q : Rat}

theorem isTooLarge_number (h : n.quantity? = some q) :
    isTooLarge (.number n) = !n.near.isFinite := by
  cases n with
  | int k => rfl
  | real x =>
      rw [Number.near, Binary64.isFinite_of_toRat? h]
      rfl

theorem needsReal_number (n : Number) : (Reading.ofValue (.number n)).needsReal =
    !isWithin (-int64Bound) uint64Bound n := by
  cases n with
  | int k => simp [Reading.ofValue, Reading.needsReal, isWithin, ← decide_not]
  | real x => cases x <;> rfl

theorem toReal_number (n : Number) : (Reading.ofValue (.number n)).toReal = n.near := by
  cases n with
  | int k => rfl
  | real x => exact toReal_ofValue_real x

theorem mem_wholeNumbers :
    k ∈ (numbers.map fun n => Reading.ofValue (.number n)).filterMap Reading.wholeNumber? ↔
      .int k ∈ numbers := by
  rw [List.filterMap_map, List.mem_filterMap]
  constructor
  · rintro ⟨n, hn, hread⟩
    cases n with
    | int j =>
        cases hread
        exact hn
    | real x => cases x <;> cases hread
  · exact fun h => ⟨_, h, rfl⟩

theorem spansSigns_numbers :
    spansSigns (numbers.map fun n => Reading.ofValue (.number n)) = true ↔
      (∃ j : Int, .int j ∈ numbers ∧ j < 0) ∧ ∃ k : Int, .int k ∈ numbers ∧ int64Bound ≤ k := by
  unfold spansSigns
  simp only [Bool.and_eq_true, List.any_eq_true, mem_wholeNumbers, decide_eq_true_eq]

theorem isWithin_iff {first bound : Int} :
    isWithin first bound n = true ↔ ∃ k, n = .int k ∧ first ≤ k ∧ k < bound := by
  cases n with
  | int k => simp [isWithin]
  | real x => simp [isWithin]

-- Where a negative number is among them, the others have to be signed ones.
theorem keepsWhole_iff : keepsWhole numbers = true ↔
    (∀ n ∈ numbers, isWithin (-int64Bound) uint64Bound n = true) ∧
      ¬((∃ j : Int, .int j ∈ numbers ∧ j < 0) ∧ ∃ k : Int, .int k ∈ numbers ∧ int64Bound ≤ k) := by
  simp only [keepsWhole, Bool.or_eq_true, List.all_eq_true, isWithin_iff]
  constructor
  · rintro (h | h)
    · refine ⟨fun n hn => ?_, ?_⟩
      · obtain ⟨k, rfl, hfirst, hbound⟩ := h n hn
        exact ⟨k, rfl, hfirst, hbound.trans (by decide)⟩
      · rintro ⟨-, k, hmem, hk⟩
        obtain ⟨_, ⟨⟩, -, hbound⟩ := h _ hmem
        exact absurd hbound (not_lt.mpr hk)
    · refine ⟨fun n hn => ?_, ?_⟩
      · obtain ⟨k, rfl, hfirst, hbound⟩ := h n hn
        exact ⟨k, rfl, le_trans (by decide) hfirst, hbound⟩
      · rintro ⟨⟨j, hmem, hj⟩, -⟩
        obtain ⟨_, ⟨⟩, hfirst, -⟩ := h _ hmem
        exact absurd hj (not_lt.mpr hfirst)
  · rintro ⟨hall, hspan⟩
    by_cases hnegative : ∃ j : Int, .int j ∈ numbers ∧ j < 0
    · left
      intro n hn
      obtain ⟨k, rfl, hfirst, -⟩ := hall n hn
      refine ⟨k, rfl, hfirst, not_le.mp fun hk => hspan ⟨hnegative, k, hn, hk⟩⟩
    · right
      intro n hn
      obtain ⟨k, rfl, -, hbound⟩ := hall n hn
      exact ⟨k, rfl, not_lt.mp fun hk => hnegative ⟨k, hn, hk⟩, hbound⟩

theorem readings_whole_iff :
    ((numbers.map fun n => Reading.ofValue (.number n)).any Reading.needsReal ||
      spansSigns (numbers.map fun n => Reading.ofValue (.number n))) = false ↔
        keepsWhole numbers = true := by
  rw [Bool.or_eq_false_iff, keepsWhole_iff, Bool.eq_false_iff (b := spansSigns _), Ne,
    spansSigns_numbers, List.any_map, List.any_eq_false]
  refine and_congr_left fun _ => forall₂_congr fun n _ => ?_
  rw [Function.comp_apply, needsReal_number, Bool.not_eq_true, Bool.not_eq_false']

-- Numbers stay whole if 64 bits hold them all, else each becomes the one next to it.
theorem ofReadings_numbers (numbers : List Number) :
    ofReadings (numbers.map fun n => Reading.ofValue (.number n)) =
      numbers.map fun n => .number (shown numbers n) := by
  unfold ofReadings shown
  cases hwhole : keepsWhole numbers with
  | false =>
      have hreal := mt readings_whole_iff.mp (Bool.eq_false_iff.mp hwhole)
      rw [Bool.not_eq_false] at hreal
      rw [hreal, if_pos rfl, List.map_map]
      exact List.map_congr_left fun n _ => congrArg Value.real (toReal_number n)
  | true =>
      have hints : ∀ n ∈ numbers, ∃ k, n = .int k := fun n hn => by
        obtain ⟨k, rfl, -⟩ := isWithin_iff.mp ((keepsWhole_iff.mp hwhole).1 n hn)
        exact ⟨k, rfl⟩
      rw [readings_whole_iff.mpr hwhole, if_neg Bool.false_ne_true]
      cases numbers with
      | nil => rfl
      | cons first rest =>
          have htruth : ((first :: rest).map fun n => Reading.ofValue (.number n)).all
              Reading.isTruth = false := by
            obtain ⟨k, rfl⟩ := hints first List.mem_cons_self
            rfl
          rw [htruth, if_neg Bool.false_ne_true, List.map_map]
          refine List.map_congr_left fun n hn => ?_
          obtain ⟨k, rfl⟩ := hints n hn
          rfl

theorem numeric_numbers (h : ∀ n ∈ numbers, ∃ q, n.quantity? = some q) :
    numeric (numbers.map .number) =
      if numbers.all (·.near.isFinite) then .ok (numbers.map fun n => .number (shown numbers n))
      else .error .numberTooLarge := by
  have hlarge : (numbers.map Value.number).any isTooLarge = !numbers.all (·.near.isFinite) := by
    rw [List.any_map, List.not_all_eq_any_not, Bool.eq_iff_iff, List.any_eq_true, List.any_eq_true]
    refine exists_congr fun n => and_congr_right fun hn => ?_
    obtain ⟨q, hq⟩ := h n hn
    rw [Function.comp_apply, isTooLarge_number hq]
  rw [numeric, hlarge, List.map_map]
  cases numbers.all (·.near.isFinite) with
  | false => rfl
  | true => exact congrArg Except.ok (ofReadings_numbers numbers)

theorem shown_of_perm {others : List Number} (h : others.Perm numbers) :
    shown others n = shown numbers n := by
  rw [shown, shown, keepsWhole, keepsWhole, h.all_eq, h.all_eq]

-- What becomes of a finite number is no farther from it than any binary64 number.
theorem quantity?_shown (hq : n.quantity? = some q) (hnear : n.near.isFinite = true) :
    ∃ p, (shown numbers n).quantity? = some p ∧
      ∀ (x : Binary64) r, x.toRat? = some r → |q - p| ≤ |q - r| := by
  unfold shown
  split
  · refine ⟨q, hq, fun x r _ => ?_⟩
    rw [sub_self, abs_zero]
    exact abs_nonneg _
  · obtain ⟨p, hp⟩ := Binary64.exists_toRat?_of_isFinite hnear
    exact ⟨p, hp, fun x r => Number.near_nearest hq hp⟩

theorem quantity?_shown_of_kept (hq : n.quantity? = some q)
    (h : keepsWhole numbers = true ∨ ∃ x : Binary64, x.toRat? = some q) :
    (shown numbers n).quantity? = some q := by
  unfold shown
  split
  · exact hq
  · rename_i hwhole
    obtain ⟨x, hx⟩ := h.resolve_left hwhole
    exact Number.toRat?_near_of_exact hq hx

theorem exists_toRat?_of_shown {p : Rat} (h : (shown numbers n).quantity? = some p)
    (hwhole : keepsWhole numbers = false) : ∃ x : Binary64, x.toRat? = some p := by
  rw [shown, hwhole, if_neg Bool.false_ne_true] at h
  exact ⟨_, h⟩

end Numbers

end Table

end Tileboard
