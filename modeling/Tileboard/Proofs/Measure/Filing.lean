import Mathlib
import Tileboard.Measure.Grouping
import Tileboard.Proofs.Filter.Passing
import Tileboard.Proofs.Value.Equality

namespace Tileboard.Measure

section Gathering

-- Entries put under their keys, one after the other.
def gather (groups : Groups) (entries : Groups) : Groups :=
  entries.foldl (fun groups entry => addTo groups entry.1 entry.2) groups

def numbersOf (wanted : Value → Bool) (entries : Groups) : List Binary64 :=
  (entries.filter fun entry => wanted entry.1).flatMap (·.2)

-- The first group takes the entries that are equal to its key and leaves the others to the rest.
theorem gather_cons (key : Value) (numbers : List Binary64) (rest entries : Groups) :
    gather ((key, numbers) :: rest) entries =
      (key, numbers ++ numbersOf key.equal entries) ::
        gather rest (entries.filter fun entry => !key.equal entry.1) := by
  induction entries generalizing numbers rest with
  | nil => simp [gather, numbersOf]
  | cons entry others ih =>
      unfold gather at ih ⊢
      rw [List.foldl_cons, addTo]
      by_cases h : key.equal entry.1 = true
      · simp [h, ih, numbersOf]
      · simp [h, ih, numbersOf]

theorem gather_nil_cons (entry : Value × List Binary64) (entries : Groups) :
    gather [] (entry :: entries) =
      (entry.1, entry.2 ++ numbersOf entry.1.equal entries) ::
        gather [] (entries.filter fun other => !entry.1.equal other.1) :=
  gather_cons entry.1 entry.2 [] entries

-- The entries that a key takes away have no numbers for a different key.
theorem numbersOf_left {first key : Value} {entries : Groups} (hfirst : first.canBeKey = true)
    (hkey : key.canBeKey = true) (hkeys : ∀ entry ∈ entries, entry.1.canBeKey = true)
    (hne : first.equal key = false) :
    numbersOf key.equal (entries.filter fun entry => !first.equal entry.1) =
      numbersOf key.equal entries := by
  rw [numbersOf, numbersOf, List.filter_filter]
  congr 1
  refine List.filter_congr fun entry hentry => ?_
  cases hequal : key.equal entry.1 with
  | false => rfl
  | true =>
      rw [Value.equal_eq_false_of_key hfirst hkey (hkeys entry hentry) hne hequal]
      rfl

-- Induction on the number of entries: what the first key leaves over is grouped in the same way,
-- and none of it is equal to the first key.
theorem gather_numbers {entries : Groups} (hkeys : ∀ entry ∈ entries, entry.1.canBeKey = true)
    {key : Value} {numbers : List Binary64} (h : (key, numbers) ∈ gather [] entries) :
    (∃ entry ∈ entries, entry.1 = key) ∧
      (key.equal key = true → numbers = numbersOf key.equal entries) := by
  induction hlength : entries.length using Nat.strongRecOn generalizing entries with
  | ind n ih =>
      cases entries with
      | nil => cases h
      | cons first entries =>
          rw [List.forall_mem_cons] at hkeys
          rw [gather_nil_cons] at h
          rcases List.mem_cons.mp h with h | h
          · cases h
            exact ⟨⟨first, List.mem_cons_self, rfl⟩, fun hself => by simp [numbersOf, hself]⟩
          · have hless : (entries.filter fun other => !first.1.equal other.1).length < n := by
              have := List.length_filter_le (fun other => !first.1.equal other.1) entries
              rw [List.length_cons] at hlength
              omega
            obtain ⟨⟨entry, hentry, rfl⟩, hnumbers⟩ := ih _ hless
              (fun other hother => hkeys.2 other (List.mem_of_mem_filter hother)) h rfl
            obtain ⟨hmem, hleft⟩ := List.mem_filter.mp hentry
            have hkey := hkeys.2 entry hmem
            have hne : first.1.equal entry.1 = false := by simpa using hleft
            refine ⟨⟨entry, List.mem_cons_of_mem _ hmem, rfl⟩, fun hself => ?_⟩
            have hfirst : entry.1.equal first.1 = false := by
              rw [Value.equal_comm_of_key hkey hkeys.1, hne]
            rw [hnumbers hself, numbersOf_left hkeys.1 hkey hkeys.2 hne, numbersOf, numbersOf,
              List.filter_cons_of_neg (by simp [hfirst])]

end Gathering

section Filing

variable {matcher : Option Matcher} {column field row : Value} {groups out : Groups}

def numbersAt (field row : Value) : List Binary64 :=
  match numbersIn field [row] with
  | .ok numbers => numbers
  | .error _ => []

-- What is put under the key of a row. A row without a number has nothing to put there.
def entryAt? (column field row : Value) : Option (Value × List Binary64) :=
  match row.cell column with
  | .ok cell => if (numbersAt field row).isEmpty then none else some (keyOf cell, numbersAt field row)
  | .error _ => none

theorem entryAt?_eq_some {entry : Value × List Binary64}
    (h : entryAt? column field row = some entry) : ∃ cell, row.cell column = .ok cell ∧
      entry = (keyOf cell, numbersAt field row) ∧ numbersAt field row ≠ [] := by
  unfold entryAt? at h
  split at h
  · rename_i cell hcell
    split at h
    · cases h
    · rename_i hsome
      cases h
      exact ⟨cell, hcell, rfl, by simpa using hsome⟩
  · cases h

-- A row that could be put under its key, if it has a number.
structure Filed (column field row : Value) : Prop where
  cell : ∃ cell, row.cell column = .ok cell
  numbers : numbersIn field [row] = .ok (numbersAt field row)
  key : ∀ entry, entryAt? column field row = some entry → entry.1.canBeKey = true

theorem addRow_eq_ok (h : addRow column field groups row = .ok out) : Filed column field row ∧
    out = gather groups (entryAt? column field row).toList := by
  unfold addRow at h
  obtain ⟨cell, hcell, h⟩ := bind_eq_ok_iff.mp h
  obtain ⟨numbers, hnumbers, h⟩ := bind_eq_ok_iff.mp h
  have hat : numbersAt field row = numbers := by
    unfold numbersAt
    rw [hnumbers]
  have hentry : entryAt? column field row =
      if numbers.isEmpty then none else some (keyOf cell, numbers) := by
    unfold entryAt?
    rw [hcell, hat]
  rw [← hat] at hnumbers
  split at h
  · rename_i hempty
    cases h
    rw [if_pos hempty] at hentry
    rw [hentry]
    refine ⟨⟨⟨cell, hcell⟩, hnumbers, fun entry hsome => ?_⟩, rfl⟩
    rw [hentry] at hsome
    cases hsome
  · rename_i hsome
    rw [if_neg hsome] at hentry
    split at h
    · rename_i hkey
      cases h
      rw [hentry]
      refine ⟨⟨⟨cell, hcell⟩, hnumbers, fun entry hsome => ?_⟩, rfl⟩
      rw [hentry] at hsome
      cases hsome
      exact hkey
    · cases h

def wants (matcher : Option Matcher) (row : Value) : Traced Bool :=
  match matcher with
  | some m => m.accepts row
  | none => return true

theorem matching_eq_keep (matcher : Option Matcher) (rows : List Value) :
    (matching matcher rows).result = (Selection.keep (wants matcher) rows).result := by
  cases matcher with
  | some m => rfl
  | none =>
      rw [Selection.keep_eq_filter fun row _ => ⟨true, rfl⟩]
      exact congrArg Except.ok (List.filter_eq_self.mpr fun row _ => rfl).symm

theorem groupRows_cons (matcher : Option Matcher) (column field row : Value) (groups : Groups)
    (rest : List Value) :
    groupRows matcher column field groups (row :: rest) = (do
      let wanted ← wants matcher row
      if wanted then groupRows matcher column field (← addRow column field groups row) rest
      else groupRows matcher column field groups rest) := by
  cases matcher <;> rfl

-- Induction on the rows: the groups gather the entries of the rows that match.
theorem groupRows_eq_ok {rows : List Value}
    (h : (groupRows matcher column field groups rows).result = .ok out) :
    ∃ kept, (matching matcher rows).result = .ok kept ∧
      (∀ row ∈ kept, Filed column field row) ∧
      out = gather groups (kept.filterMap (entryAt? column field)) := by
  simp only [matching_eq_keep]
  induction rows generalizing groups with
  | nil =>
      cases h
      exact ⟨[], rfl, by simp, rfl⟩
  | cons row rest ih =>
      rw [groupRows_cons] at h
      obtain ⟨wanted, hwanted, h⟩ := Traced.bind_result_eq_ok_iff.mp h
      rw [Selection.keep, Traced.result_bind, hwanted, ok_bind]
      cases wanted with
      | false => exact ih h
      | true =>
          obtain ⟨next, hnext, h⟩ := Traced.lift_bind_eq_ok_iff.mp h
          obtain ⟨hfiled, rfl⟩ := addRow_eq_ok hnext
          obtain ⟨kept, hkept, hrest, rfl⟩ := ih h
          refine ⟨row :: kept, ?_, List.forall_mem_cons.mpr ⟨hfiled, hrest⟩, ?_⟩
          · simp only [if_true]
            rw [Traced.result_bind, hkept]
            rfl
          · unfold gather
            rw [← List.foldl_append]
            cases hentry : entryAt? column field row with
            | none => rw [List.filterMap_cons_none hentry]; rfl
            | some entry => rw [List.filterMap_cons_some hentry]; rfl

-- The numbers in a column are those of the rows, one after the other.
theorem numbersIn_eq_flatMap {rows : List Value}
    (h : ∀ row ∈ rows, numbersIn field [row] = .ok (numbersAt field row)) :
    numbersIn field rows = .ok (rows.flatMap (numbersAt field)) := by
  induction rows with
  | nil => rfl
  | cons row rest ih =>
      rw [List.forall_mem_cons] at h
      obtain ⟨cell, hcell, hrow⟩ := bind_eq_ok_iff.mp h.1
      obtain ⟨number, hnumber, hrow⟩ := bind_eq_ok_iff.mp hrow
      have hat : number.toList ++ [] = numbersAt field row := Except.ok.inj hrow
      rw [numbersIn, hcell, ok_bind, hnumber, ok_bind, ih h.2, ok_bind, List.flatMap_cons, ← hat,
        List.append_nil]
      rfl

-- The numbers under the wanted keys are those of the selected rows, when a row with a number is
-- selected exactly if its key is wanted.
theorem numbersOf_entries {kept : List Value} {wanted selected : Value → Bool}
    (hfiled : ∀ row ∈ kept, Filed column field row)
    (h : ∀ row ∈ kept, ∀ entry, entryAt? column field row = some entry →
      wanted entry.1 = selected row) :
    numbersOf wanted (kept.filterMap (entryAt? column field)) =
      (kept.filter selected).flatMap (numbersAt field) := by
  induction kept with
  | nil => rfl
  | cons row rest ih =>
      rw [List.forall_mem_cons] at hfiled h
      have hrest := ih hfiled.2 h.2
      obtain ⟨cell, hcell⟩ := hfiled.1.cell
      cases hentry : entryAt? column field row with
      | none =>
          have hnone : numbersAt field row = [] := by
            unfold entryAt? at hentry
            rw [hcell] at hentry
            by_contra hne
            simp [hne] at hentry
          rw [List.filterMap_cons_none hentry, hrest, List.filter_cons]
          split
          · rw [List.flatMap_cons, hnone, List.nil_append]
          · rfl
      | some entry =>
          have hwanted := h.1 entry hentry
          obtain ⟨_, _, rfl, _⟩ := entryAt?_eq_some hentry
          rw [List.filterMap_cons_some hentry]
          unfold numbersOf at hrest ⊢
          rw [List.filter_cons, List.filter_cons, hwanted]
          split
          · rw [List.flatMap_cons, List.flatMap_cons, hrest]
          · exact hrest

end Filing

end Tileboard.Measure
