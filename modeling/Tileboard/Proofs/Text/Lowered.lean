import Mathlib
import Tileboard.Proofs.Text.Folding
import Tileboard.Proofs.Text.Spelling

namespace Tileboard.Text

section Runs

-- The least and the greatest form that a run leads to.
def CaseRun.low (run : CaseRun) : Nat := (run.first + run.shift).toNat

def CaseRun.high (run : CaseRun) : Nat := (run.last + run.shift).toNat

-- None of the forms of a run is in the other run. Runs of every second character may overlap, if
-- they are of different parity. There are many pairs of runs, so only whole numbers are compared.
def CaseRun.misses (run other : CaseRun) : Bool :=
  Nat.blt run.high other.first || Nat.blt other.last run.low ||
    (other.stride == 2 && (run.stride == 2 || run.first == run.last) &&
      (run.low + other.first) % 2 == 1)

theorem caseRuns_miss {run other : CaseRun} (hrun : run ∈ caseRuns) (hother : other ∈ caseRuns) :
    run.misses other = true := by
  have hall : (caseRuns.all fun run => caseRuns.all fun other => run.misses other) = true := by
    decide +kernel
  exact List.all_eq_true.mp (List.all_eq_true.mp hall run hrun) other hother

theorem caseRuns_pos : ∀ run ∈ caseRuns, 0 < run.first ∧ 0 ≤ run.first + run.shift := by
  decide +kernel

theorem CaseRun.holds_iff {run : CaseRun} {c : Char} : run.holds c = true ↔
    run.first ≤ c.toNat ∧ c.toNat ≤ run.last ∧ (c.toNat - run.first) % run.stride = 0 := by
  simp only [CaseRun.holds, Bool.and_eq_true, decide_eq_true_eq, beq_iff_eq, and_assoc]

theorem CaseRun.holds_eq_false_of_misses {run other : CaseRun} (h : run.misses other = true)
    (hlow : 0 ≤ run.first + run.shift) {c x : Char} (hc : run.holds c = true)
    (hx : (x.toNat : Int) = c.toNat + run.shift) : other.holds x = false := by
  rw [Bool.eq_false_iff]
  intro hother
  obtain ⟨hfirst, hlast, hstep⟩ := holds_iff.mp hc
  obtain ⟨hfirst', hlast', hstep'⟩ := holds_iff.mp hother
  simp only [misses, low, high, Bool.or_eq_true, Bool.and_eq_true, Nat.blt_eq, beq_iff_eq] at h
  rcases h with (h | h) | ⟨⟨hstride', hstride | hone⟩, hparity⟩
  · omega
  · omega
  · rw [hstride] at hstep
    rw [hstride'] at hstep'
    omega
  · rw [hstride'] at hstep'
    omega

theorem lowerSimple_of_free {c : Char} (h : ∀ run ∈ caseRuns, run.holds c = false) :
    lowerSimple c = c := by
  have hnone : caseRuns.find? (·.holds c) = none :=
    List.find?_eq_none.mpr fun run hrun => by simp [h run hrun]
  rw [lowerSimple, hnone]

theorem lowerSimple_lowerSimple (c : Char) : lowerSimple (lowerSimple c) = lowerSimple c := by
  cases hfind : caseRuns.find? (·.holds c) with
  | none =>
      have hself : lowerSimple c = c := by rw [lowerSimple, hfind]
      rw [hself, hself]
  | some run =>
      have hrun := List.mem_of_find?_eq_some hfind
      have hholds := List.find?_some hfind
      have hform : Char.ofNat (c.toNat + run.shift).toNat = lowerSimple c := by
        rw [lowerSimple, hfind]
      refine lowerSimple_of_free fun other hother => ?_
      by_cases hzero : (lowerSimple c).toNat = 0
      · have hpos := (caseRuns_pos other hother).1
        simp [CaseRun.holds, hzero, Nat.not_le.mpr hpos]
      · have hcode := toNat_eq_of_ofNat hform hzero
        exact CaseRun.holds_eq_false_of_misses (caseRuns_miss hrun hother) (caseRuns_pos run hrun).2
          hholds (by omega)

end Runs

def IsLow (c : Char) : Prop := lowerChar c = [c]

instance : DecidablePred IsLow := fun c => inferInstanceAs (Decidable (lowerChar c = [c]))

section Forms

variable {c x : Char} {cs : List Char}

theorem isLow_lowerSimple (c : Char) : IsLow (lowerSimple c) := by
  have hsame := lowerSimple_lowerSimple c
  unfold IsLow lowerChar
  rw [hsame, if_neg]
  -- the dotted capital I has another form
  intro hdotted
  have hi : lowerSimple c = Char.ofNat 0x130 := by rw [← hdotted, Char.ofNat_toNat]
  rw [hi] at hsame
  exact absurd hsame (by decide +kernel)

theorem isLow_of_mem_lowerChar (h : x ∈ lowerChar c) : IsLow x := by
  unfold lowerChar at h
  split at h
  · rcases List.mem_pair.mp h with rfl | rfl <;> decide +kernel
  · rw [List.mem_singleton.mp h]
    exact isLow_lowerSimple c

theorem isLow_of_mem_lowerFrom {cased : Bool} (h : x ∈ lowerFrom cased cs) : IsLow x := by
  induction cs generalizing cased with
  | nil => cases h
  | cons c rest ih =>
      rw [lowerFrom] at h
      rcases List.mem_append.mp h with h | h
      · split_ifs at h
        · rw [List.mem_singleton.mp h]
          decide +kernel
        · rw [List.mem_singleton.mp h]
          decide +kernel
        · exact isLow_of_mem_lowerChar h
      · exact ih h

theorem ne_capitalSigma_of_isLow (h : IsLow c) : c ≠ capitalSigma := by
  rintro rfl
  exact absurd h (by decide +kernel)

theorem lowerFrom_of_isLow (cased : Bool) (h : ∀ c ∈ cs, IsLow c) : lowerFrom cased cs = cs := by
  induction cs generalizing cased with
  | nil => rfl
  | cons c rest ih =>
      obtain ⟨hc, hrest⟩ := List.forall_mem_cons.mp h
      rw [lowerFrom, if_neg (ne_capitalSigma_of_isLow hc), hc, ih _ hrest]
      rfl

theorem lower_of_isLow {s : String} (h : ∀ c ∈ s.toList, IsLow c) : lower s = s := by
  rw [lower, lowerChars, lowerFrom_of_isLow false h, String.ofList_toList]

end Forms

-- Only texts in lower case are found in a text in lower case.
theorem lower_eq_of_contains_lower {hay needle : String}
    (h : contains (lower hay) needle = true) : lower needle = needle := by
  rw [contains_iff, toList_lower] at h
  exact lower_of_isLow fun c hc => isLow_of_mem_lowerFrom (h.subset hc)

end Tileboard.Text
