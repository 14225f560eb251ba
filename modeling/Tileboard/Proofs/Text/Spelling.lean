import Mathlib
import Tileboard.Text.LetterCase

namespace Tileboard.Text

-- Besides its capital, no character has one of these as its lower-case form. The letters i and k
-- could not be among them: the dotted capital and the unit of temperature come to them as well.
def plainChars : List Char := ['.', 'c', 'j', 'l', 'n', 'o', 's', 'v', 'x']

-- A word in any case.
def Spells (cs word : List Char) : Prop := cs.map Char.toLower = word

instance (cs word : List Char) : Decidable (Spells cs word) :=
  inferInstanceAs (Decidable (_ = _))

theorem toLower_of_beyond_ascii {c : Char} (h : 128 ≤ c.toNat) : c.toLower = c := by
  unfold Char.toLower
  rw [dif_neg]
  rintro ⟨-, hlast⟩
  have hlast : c.toNat ≤ 90 := hlast
  omega

theorem ascii_of_plain {x : Char} (hx : x ∈ plainChars) : x.toNat < 128 ∧ x.toNat ≠ 0 :=
  (by decide +kernel : ∀ n ∈ plainChars.map Char.toNat, n < 128 ∧ n ≠ 0) _
    (List.mem_map_of_mem hx)

theorem toLower_ne_plain {c x : Char} (hc : 128 ≤ c.toNat) (hx : x ∈ plainChars) :
    c.toLower ≠ x := by
  have hsmall := ascii_of_plain hx
  rw [toLower_of_beyond_ascii hc]
  rintro rfl
  omega

section Runs

-- The Latin capitals come first among the runs.
def latinRun : CaseRun := ⟨65, 90, 1, 32⟩

theorem caseRuns_eq : caseRuns = latinRun :: caseRuns.tail := rfl

theorem beyond_ascii_of_run : ∀ run ∈ caseRuns.tail, 128 ≤ run.first := by decide +kernel

-- The forms of all other runs lie above the plain characters, or the run is one character and its
-- form is none of them.
theorem plain_of_run : ∀ run ∈ caseRuns.tail, ∀ x ∈ plainChars.map Char.toNat,
    (x : Int) < run.first + run.shift ∨
      run.first = run.last ∧ (x : Int) ≠ run.first + run.shift := by
  decide +kernel

theorem latin_toLower : ∀ n < 128, (if latinRun.holds (Char.ofNat n) then Char.ofNat (n + 32)
    else Char.ofNat n) = (Char.ofNat n).toLower := by
  decide +kernel

theorem lowerSimple_of_ascii {c : Char} (h : c.toNat < 128) : lowerSimple c = c.toLower := by
  have hnone : caseRuns.tail.find? (·.holds c) = none := by
    refine List.find?_eq_none.mpr fun run hrun => ?_
    have := beyond_ascii_of_run run hrun
    simp only [CaseRun.holds, Bool.and_eq_true, decide_eq_true_eq]
    omega
  have hlatin := latin_toLower c.toNat h
  rw [Char.ofNat_toNat] at hlatin
  rw [← hlatin, lowerSimple, caseRuns_eq, List.find?_cons, hnone]
  cases latinRun.holds c <;> rfl

theorem toNat_eq_of_ofNat {n : Nat} {x : Char} (h : Char.ofNat n = x) (hx : x.toNat ≠ 0) :
    n = x.toNat := by
  subst h
  unfold Char.ofNat at hx ⊢
  split
  · rfl
  · rename_i hvalid
    rw [dif_neg hvalid] at hx
    exact absurd rfl hx

theorem lowerSimple_ne_plain {c x : Char} (hc : 128 ≤ c.toNat) (hx : x ∈ plainChars) :
    lowerSimple c ≠ x := by
  have hsmall := ascii_of_plain hx
  have hlatin : latinRun.holds c = false := by
    have hlast : ¬ c.toNat ≤ latinRun.last := by
      change ¬ c.toNat ≤ 90
      omega
    simp [CaseRun.holds, hlast]
  rw [lowerSimple, caseRuns_eq, List.find?_cons, hlatin]
  dsimp only
  split
  · rename_i run hrun
    intro hform
    have hholds := List.find?_some hrun
    simp only [CaseRun.holds, Bool.and_eq_true, decide_eq_true_eq] at hholds
    have hsame := toNat_eq_of_ofNat hform hsmall.2
    rcases plain_of_run run (List.mem_of_find?_eq_some hrun) _ (List.mem_map_of_mem hx) with
      habove | ⟨hone, hapart⟩ <;> omega
  · rintro rfl
    omega

end Runs

theorem lowerSimple_eq_iff {x : Char} (hx : x ∈ plainChars) (c : Char) :
    lowerSimple c = x ↔ c.toLower = x := by
  rcases Nat.lt_or_ge c.toNat 128 with hascii | hbeyond
  · rw [lowerSimple_of_ascii hascii]
  · exact iff_of_false (lowerSimple_ne_plain hbeyond hx) (toLower_ne_plain hbeyond hx)

-- Only the dotted capital has more than one character, and these are not plain.
theorem lowerChar_append_eq_iff {x : Char} (hx : x ∈ plainChars) (c : Char) (rest xs : List Char) :
    lowerChar c ++ rest = x :: xs ↔ c.toLower = x ∧ rest = xs := by
  unfold lowerChar
  split
  · have hne : 'i' ≠ x := by
      rintro rfl
      exact absurd hx (by decide)
    exact iff_of_false (fun h => hne (List.cons.inj h).1) fun h =>
      toLower_ne_plain (by omega) hx h.1
  · rw [List.singleton_append, List.cons.injEq, lowerSimple_eq_iff hx]

-- Induction on the text: whatever comes before a character, its form is plain in the same cases.
theorem lowerFrom_eq_iff (cased : Bool) (cs : List Char) {word : List Char}
    (hword : ∀ x ∈ word, x ∈ plainChars) : lowerFrom cased cs = word ↔ Spells cs word := by
  unfold Spells
  induction cs generalizing cased word with
  | nil => rw [lowerFrom, List.map_nil]
  | cons c rest ih =>
      rw [lowerFrom, List.map_cons]
      cases word with
      | nil =>
          refine iff_of_false (fun h => ?_) (List.cons_ne_nil _ _)
          have hnone := (List.append_eq_nil_iff.mp h).1
          unfold lowerChar at hnone
          split_ifs at hnone
      | cons x xs =>
          rw [List.forall_mem_cons] at hword
          by_cases hsigma : c = capitalSigma
          · have hbeyond : 128 ≤ capitalSigma.toNat ∧ 128 ≤ finalSigma.toNat ∧
                128 ≤ smallSigma.toNat := by decide +kernel
            have hsmall := ascii_of_plain hword.1
            rw [if_pos hsigma]
            refine iff_of_false (fun h => ?_) fun h =>
              toLower_ne_plain (by rw [hsigma]; exact hbeyond.1) hword.1 (List.cons.inj h).1
            have hhead := (List.cons.inj h).1
            split_ifs at hhead <;> subst hhead <;> omega
          · rw [if_neg hsigma, lowerChar_append_eq_iff hword.1, List.cons.injEq, ih _ hword.2]

theorem lower_eq_iff {s word : String} (hword : ∀ x ∈ word.toList, x ∈ plainChars) :
    lower s = word ↔ Spells s.toList word.toList := by
  rw [← lowerFrom_eq_iff false s.toList hword, ← String.ofList_inj, String.ofList_toList]
  rfl

end Tileboard.Text
