import Mathlib
import Tileboard.Text.LetterCase
import Tileboard.Text.Search
import Tileboard.Proofs.Text.Trimming

namespace Tileboard.Text

section Blanks

-- A character is in a class that starts with a pair of boundaries if it lies between the two, or in
-- the class of the others.
theorem inRanges_pair {a b : Nat} {rest : List Nat} (hab : a < b) (hrest : ∀ x ∈ rest, b < x)
    (c : Char) : inRanges (a :: b :: rest) c = true ↔
      (a ≤ c.toNat ∧ c.toNat < b) ∨ inRanges rest c = true := by
  unfold inRanges
  by_cases hb : b ≤ c.toNat
  · have ha : a ≤ c.toNat := by omega
    simp [ha, hb]
    omega
  · have hnone : rest.takeWhile (· ≤ c.toNat) = [] := by
      cases rest with
      | nil => rfl
      | cons x xs =>
          have hx := hrest x List.mem_cons_self
          simp
          omega
    by_cases ha : a ≤ c.toNat
    · simp [ha, hb, hnone]
      omega
    · simp [ha, hnone]

def blankPoints : List Nat := [
  9, 10, 11, 12, 13, 28, 29, 30, 31, 32, 133, 160, 5760, 8192, 8193, 8194, 8195, 8196, 8197, 8198,
  8199, 8200, 8201, 8202, 8232, 8233, 8239, 8287, 12288]

theorem mem_blankPoints {c : Char} (h : isBlank c = true) : c.toNat ∈ blankPoints := by
  have hnone : inRanges [] c = false := rfl
  unfold isBlank blankBoundaries at h
  simp (disch := decide) only [inRanges_pair, hnone, Bool.false_eq_true, or_false] at h
  simp only [blankPoints, List.mem_cons, List.not_mem_nil, or_false]
  omega

theorem blankPoints_neutral : ∀ n ∈ blankPoints,
    (casedBoundaries.takeWhile (· ≤ n)).length % 2 = 0 ∧
      (caseIgnorableBoundaries.takeWhile (· ≤ n)).length % 2 = 0 ∧ n ≠ capitalSigma.toNat := by
  decide +kernel

-- No blank is cased or skipped, and none is a sigma.
theorem neutral_of_isBlank {c : Char} (h : isBlank c = true) :
    isCased c = false ∧ isCaseIgnorable c = false ∧ c ≠ capitalSigma := by
  obtain ⟨hcased, hskipped, hsigma⟩ := blankPoints_neutral c.toNat (mem_blankPoints h)
  unfold isCased isCaseIgnorable inRanges
  refine ⟨by simp [hcased], by simp [hskipped], ?_⟩
  rintro rfl
  exact hsigma rfl

end Blanks

section Trimming

variable {blanks : List Char}

-- After a blank a word begins.
theorem lowerFrom_blanks_append (hblanks : ∀ c ∈ blanks, isBlank c = true) (cs : List Char) :
    lowerFrom false (blanks ++ cs) = lowerFrom false blanks ++ lowerFrom false cs := by
  induction blanks with
  | nil => rfl
  | cons c rest ih =>
      obtain ⟨hc, hrest⟩ := List.forall_mem_cons.mp hblanks
      obtain ⟨hcased, hskipped, hsigma⟩ := neutral_of_isBlank hc
      simp only [List.cons_append, lowerFrom, if_neg hsigma, hskipped, hcased, ih hrest,
        Bool.false_eq_true, if_false, List.append_assoc]

theorem startsCased_append_blanks (hblanks : ∀ c ∈ blanks, isBlank c = true) (cs : List Char) :
    startsCased (cs ++ blanks) = startsCased cs := by
  unfold startsCased
  rw [List.dropWhile_append]
  cases hdrop : cs.dropWhile isCaseIgnorable with
  | cons c rest => rfl
  | nil =>
      cases blanks with
      | nil => rfl
      | cons b others =>
          obtain ⟨hcased, hskipped, -⟩ := neutral_of_isBlank (hblanks b List.mem_cons_self)
          simp [hskipped, hcased]

-- Induction on the text. What stands behind it matters for a sigma only, which blanks leave at the
-- end of its word.
theorem lowerFrom_prefix_append_blanks (hblanks : ∀ c ∈ blanks, isBlank c = true) (cased : Bool)
    (cs : List Char) : lowerFrom cased cs <+: lowerFrom cased (cs ++ blanks) := by
  induction cs generalizing cased with
  | nil => exact List.nil_prefix
  | cons c rest ih =>
      simp only [List.cons_append, lowerFrom, startsCased_append_blanks hblanks]
      exact List.prefix_append_right_inj _ |>.mpr (ih _)

theorem lowerChars_trim_within (cs : List Char) : lowerChars (trimChars cs) <:+: lowerChars cs := by
  obtain ⟨before, after, hcs, hbefore, hafter⟩ := exists_trimmed cs
  have hlower : lowerChars cs =
      lowerFrom false before ++ lowerFrom false (trimChars cs ++ after) := by
    rw [lowerChars, ← lowerFrom_blanks_append hbefore, ← List.append_assoc, ← hcs]
  rw [hlower]
  exact (lowerFrom_prefix_append_blanks hafter false _).isInfix.trans (List.suffix_append _ _).isInfix

end Trimming

section Search

theorem occursIn_iff {needle hay : List Char} : occursIn needle hay = true ↔ needle <:+: hay := by
  induction hay with
  | nil => simp [occursIn]
  | cons c rest ih =>
      rw [occursIn, Bool.or_eq_true, List.isPrefixOf_iff_prefix, ih, List.infix_cons_iff]

theorem contains_iff {hay needle : String} :
    contains hay needle = true ↔ needle.toList <:+: hay.toList :=
  occursIn_iff

theorem toList_lower (s : String) : (lower s).toList = lowerChars s.toList := by
  rw [lower, String.toList_ofList]

theorem toList_fold (s : String) : (fold s).toList = lowerChars (trimChars s.toList) := by
  rw [fold, toList_lower, trim, String.toList_ofList]

-- What is found in the form of a text in which it is compared is found in its lower-case form.
theorem contains_lower_of_contains_fold {hay needle : String}
    (h : contains (fold hay) needle = true) : contains (lower hay) needle = true := by
  rw [contains_iff, toList_fold] at h
  rw [contains_iff, toList_lower]
  exact h.trans (lowerChars_trim_within hay.toList)

theorem contains_self (s : String) : contains s s = true := contains_iff.mpr List.infix_rfl

end Search

end Tileboard.Text
