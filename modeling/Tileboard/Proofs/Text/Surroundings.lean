import Mathlib
import Tileboard.Proofs.Text.Folding
import Tileboard.Proofs.Text.Lowered

namespace Tileboard.Text

-- Whether the first character that is not skipped is cased. If there is none, what follows decides.
def startsCasedOr (after : Bool) (cs : List Char) : Bool :=
  match cs.dropWhile isCaseIgnorable with
  | c :: _ => isCased c
  | [] => after

-- The lower-case form of a part that stands behind a cased character or not, and before one or not.
def lowerWithin (before after : Bool) : List Char → List Char
  | [] => []
  | c :: rest =>
      let here :=
        if c = capitalSigma then
          [if before && !startsCasedOr after rest then finalSigma else smallSigma]
        else lowerChar c
      here ++ lowerWithin (if isCaseIgnorable c then before else isCased c) after rest

-- Whether the last character that is not skipped is cased. If there is none, what stands before
-- decides.
def casedAfter (before : Bool) : List Char → Bool
  | [] => before
  | c :: rest => casedAfter (if isCaseIgnorable c then before else isCased c) rest

-- The part has one form in all surroundings.
def Settled (cs : List Char) : Prop :=
  ∀ before after, lowerWithin before after cs = lowerChars cs

instance : DecidablePred Settled := fun cs =>
  inferInstanceAs (Decidable (∀ before after, lowerWithin before after cs = lowerChars cs))

section Parts

variable {before after : Bool} {cs ds : List Char}

theorem lowerWithin_nothing (before : Bool) (cs : List Char) :
    lowerWithin before false cs = lowerFrom before cs := by
  induction cs generalizing before with
  | nil => rfl
  | cons c rest ih =>
      rw [lowerWithin, lowerFrom, ih]
      rfl

theorem startsCasedOr_append (after : Bool) (cs ds : List Char) :
    startsCasedOr after (cs ++ ds) = startsCasedOr (startsCasedOr after ds) cs := by
  unfold startsCasedOr
  rw [List.dropWhile_append]
  cases cs.dropWhile isCaseIgnorable <;> rfl

theorem casedAfter_append (before : Bool) (cs ds : List Char) :
    casedAfter before (cs ++ ds) = casedAfter (casedAfter before cs) ds := by
  induction cs generalizing before with
  | nil => rfl
  | cons c rest ih => exact ih _

theorem lowerWithin_append (before after : Bool) (cs ds : List Char) :
    lowerWithin before after (cs ++ ds) =
      lowerWithin before (startsCasedOr after ds) cs ++
        lowerWithin (casedAfter before cs) after ds := by
  induction cs generalizing before with
  | nil => rfl
  | cons c rest ih =>
      simp only [List.cons_append, lowerWithin, ih, startsCasedOr_append, casedAfter,
        List.append_assoc]

-- A part stands in the form of the whole as its surroundings have it.
theorem lowerWithin_infix (before part after : List Char) :
    lowerWithin (casedAfter false before) (startsCasedOr false after) part <:+:
      lowerChars (before ++ part ++ after) := by
  refine ⟨lowerWithin false (startsCasedOr false (part ++ after)) before,
    lowerWithin (casedAfter (casedAfter false before) part) false after, ?_⟩
  rw [lowerChars, ← lowerWithin_nothing, List.append_assoc, List.append_assoc,
    lowerWithin_append false false before, lowerWithin_append _ false part]

theorem lowerWithin_of_no_sigma (h : capitalSigma ∉ cs) (before after before' after' : Bool) :
    lowerWithin before after cs = lowerWithin before' after' cs := by
  induction cs generalizing before before' with
  | nil => rfl
  | cons c rest ih =>
      obtain ⟨hc, hrest⟩ := not_or.mp (List.mem_cons.not.mp h)
      rw [lowerWithin, lowerWithin, if_neg (Ne.symm hc), if_neg (Ne.symm hc), ih hrest]

theorem settled_of_no_sigma (h : capitalSigma ∉ cs) : Settled cs := by
  intro before after
  rw [lowerChars, ← lowerWithin_nothing]
  exact lowerWithin_of_no_sigma h before after false false

end Parts

section Blanks

variable {blanks : List Char}

theorem casedAfter_blanks (hblanks : ∀ c ∈ blanks, isBlank c = true) :
    casedAfter false blanks = false := by
  induction blanks with
  | nil => rfl
  | cons c rest ih =>
      obtain ⟨hc, hrest⟩ := List.forall_mem_cons.mp hblanks
      obtain ⟨hcased, hskipped, -⟩ := neutral_of_isBlank hc
      rw [casedAfter, hskipped, hcased]
      exact ih hrest

theorem casedAfter_dropWhile_blank (cs : List Char) :
    casedAfter false (cs.dropWhile isBlank) = casedAfter false cs := by
  have hsplit := casedAfter_append false (cs.takeWhile isBlank) (cs.dropWhile isBlank)
  rw [List.takeWhile_append_dropWhile, casedAfter_blanks fun c hc => List.mem_takeWhile_imp hc]
    at hsplit
  exact hsplit.symm

theorem startsCasedOr_blanks (hblanks : ∀ c ∈ blanks, isBlank c = true) :
    startsCasedOr false blanks = false :=
  startsCased_append_blanks hblanks []

theorem startsCasedOr_dropEnd_blank (cs : List Char) :
    startsCasedOr false (dropEnd isBlank cs) = startsCasedOr false cs := by
  obtain ⟨blanks, hcs, hblanks⟩ := exists_dropEnd isBlank cs
  conv_rhs => rw [hcs]
  exact (startsCased_append_blanks hblanks _).symm

end Blanks

-- What is found of a part of a text

section Found

variable {part : List Char}

theorem length_lowerWithin (before after before' after' : Bool) (cs : List Char) :
    (lowerWithin before after cs).length = (lowerWithin before' after' cs).length := by
  induction cs generalizing before before' with
  | nil => rfl
  | cons c rest ih =>
      rw [lowerWithin, lowerWithin, List.length_append, List.length_append]
      congr 1
      · split_ifs <;> rfl
      · exact ih _ _

-- What stands in a settled text has one form, whatever stands around the text.
theorem lowerWithin_of_settled {first middle last : List Char}
    (h : Settled (first ++ middle ++ last)) (before after : Bool) :
    lowerWithin (casedAfter before first) (startsCasedOr after last) middle =
      lowerWithin (casedAfter false first) (startsCasedOr false last) middle := by
  have hsame := (h before after).trans (h false false).symm
  simp only [List.append_assoc, lowerWithin_append, startsCasedOr_append] at hsame
  have hrest := (List.append_inj hsame (length_lowerWithin _ _ _ _ _)).2
  exact (List.append_inj hrest (length_lowerWithin _ _ _ _ _)).1

theorem lowerChars_infix_of_settled (h : Settled part) {whole : List Char}
    (hpart : part <:+: whole) : lowerChars part <:+: lowerChars whole := by
  obtain ⟨before, after, rfl⟩ := hpart
  rw [← h (casedAfter false before) (startsCasedOr false after)]
  exact lowerWithin_infix before part after

-- Cutting the blanks off leaves around the part what decides on its form.
theorem lowerChars_trim_infix_of_settled (h : Settled part) {whole : List Char}
    (hpart : part <:+: whole) :
    lowerChars (trimChars part) <:+: lowerChars (trimChars whole) := by
  obtain ⟨before, after, rfl⟩ := hpart
  obtain ⟨first, last, hsplit, hfirst, hlast⟩ := exists_trimmed part
  by_cases hempty : trimChars part = []
  · rw [hempty]
    exact List.nil_infix
  obtain ⟨hhead, hend⟩ := trimChars_ends hempty
  have hwhole : trimChars (before ++ part ++ after) = (before ++ first).dropWhile isBlank ++
      trimChars part ++ dropEnd isBlank (last ++ after) := by
    rw [← trimChars_around hhead hend]
    conv_lhs => rw [hsplit]
    simp only [List.append_assoc]
  have hform : lowerWithin (casedAfter false (before ++ first)) (startsCasedOr false (last ++ after))
      (trimChars part) = lowerChars (trimChars part) := by
    rw [casedAfter_append, startsCasedOr_append, lowerWithin_of_settled (hsplit ▸ h),
      casedAfter_blanks hfirst, startsCasedOr_blanks hlast, lowerChars, ← lowerWithin_nothing]
  rw [hwhole, ← hform, ← casedAfter_dropWhile_blank, ← startsCasedOr_dropEnd_blank]
  exact lowerWithin_infix _ _ _

end Found

-- What is not found of a part of a text that is not settled

section Lost

-- A character as it is, or a sigma that has come to the end of a word.
def Hardens (c d : Char) : Prop := d = c ∨ c = smallSigma ∧ d = finalSigma

theorem startsCasedOr_mono {after after' : Bool} (h : after ≤ after') (cs : List Char) :
    startsCasedOr after cs ≤ startsCasedOr after' cs := by
  unfold startsCasedOr
  cases cs.dropWhile isCaseIgnorable with
  | nil => exact h
  | cons c rest => exact le_rfl

theorem hardens_sigma {before before' after after' : Bool} (hbefore : before ≤ before')
    (hafter : after' ≤ after) : Hardens (if before && !after then finalSigma else smallSigma)
      (if before' && !after' then finalSigma else smallSigma) := by
  revert hbefore hafter
  cases before <;> cases before' <;> cases after <;> cases after' <;> simp [Hardens]

-- Only what stands before makes a sigma final, and only what follows keeps it from that.
theorem forall₂_hardens {before before' after after' : Bool} (hbefore : before ≤ before')
    (hafter : after' ≤ after) (cs : List Char) :
    List.Forall₂ Hardens (lowerWithin before after cs) (lowerWithin before' after' cs) := by
  induction cs generalizing before before' with
  | nil => exact .nil
  | cons c rest ih =>
      rw [lowerWithin, lowerWithin]
      refine List.rel_append ?_ (ih ?_)
      · by_cases hsigma : c = capitalSigma
        · rw [if_pos hsigma, if_pos hsigma]
          exact .cons (hardens_sigma hbefore (startsCasedOr_mono hafter rest)) .nil
        · rw [if_neg hsigma, if_neg hsigma]
          exact List.forall₂_same.mpr fun d _ => .inl rfl
      · split_ifs
        · exact hbefore
        · exact le_rfl

theorem count_of_hardens {cs ds : List Char} (h : List.Forall₂ Hardens cs ds) (hne : cs ≠ ds) :
    ds.count smallSigma < cs.count smallSigma ∧ cs.count finalSigma < ds.count finalSigma := by
  have hforms : smallSigma ≠ finalSigma := by decide
  induction h with
  | nil => exact absurd rfl hne
  | @cons c d cs ds hcd hrest ih =>
      by_cases hsame : cs = ds
      · subst hsame
        rcases hcd with rfl | ⟨rfl, rfl⟩
        · exact absurd rfl hne
        · simp [hforms, hforms.symm]
      · obtain ⟨hsmall, hfinal⟩ := ih hsame
        rcases hcd with rfl | ⟨rfl, rfl⟩
        · simp only [List.count_cons]
          omega
        · simp only [List.count_cons, beq_self_eq_true, beq_iff_eq, hforms, hforms.symm, if_true,
            if_false]
          omega

-- A part is settled if neither a letter before it nor one behind it changes its form. The two
-- together have a form between the other two.
theorem settled_iff {cs : List Char} : Settled cs ↔
    lowerWithin true false cs = lowerChars cs ∧ lowerWithin false true cs = lowerChars cs := by
  constructor
  · exact fun h => ⟨h true false, h false true⟩
  · rintro ⟨hbefore, hafter⟩ before after
    have halone : lowerWithin false false cs = lowerChars cs := lowerWithin_nothing false cs
    have hboth : lowerWithin true true cs = lowerChars cs := by
      have hlow : List.Forall₂ Hardens (lowerWithin false true cs) (lowerWithin true true cs) :=
        forall₂_hardens (Bool.false_le _) le_rfl cs
      have hhigh : List.Forall₂ Hardens (lowerWithin true true cs) (lowerWithin true false cs) :=
        forall₂_hardens le_rfl (Bool.false_le _) cs
      rw [hafter] at hlow
      rw [hbefore] at hhigh
      by_contra hne
      have hfewer := (count_of_hardens hlow (Ne.symm hne)).1
      have hmore := (count_of_hardens hhigh hne).1
      omega
    cases before <;> cases after <;> assumption

theorem lowerChars_letter_before (cs : List Char) :
    lowerChars ('A' :: cs) = 'a' :: lowerWithin true false cs := by
  rw [lowerChars, ← lowerWithin_nothing, ← List.singleton_append, lowerWithin_append]
  have hform : ∀ after, lowerWithin false after ['A'] = ['a'] := by decide +kernel
  have hcased : casedAfter false ['A'] = true := by decide +kernel
  rw [hform, hcased, List.singleton_append]

theorem lowerChars_letter_behind (cs : List Char) :
    lowerChars (cs ++ ['A']) = lowerWithin false true cs ++ ['a'] := by
  rw [lowerChars, ← lowerWithin_nothing, lowerWithin_append]
  have hform : ∀ before, lowerWithin before false ['A'] = ['a'] := by decide +kernel
  have hcased : startsCasedOr false ['A'] = true := by decide +kernel
  rw [hform, hcased]

theorem isLow_of_isBlank {c : Char} (h : isBlank c = true) : IsLow c := by
  have hall : (blankPoints.all fun n => decide (IsLow (Char.ofNat n))) = true := by decide +kernel
  have hpoint := List.all_eq_true.mp hall c.toNat (mem_blankPoints h)
  rwa [Char.ofNat_toNat, decide_eq_true_eq] at hpoint

theorem lowerWithin_blanks {blanks : List Char} (hblanks : ∀ c ∈ blanks, isBlank c = true)
    (before after : Bool) : lowerWithin before after blanks = blanks := by
  have hsigma : capitalSigma ∉ blanks := fun h =>
    (neutral_of_isBlank (hblanks _ h)).2.2 rfl
  rw [lowerWithin_of_no_sigma hsigma before after before false, lowerWithin_nothing]
  exact lowerFrom_of_isLow before fun c hc => isLow_of_isBlank (hblanks c hc)

-- Cutting the blanks off cuts nothing else off the form.
theorem count_lowerChars_trim {c : Char} (hc : isBlank c = false) (cs : List Char) :
    (lowerChars (trimChars cs)).count c = (lowerChars cs).count c := by
  obtain ⟨first, last, hsplit, hfirst, hlast⟩ := exists_trimmed cs
  have hnone : ∀ {blanks : List Char}, (∀ d ∈ blanks, isBlank d = true) → blanks.count c = 0 := by
    intro blanks hblanks
    refine List.count_eq_zero.mpr fun hmem => ?_
    rw [hblanks c hmem] at hc
    cases hc
  have hform : lowerChars cs = first ++ lowerChars (trimChars cs) ++ last := by
    conv_lhs => rw [hsplit]
    rw [lowerChars, ← lowerWithin_nothing, lowerWithin_append, lowerWithin_append,
      lowerWithin_blanks hfirst, lowerWithin_blanks hlast, casedAfter_blanks hfirst,
      startsCasedOr_blanks hlast, lowerChars, ← lowerWithin_nothing]
  rw [hform, List.count_append, List.count_append, hnone hfirst, hnone hlast]
  omega

-- The form of a part has more of one of the two small sigmas than that of the part behind a letter,
-- or than that of the part before one.
theorem exists_fewer_of_not_settled {part : List Char} (h : ¬Settled part) :
    ∃ whole, part <:+: whole ∧ ∃ c, isBlank c = false ∧
      (lowerChars whole).count c < (lowerChars part).count c := by
  have halone : lowerWithin false false part = lowerChars part := lowerWithin_nothing false part
  rw [settled_iff, not_and_or] at h
  rcases h with h | h
  · refine ⟨'A' :: part, (List.suffix_cons _ _).isInfix, smallSigma, by decide +kernel, ?_⟩
    have hhardens : List.Forall₂ Hardens (lowerWithin false false part)
        (lowerWithin true false part) := forall₂_hardens (Bool.false_le _) le_rfl part
    rw [halone] at hhardens
    have hcount := (count_of_hardens hhardens (Ne.symm h)).1
    rw [lowerChars_letter_before, List.count_cons_of_ne (by decide)]
    exact hcount
  · refine ⟨part ++ ['A'], (List.prefix_append _ _).isInfix, finalSigma, by decide +kernel, ?_⟩
    have hhardens : List.Forall₂ Hardens (lowerWithin false true part)
        (lowerWithin false false part) := forall₂_hardens le_rfl (Bool.false_le _) part
    rw [halone] at hhardens
    have hcount := (count_of_hardens hhardens h).2
    rw [lowerChars_letter_behind, List.count_append, List.count_singleton]
    simpa [finalSigma] using hcount

end Lost

section Search

variable {part : String}

theorem contains_lower_of_settled (h : Settled part.toList) {whole : String}
    (hpart : part.toList <:+: whole.toList) : contains (lower whole) (lower part) = true := by
  rw [contains_iff, toList_lower, toList_lower]
  exact lowerChars_infix_of_settled h hpart

theorem contains_fold_of_settled (h : Settled part.toList) {whole : String}
    (hpart : part.toList <:+: whole.toList) : contains (fold whole) (fold part) = true := by
  rw [contains_iff, toList_fold, toList_fold]
  exact lowerChars_trim_infix_of_settled h hpart

-- A text that is not settled stands in a text in which it is not found.
theorem exists_lost_of_not_settled (h : ¬Settled part.toList) :
    ∃ whole : String, part.toList <:+: whole.toList ∧
      contains (lower whole) (lower part) = false ∧ contains (fold whole) (fold part) = false := by
  obtain ⟨cs, hpart, c, hc, hfewer⟩ := exists_fewer_of_not_settled h
  refine ⟨String.ofList cs, by rwa [String.toList_ofList], ?_, ?_⟩ <;> rw [Bool.eq_false_iff] <;>
    intro hfound
  · rw [contains_iff, toList_lower, toList_lower, String.toList_ofList] at hfound
    exact absurd (hfound.count_le c) (Nat.not_le.mpr hfewer)
  · have hlower := contains_lower_of_contains_fold hfound
    rw [contains_iff, toList_fold, toList_lower, String.toList_ofList] at hlower
    have hcount := hlower.count_le c
    rw [count_lowerChars_trim hc] at hcount
    exact absurd hcount (Nat.not_le.mpr hfewer)

end Search

end Tileboard.Text
