import Mathlib
import Tileboard.Value.Equality
import Tileboard.Proofs.Text.Lowered

namespace Tileboard.Text

section Forms

variable {c x : Char} {cs : List Char}

-- No run of capitals leads to a blank.
theorem blankPoints_apart : ∀ run ∈ caseRuns, ∀ n ∈ blankPoints, n < run.low ∨ run.high < n := by
  decide +kernel

theorem isBlank_lowerSimple (h : isBlank c = false) : isBlank (lowerSimple c) = false := by
  rw [Bool.eq_false_iff]
  intro hblank
  cases hfind : caseRuns.find? (·.holds c) with
  | none =>
      rw [lowerSimple, hfind, h] at hblank
      cases hblank
  | some run =>
      have hform : Char.ofNat (c.toNat + run.shift).toNat = lowerSimple c := by
        rw [lowerSimple, hfind]
      have hpoint := mem_blankPoints hblank
      have hpos : (lowerSimple c).toNat ≠ 0 := by
        intro hzero
        rw [hzero] at hpoint
        exact absurd hpoint (by decide)
      have hcode := toNat_eq_of_ofNat hform hpos
      have hholds := List.find?_some hfind
      obtain ⟨hfirst, hlast, -⟩ := CaseRun.holds_iff.mp hholds
      rcases blankPoints_apart run (List.mem_of_find?_eq_some hfind) _ hpoint with hbelow | habove
      · unfold CaseRun.low at hbelow
        omega
      · unfold CaseRun.high at habove
        omega

theorem isBlank_of_mem_lowerChar (h : isBlank c = false) (hx : x ∈ lowerChar c) :
    isBlank x = false := by
  unfold lowerChar at hx
  split at hx
  · rcases List.mem_pair.mp hx with rfl | rfl <;> decide +kernel
  · rw [List.mem_singleton.mp hx]
    exact isBlank_lowerSimple h

-- What a character comes to, at its place in a text.
theorem exists_lowered (cased : Bool) (c : Char) (rest : List Char) : ∃ here next,
    lowerFrom cased (c :: rest) = here ++ lowerFrom next rest ∧ here ≠ [] ∧
      (isBlank c = false → ∀ x ∈ here, isBlank x = false) := by
  refine ⟨_, _, rfl, ?_, fun h x hx => ?_⟩
  · unfold lowerChar
    split_ifs <;> exact List.cons_ne_nil _ _
  · split_ifs at hx
    · rw [List.mem_singleton.mp hx]
      decide +kernel
    · rw [List.mem_singleton.mp hx]
      decide +kernel
    · exact isBlank_of_mem_lowerChar h hx

theorem lowerFrom_ne_nil (cased : Bool) (h : cs ≠ []) : lowerFrom cased cs ≠ [] := by
  obtain ⟨c, rest, rfl⟩ := List.exists_cons_of_ne_nil h
  obtain ⟨here, next, hlower, hhere, -⟩ := exists_lowered cased c rest
  rw [hlower]
  exact List.append_ne_nil_of_left_ne_nil hhere _

-- A text that starts and ends without a blank does so in lower case.
theorem head_lowerFrom (cased : Bool) (h : ∀ c ∈ cs.head?, isBlank c = false) :
    ∀ x ∈ (lowerFrom cased cs).head?, isBlank x = false := by
  intro x hx
  cases cs with
  | nil => cases hx
  | cons c rest =>
      obtain ⟨here, next, hlower, hhere, hclear⟩ := exists_lowered cased c rest
      rw [hlower, List.head?_append_of_ne_nil _ hhere] at hx
      exact hclear (h c rfl) x (List.mem_of_mem_head? hx)

theorem last_lowerFrom (cased : Bool) (h : ∀ c ∈ cs.getLast?, isBlank c = false) :
    ∀ x ∈ (lowerFrom cased cs).getLast?, isBlank x = false := by
  induction cs generalizing cased with
  | nil =>
      intro x hx
      cases hx
  | cons c rest ih =>
      intro x hx
      obtain ⟨here, next, hlower, hhere, hclear⟩ := exists_lowered cased c rest
      rw [hlower] at hx
      by_cases hrest : rest = []
      · subst hrest
        rw [lowerFrom, List.append_nil] at hx
        exact hclear (h c rfl) x (List.mem_of_getLast? hx)
      · rw [List.getLast?_append_of_ne_nil _ (lowerFrom_ne_nil next hrest)] at hx
        refine ih next (fun d hd => h d ?_) x hx
        rwa [← List.singleton_append, List.getLast?_append_of_ne_nil _ hrest]

end Forms

section Texts

variable {s : String}

theorem isLow_of_mem_fold {c : Char} (h : c ∈ (fold s).toList) : IsLow c := by
  rw [toList_fold] at h
  exact isLow_of_mem_lowerFrom h

theorem lower_fold (s : String) : lower (fold s) = fold s :=
  lower_of_isLow fun _ => isLow_of_mem_fold

theorem trim_fold (s : String) : trim (fold s) = fold s := by
  obtain ⟨hhead, hlast⟩ := trimChars_clear s.toList
  rw [trim, toList_fold, lowerChars,
    trimChars_of_ends (head_lowerFrom false hhead) (last_lowerFrom false hlast), ← lowerChars,
    ← toList_fold, String.ofList_toList]

theorem fold_fold (s : String) : fold (fold s) = fold s := by
  conv_lhs => rw [fold, trim_fold, lower_fold]

-- A text is its own form exactly if there is nothing to cut off and nothing to lower.
theorem fold_eq_self_iff : fold s = s ↔ trim s = s ∧ lower s = s := by
  constructor
  · intro h
    have htrim := trim_fold s
    have hlower := lower_fold s
    rw [h] at htrim hlower
    exact ⟨htrim, hlower⟩
  · rintro ⟨htrim, hlower⟩
    rw [fold, htrim, hlower]

theorem fold_among_blanks {before after : String} (hbefore : ∀ c ∈ before.toList, isBlank c = true)
    (hafter : ∀ c ∈ after.toList, isBlank c = true) (s : String) :
    fold (before ++ s ++ after) = fold s := by
  have hsame : trim (before ++ s ++ after) = trim s := by
    rw [trim, String.toList_append, String.toList_append, trimChars_among_blanks hbefore hafter,
      trim]
  rw [fold, hsame, fold]

end Texts

end Tileboard.Text

namespace Tileboard.Value

-- The form of a text is its own form and matches the text. Blanks around a text do not change it.
theorem normalize_projects (s : String) :
    (normalize (.text s)).normalize = normalize (.text s) ∧
    (∀ before after : String, (∀ c ∈ before.toList, Text.isBlank c = true) →
      (∀ c ∈ after.toList, Text.isBlank c = true) →
        normalize (.text (before ++ s ++ after)) = normalize (.text s)) ∧
    (Value.text s).matchesValue (normalize (.text s)) = true ∧
    (normalize (.text s) = .text s ↔ Text.trim s = s ∧ Text.lower s = s) := by
  refine ⟨?_, fun before after hbefore hafter => ?_, ?_, ?_⟩
  · exact congrArg Value.text (Text.fold_fold s)
  · exact congrArg Value.text (Text.fold_among_blanks hbefore hafter s)
  · simp [matchesValue, normalize, isBool, equal, Text.fold_fold]
  · rw [normalize, Value.text.injEq]
    exact Text.fold_eq_self_iff

-- A word with a dotted capital and a sigma at its end, among blanks of several kinds.
theorem spaced_word_normal :
    (∀ c ∈ "\u2003\t".toList, Text.isBlank c = true) ∧
    (∀ c ∈ "\u00a0\n".toList, Text.isBlank c = true) ∧
    normalize (.text ("\u2003\t" ++ "İ ΑΣ" ++ "\u00a0\n")) = normalize (.text "İ ΑΣ") ∧
    normalize (.text "İ ΑΣ") = .text "i\u0307 ας" := by
  have hbefore : ∀ c ∈ "\u2003\t".toList, Text.isBlank c = true :=
    List.all_eq_true.mp (by decide +kernel)
  have hafter : ∀ c ∈ "\u00a0\n".toList, Text.isBlank c = true :=
    List.all_eq_true.mp (by decide +kernel)
  have hform : Text.fold "İ ΑΣ" = "i\u0307 ας" := by decide +kernel
  exact ⟨hbefore, hafter, (normalize_projects "İ ΑΣ").2.1 _ _ hbefore hafter,
    congrArg Value.text hform⟩

end Tileboard.Value
