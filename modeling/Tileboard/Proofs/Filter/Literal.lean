import Mathlib
import Tileboard.Proofs.Filter.Negation
import Tileboard.Proofs.Filter.Pair
import Tileboard.Proofs.Text.Surroundings

namespace Tileboard

open DrillDown (issueSlot)

-- What a text that is looked for comes to where the cell is another text: in the two tests of a
-- column, and in a pair whose slot stands for the column. A pair whose column has no name asks
-- nothing.
structure Sought (needle cell : String) (answer : Bool) : Prop where
  contains : ∀ mode column row, row.cell column = .ok (.text cell) →
    Matcher.outcome mode column (.contains false) (.text needle) row = .ok answer
  lacks : ∀ mode column row, row.cell column = .ok (.text cell) →
    Matcher.outcome mode column (.contains true) (.text needle) row = .ok !answer
  keeps : ∀ columns issues slot name rows, DrillDown.checkIssues issues = .ok () →
    slot.equal (.text issueSlot) = false → columns.cell slot = .ok (.text name) →
    (∀ row ∈ rows, ∃ fields, row = .object fields) →
    ∃ kept, (DrillDown.apply id columns issues [⟨slot, .text needle⟩] rows).result = .ok kept ∧
      ∀ row ∈ rows, row.cell (.text name) = .ok (.text cell) →
        (row ∈ kept ↔ name = "" ∨ answer = true)

namespace DrillDown

variable {columns slot : Value} {issues rows : List Value} {name s : String}

theorem apply_text (hissues : checkIssues issues = .ok ())
    (hissue : slot.equal (.text issueSlot) = false)
    (hslot : columns.cell slot = .ok (.text name)) (hrows : ∀ row ∈ rows, ∃ fields, row = .object fields)
    (s : String) : (apply id columns issues [⟨slot, .text s⟩] rows).result =
      .ok (rows.filter (finds name s)) := by
  have hasked : ∀ row ∈ rows, (Traced.ofExcept
      (acceptsAll columns issues [⟨slot, .text s⟩] (id row))).result = .ok (finds name s row) :=
    fun row hrow => acceptsAll_text hissue hslot (hrows row hrow) s
  rw [apply, Traced.result_lift_bind, hissues, ok_bind,
    Selection.keep_eq_filter fun row hrow => ⟨_, hasked row hrow⟩]
  congr 1
  exact List.filter_congr fun row hrow => Traced.isTrue_of_ok (hasked row hrow)

end DrillDown

namespace Text

-- The two searches decide what a text comes to: one of them goes by the blanks around the texts,
-- the other does not.
theorem sought_of_contains {needle cell : String} {answer : Bool}
    (hfold : contains (fold cell) (fold needle) = answer)
    (hlower : contains (lower cell) (lower needle) = answer) : Sought needle cell answer where
  contains mode column row hcell := by
    have htest : Matcher.contained (fold needle) false (.text cell) = answer := by
      rw [← hfold]
      exact Bool.bne_false _
    rw [Matcher.outcome_contains false rfl, hcell]
    exact congrArg Except.ok htest
  lacks mode column row hcell := by
    have htest : Matcher.contained (fold needle) true (.text cell) = !answer := by
      rw [← hfold]
      exact Bool.bne_true _
    rw [Matcher.outcome_contains true rfl, hcell]
    exact congrArg Except.ok htest
  keeps columns issues slot name rows hissues hissue hslot hrows := by
    refine ⟨_, DrillDown.apply_text hissues hissue hslot hrows needle, fun row hrow hcell => ?_⟩
    have hfield : row.field name = .text cell := by
      rw [Value.cell_of_record (hrows row hrow)] at hcell
      exact Except.ok.inj hcell
    have hempty : needle = "" → answer = true := by
      rintro rfl
      rw [← hlower, contains_iff]
      exact List.nil_infix
    rw [List.mem_filter, DrillDown.finds, hfield]
    simp only [hrow, hlower, true_and, Bool.or_eq_true, beq_iff_eq]
    rw [or_assoc, or_iff_right_of_imp hempty]

-- A text is found wherever it stands exactly if its letters have one form in lower case, whatever
-- stands around it. Otherwise it stands in a text in which it is not found: behind a letter, or
-- before one. Only a text with a capital sigma can be of that kind.
theorem literal_found_iff_settled (needle : String) :
    (Settled needle.toList ↔
      ∀ cell : String, needle.toList <:+: cell.toList → Sought needle cell true) ∧
    (¬Settled needle.toList →
      ∃ cell : String, needle.toList <:+: cell.toList ∧ Sought needle cell false) ∧
    (capitalSigma ∉ needle.toList → Settled needle.toList) := by
  have hlost : ¬Settled needle.toList →
      ∃ cell : String, needle.toList <:+: cell.toList ∧ Sought needle cell false := by
    intro h
    obtain ⟨cell, hcell, hlower, hfold⟩ := exists_lost_of_not_settled h
    exact ⟨cell, hcell, sought_of_contains hfold hlower⟩
  refine ⟨⟨fun h cell hcell => ?_, fun h => ?_⟩, hlost, settled_of_no_sigma⟩
  · exact sought_of_contains (contains_fold_of_settled h hcell) (contains_lower_of_settled h hcell)
  · by_contra hnot
    obtain ⟨cell, hcell, hsought⟩ := hlost hnot
    have hrow : (Value.object [("", .text cell)]).cell (.text "") = .ok (.text cell) := rfl
    have hfound := (h cell hcell).contains .strict (.text "") _ hrow
    rw [hsought.contains .strict (.text "") _ hrow] at hfound
    cases hfound

-- A sigma between two letters is found in the middle of a word, and a sigma alone is not found
-- everywhere.
theorem sigma_found_between_letters : Sought "ΑΣΑ" " ΠΑΣΑΣ" true ∧
    ∃ cell : String, "Σ".toList <:+: cell.toList ∧ Sought "Σ" cell false := by
  have hbetween : Settled "ΑΣΑ".toList := by decide +kernel
  have halone : ¬Settled "Σ".toList := by decide +kernel
  have hwithin : "ΑΣΑ".toList <:+: " ΠΑΣΑΣ".toList :=
    ⟨" Π".toList, "Σ".toList, by decide +kernel⟩
  exact ⟨(literal_found_iff_settled "ΑΣΑ").1.mp hbetween _ hwithin,
    (literal_found_iff_settled "Σ").2.1 halone⟩

theorem final_sigma_lost : "Σ".toList <:+: "ΑΣ".toList ∧
    Matcher.outcome .permissive (.text "c") (.contains false) (.text "Σ")
      (.object [("c", .text "ΑΣ")]) = .ok false ∧
    Matcher.outcome .permissive (.text "c") (.contains true) (.text "Σ")
      (.object [("c", .text "ΑΣ")]) = .ok true ∧
    (DrillDown.apply id (.object [("c", .text "c")]) [] [⟨.text "c", .text "Σ"⟩]
      [.object [("c", .text "ΑΣ")]]).result = .ok [] :=
  ⟨⟨"Α".toList, [], rfl⟩, rfl, rfl, rfl⟩

end Text

end Tileboard
