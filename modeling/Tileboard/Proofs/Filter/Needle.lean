import Mathlib
import Tileboard.Proofs.Filter.Negation
import Tileboard.Proofs.Number.Written
import Tileboard.Proofs.Text.Lowered

namespace Tileboard

namespace Text

theorem trim_enclosed {opening closing : Char} (hopening : isBlank opening = false)
    (hclosing : isBlank closing = false) (cs : List Char) :
    trim (String.ofList (opening :: (cs ++ [closing]))) =
      String.ofList (opening :: (cs ++ [closing])) := by
  rw [trim, String.toList_ofList, trimChars_of_ends]
  · simpa using hopening
  · rw [← List.cons_append, List.getLast?_concat]
    simpa using hclosing

end Text

theorem Number.trim_text (x : Number) : Text.trim x.text = x.text := by
  have hplain : (alphabet.all fun c => !Text.isBlank c) = true := by decide +kernel
  have hnot : ∀ c ∈ x.text.toList, Text.isBlank c = false := fun c hc => by
    simpa using List.all_eq_true.mp hplain c (mem_alphabet hc)
  rw [Text.trim, Text.trimChars_of_ends, String.ofList_toList]
  · exact fun c hc => hnot c (List.mem_of_mem_head? hc)
  · exact fun c hc => hnot c (List.mem_of_mem_getLast? hc)

theorem Number.lower_text (x : Number) : Text.lower x.text = x.text := by
  have hlow : (alphabet.all fun c => decide (Text.IsLow c)) = true := by decide +kernel
  refine Text.lower_of_isLow fun c hc => ?_
  simpa using List.all_eq_true.mp hlow c (mem_alphabet hc)

-- What is written of a value that is no text has no blanks around it.
theorem Value.trim_asText {v : Value} (h : v.isText = false) : Text.trim v.asText = v.asText := by
  cases v with
  | text s => cases h
  | null => decide +kernel
  | bool b => cases b <;> decide +kernel
  | number n => exact n.trim_text
  | list items =>
      have hbrackets : (Value.list items).asText = String.ofList
          ('[' :: ((", ".intercalate (shownItems items)).toList ++ [']'])) := by
        rw [← String.toList_inj]
        simp [asText, shown]
      rw [hbrackets]
      exact Text.trim_enclosed (by decide) (by decide) _
  | object fields =>
      have hbrackets : (Value.object fields).asText = String.ofList
          ('\x7b' :: ((", ".intercalate (shownFields fields)).toList ++ ['\x7d'])) := by
        rw [← String.toList_inj]
        simp [asText, shown]
      rw [hbrackets]
      exact Text.trim_enclosed (by decide) (by decide) _

namespace Matcher

variable {mode : Mode} {column operand row cell : Value} {negated : Bool}

theorem needleOf_of_other (h : operand.isText = false) : needleOf operand = operand.asText := by
  cases operand with
  | text s => cases h
  | _ => rfl

-- The text of an operand is in lower case when it is looked for, whatever the operand.
theorem needleOf_asText (h : operand.isText = false) :
    needleOf (.text operand.asText) = Text.lower operand.asText := by
  change Text.fold operand.asText = _
  rw [Text.fold, Value.trim_asText h]

theorem contained_of_not_lower {needle : String} (h : Text.lower needle ≠ needle) (cell : Value) :
    contained needle negated cell = (cell.isText && negated) := by
  cases cell with
  | text t =>
      have hnone : Text.contains (Text.fold t) needle = false := by
        rw [Bool.eq_false_iff]
        exact fun hfound => h (Text.lower_eq_of_contains_lower hfound)
      simp [contained, hnone, Value.isText]
  | _ => rfl

-- The record that holds the text of the operand.
def holding (operand : Value) : Value := .object [("text", .text operand.asText)]

theorem outcome_asText_holding (h : operand.isText = false) :
    outcome mode (.text "text") (.contains negated) (.text operand.asText) (holding operand) =
      .ok !negated := by
  rw [outcome_contains negated rfl, needleOf_asText h]
  have hcell : (holding operand).cell (.text "text") = .ok (.text operand.asText) := rfl
  have hfound : Text.contains (Text.fold operand.asText) (Text.lower operand.asText) = true := by
    rw [Text.fold, Value.trim_asText h]
    exact Text.contains_self _
  rw [hcell]
  simp [Except.map, contained, hfound]

-- An operand is looked for as its text is exactly if it is a text or its text is in lower case, as
-- that of a number is. Any other operand is found nowhere, not even where its text stands.
theorem operand_found_as_text_iff (hoperand : operand.isNull = false) (mode : Mode)
    (negated : Bool) :
    ((∀ column row, outcome mode column (.contains negated) operand row =
        outcome mode column (.contains negated) (.text operand.asText) row) ↔
      operand.isText = true ∨ Text.lower operand.asText = operand.asText) ∧
    (operand.isNumber = true → Text.lower operand.asText = operand.asText) ∧
    (operand.isText = false → Text.lower operand.asText ≠ operand.asText →
      (∀ column row cell, row.cell column = .ok cell →
        outcome mode column (.contains negated) operand row = .ok (cell.isText && negated)) ∧
      outcome mode (.text "text") (.contains negated) (.text operand.asText) (holding operand) =
        .ok !negated) := by
  have hlost : operand.isText = false → Text.lower operand.asText ≠ operand.asText →
      ∀ column row cell, row.cell column = .ok cell →
        outcome mode column (.contains negated) operand row = .ok (cell.isText && negated) := by
    intro hother hlower column row cell hcell
    rw [outcome_contains negated hoperand, needleOf_of_other hother, hcell]
    exact congrArg Except.ok (contained_of_not_lower hlower cell)
  refine ⟨⟨fun hagree => ?_, fun hsame => ?_⟩, fun hnumber => ?_, fun hother hlower =>
    ⟨hlost hother hlower, outcome_asText_holding hother⟩⟩
  · by_contra hneither
    obtain ⟨hother, hlower⟩ := not_or.mp hneither
    rw [Bool.not_eq_true] at hother
    have hhere := hagree (.text "text") (holding operand)
    rw [hlost hother hlower _ _ _ rfl, outcome_asText_holding hother] at hhere
    cases negated <;> simp [Value.isText] at hhere
  · intro column row
    rw [outcome_contains negated hoperand, outcome_contains negated rfl]
    cases hother : operand.isText with
    | false =>
        rw [hother] at hsame
        rw [needleOf_of_other hother, needleOf_asText hother, hsame.resolve_left (by decide)]
    | true =>
        cases operand with
        | text s => rfl
        | _ => cases hother
  · cases operand with
    | number n => exact n.lower_text
    | _ => cases hnumber

-- A list of a number and a text in lower case is looked for as its text. A list with a truth value
-- is not: the cell that holds the text of that list does not contain the list.
theorem quantity_found_flag_lost :
    (∀ column row, outcome .strict column (.contains false)
        (.list [.number (.int 5), .text "kg"]) row =
      outcome .strict column (.contains false) (.text "[5, 'kg']") row) ∧
    outcome .strict (.text "text") (.contains false) (.list [.bool true])
      (.object [("text", .text "[True]")]) = .ok false ∧
    outcome .strict (.text "text") (.contains false) (.text "[True]")
      (.object [("text", .text "[True]")]) = .ok true := by
  have hquantity : Text.lower (Value.list [.number (.int 5), .text "kg"]).asText =
      (Value.list [.number (.int 5), .text "kg"]).asText := by decide +kernel
  have hflag : Text.lower (Value.list [.bool true]).asText ≠ (Value.list [.bool true]).asText := by
    decide +kernel
  have hagree := (@operand_found_as_text_iff (.list [.number (.int 5), .text "kg"]) rfl .strict
    false).1.mpr (.inr hquantity)
  obtain ⟨hnowhere, hthere⟩ :=
    (@operand_found_as_text_iff (.list [.bool true]) rfl .strict false).2.2 rfl hflag
  exact ⟨hagree, hnowhere (.text "text") (holding (.list [.bool true])) _ rfl, hthere⟩

-- The operand true is not found where its text is.
theorem true_not_found :
    outcome .permissive (.text "c") (.contains false) (.bool true)
      (.object [("c", .text "true")]) = .ok false ∧
    outcome .permissive (.text "c") (.contains false) (.text (Value.bool true).asText)
      (.object [("c", .text "true")]) = .ok true :=
  ⟨rfl, rfl⟩

end Matcher

end Tileboard
