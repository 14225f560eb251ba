import Mathlib
import Tileboard.Proofs.Number.Spelled

namespace Tileboard

namespace Decimal

-- The exact quantity of a decimal; an infinity and what is no number have none.
def toRat? : Decimal → Option ℚ
  | .finite negative coefficient exponent =>
      some (if negative then -(coefficient * 10 ^ exponent) else coefficient * 10 ^ exponent)
  | _ => none

-- Decimals of one sign and one quantity, whatever zeros stand at the end of the coefficient.
def Alike : Decimal → Decimal → Prop
  | .finite negative coefficient exponent, .finite negative' coefficient' exponent' =>
      negative = negative' ∧ (coefficient * 10 ^ exponent : ℚ) = coefficient' * 10 ^ exponent'
  | .infinite, .infinite => True
  | .quiet, .quiet => True
  | _, _ => False

theorem Alike.toRat?_eq {x y : Decimal} (h : Alike x y) : x.toRat? = y.toRat? := by
  cases x <;> cases y
  case finite.finite =>
    obtain ⟨rfl, hvalue⟩ := h
    rw [toRat?, toRat?, hvalue]
  case infinite.infinite => rfl
  case quiet.quiet => rfl
  all_goals cases h

def signed (negative : Bool) (cs : List Char) : List Char := if negative then '-' :: cs else cs

variable {s : DecimalSpelling} {negative : Bool}

theorem takeSign_signed (s : DecimalSpelling) (negative : Bool) :
    Numeral.takeSign (signed negative s.chars) = (negative, s.chars) := by
  obtain ⟨d, rest, hd, hchars⟩ := s.exists_head
  cases negative with
  | true => rfl
  | false =>
      rw [signed, if_neg Bool.false_ne_true, hchars]
      interval_cases d <;> rfl

theorem asciiLower_chars (s : DecimalSpelling) :
    Numeral.isInfinityWord (Numeral.asciiLower s.chars) = false ∧
      "nan".toList.isPrefixOf (Numeral.asciiLower s.chars).toList = false := by
  obtain ⟨d, rest, hd, hchars⟩ := s.exists_head
  have hlower : ∀ d : Fin 10, (Nat.digitChar d).toLower ≠ 'i' ∧ (Nat.digitChar d).toLower ≠ 'n' := by
    decide
  obtain ⟨hi, hn⟩ := hlower ⟨d, hd⟩
  have hword : (Numeral.asciiLower s.chars).toList =
      (Nat.digitChar d).toLower :: rest.map Char.toLower := by
    rw [Numeral.asciiLower, String.toList_ofList, hchars, List.map_cons]
  have hother : ∀ word : String, word.toList.head? = some 'i' → Numeral.asciiLower s.chars ≠ word := by
    rintro word hhead rfl
    rw [hword] at hhead
    exact hi (Option.some.inj hhead)
  constructor
  · unfold Numeral.isInfinityWord
    rw [Bool.or_eq_false_iff, beq_eq_false_iff_ne, beq_eq_false_iff_ne]
    exact ⟨hother _ rfl, hother _ rfl⟩
  · have hnan : "nan".toList = ['n', 'a', 'n'] := rfl
    rw [hword, hnan, List.isPrefixOf, beq_eq_false_iff_ne.mpr (Ne.symm hn), Bool.false_and]

theorem ofText?_signed {d : Decimal}
    (h : ofText? (String.ofList (signed negative s.chars)) = some d) :
    d = .finite negative s.value.1 s.value.2 := by
  have hplain : ∀ c ∈ signed negative s.chars, Text.isBlank c = false ∧ c ≠ '_' := by
    intro c hc
    cases negative with
    | false => exact s.plain_of_mem_chars hc
    | true =>
        rcases List.mem_cons.mp hc with rfl | hc
        · decide
        · exact s.plain_of_mem_chars hc
  have htrim : (Text.trimChars (signed negative s.chars)).filter (· ≠ '_') =
      signed negative s.chars := by
    have hne : signed negative s.chars ≠ [] := by
      obtain ⟨digit, rest, -, hchars⟩ := s.exists_head
      cases negative <;> simp [signed, hchars]
    have hkeep := Text.trimChars_append (fun c hc => (hplain c hc).1) hne []
    rw [List.append_nil] at hkeep
    rw [hkeep, show Text.dropEnd Text.isBlank [] = [] from rfl, List.append_nil]
    exact List.filter_eq_self.mpr fun c hc => decide_eq_true (hplain c hc).2
  obtain ⟨hinfinity, hnan⟩ := asciiLower_chars s
  unfold ofText? at h
  rw [String.toList_ofList, htrim] at h
  dsimp only at h
  rw [takeSign_signed] at h
  dsimp only at h
  rw [hinfinity, hnan, s.decimal?_chars, Bool.false_and, if_neg Bool.false_ne_true,
    if_neg Bool.false_ne_true] at h
  dsimp only at h
  split at h
  · exact (Option.some.inj h).symm
  · cases h

end Decimal

namespace Number

variable {x : Number} {negative : Bool} {coefficient : Nat} {exponent : Int} {d : Decimal}

theorem spells_natAbs (n : Int) : ∃ cs, DecimalSpelling.Spells cs n.natAbs ∧
    toString n = String.ofList (Decimal.signed (decide (n < 0)) cs) := by
  obtain ⟨ds, hchars, hne, hdigits, hvalue⟩ := toList_int n
  let s : DecimalSpelling := ⟨ds, [], none, hne, hdigits, by simp, by simp⟩
  refine ⟨s.chars, ⟨s, rfl, ?_⟩, ?_⟩
  · simp [s, DecimalSpelling.value, DecimalSpelling.exponentValue, hvalue]
  · have hs : s.chars = ds.map Nat.digitChar := by
      simp [s, DecimalSpelling.chars, DecimalSpelling.fractionChars, DecimalSpelling.exponentChars]
    rw [← String.ofList_toList (s := toString n), hchars, hs]
    by_cases hn : n < 0 <;> simp [Decimal.signed, hn]

-- A finite number is written as a sign and what spells out its size.
theorem exists_text (h : Decimal.ofNumber x = .finite negative coefficient exponent) :
    ∃ cs, DecimalSpelling.Spells cs (coefficient * 10 ^ exponent) ∧
      x.text = String.ofList (Decimal.signed negative cs) := by
  cases x with
  | int n =>
      obtain ⟨cs, hspells, htext⟩ := spells_natAbs n
      cases h
      refine ⟨cs, ?_, htext⟩
      rwa [zpow_zero, mul_one]
  | real value =>
      cases value with
      | nan | infinite => cases h
      | finite =>
          cases h
          refine ⟨_, DecimalLayout.spells_render .standard _ _, ?_⟩
          change (if negative then "-" else "") ++ DecimalLayout.standard.render _ _ = _
          rw [← String.toList_inj, String.toList_append, String.toList_ofList]
          cases negative <;> rfl

theorem ofText?_words : Decimal.ofText? "nan" = some .quiet ∧
    Decimal.ofText? "inf" = some .infinite ∧ Decimal.ofText? "-inf" = some .infinite := by
  decide +kernel

theorem ofNumber_eq_quiet_iff : Decimal.ofNumber x = .quiet ↔ x = .real .nan := by
  cases x with
  | int n => simp [Decimal.ofNumber]
  | real value => cases value <;> simp [Decimal.ofNumber]

theorem ofNumber_eq_infinite_iff : Decimal.ofNumber x = .infinite ↔
    ∃ negative, x = .real (.infinite negative) := by
  cases x with
  | int n => simp [Decimal.ofNumber]
  | real value => cases value <;> simp [Decimal.ofNumber]

-- The decimal that is read from the text of a number is the one that the number is taken for.
theorem alike_of_ofText?_text (h : Decimal.ofText? x.text = some d) :
    d.Alike (Decimal.ofNumber x) := by
  obtain ⟨hnan, hinfinity, hminus⟩ := ofText?_words
  cases hx : Decimal.ofNumber x with
  | finite negative coefficient exponent =>
      obtain ⟨cs, ⟨s, rfl, hvalue⟩, htext⟩ := exists_text hx
      rw [htext] at h
      rw [Decimal.ofText?_signed h]
      exact ⟨rfl, hvalue⟩
  | infinite =>
      obtain ⟨negative, rfl⟩ := ofNumber_eq_infinite_iff.mp hx
      have hd : d = .infinite := by
        cases negative with
        | false => exact Option.some.inj (h.symm.trans hinfinity)
        | true => exact Option.some.inj (h.symm.trans hminus)
      rw [hd]
      trivial
  | quiet =>
      obtain rfl := ofNumber_eq_quiet_iff.mp hx
      have hd : d = .quiet := Option.some.inj (h.symm.trans hnan)
      rw [hd]
      trivial

-- Numbers are written as decimals or as one of the two words for what is not finite.
def alphabet : List Char := DecimalSpelling.alphabet ++ ['n', 'a', 'i', 'f']

theorem mem_alphabet {c : Char} (h : c ∈ x.text.toList) : c ∈ alphabet := by
  cases hx : Decimal.ofNumber x with
  | finite negative coefficient exponent =>
      obtain ⟨cs, ⟨s, rfl, -⟩, htext⟩ := exists_text hx
      rw [htext, String.toList_ofList] at h
      cases negative with
      | false => exact List.mem_append_left _ (s.mem_alphabet h)
      | true =>
          rcases List.mem_cons.mp h with rfl | h
          · decide
          · exact List.mem_append_left _ (s.mem_alphabet h)
  | infinite =>
      obtain ⟨negative, rfl⟩ := ofNumber_eq_infinite_iff.mp hx
      have hword : ((real (.infinite negative)).text.toList.all alphabet.contains) = true := by
        cases negative <;> decide +kernel
      exact List.contains_iff_mem.mp (List.all_eq_true.mp hword c h)
  | quiet =>
      obtain rfl := ofNumber_eq_quiet_iff.mp hx
      have hword : ((real .nan).text.toList.all alphabet.contains) = true := by decide +kernel
      exact List.contains_iff_mem.mp (List.all_eq_true.mp hword c h)

theorem text_ne_empty (x : Number) : x.text ≠ "" := by
  cases hx : Decimal.ofNumber x with
  | finite negative coefficient exponent =>
      obtain ⟨cs, ⟨s, rfl, -⟩, htext⟩ := exists_text hx
      obtain ⟨d, rest, -, hchars⟩ := s.exists_head
      rw [htext, hchars, Ne, ← String.toList_inj, String.toList_ofList]
      cases negative <;> simp [Decimal.signed]
  | infinite =>
      obtain ⟨negative, rfl⟩ := ofNumber_eq_infinite_iff.mp hx
      cases negative <;> decide
  | quiet =>
      obtain rfl := ofNumber_eq_quiet_iff.mp hx
      decide

end Number

end Tileboard
