import Mathlib
import Tileboard.Number.Places
import Tileboard.Proofs.Number.Digits
import Tileboard.Proofs.Text.Trimming

namespace Tileboard

open Numeral (takeDigits takeExponent? digitsValue)

-- A decimal as it is spelled out: digits, a point with digits behind it unless there are none, and
-- an exponent behind its mark unless it is left out.
structure DecimalSpelling where
  whole : List Nat
  fraction : List Nat
  exponent : Option (Bool × List Nat)
  whole_ne : whole ≠ []
  whole_digits : ∀ d ∈ whole, d < 10
  fraction_digits : ∀ d ∈ fraction, d < 10
  exponent_digits : ∀ part ∈ exponent, part.2 ≠ [] ∧ ∀ d ∈ part.2, d < 10

section Digits

theorem digitsValue_append (ds es : List Nat) :
    digitsValue (ds ++ es) = digitsValue ds * 10 ^ es.length + digitsValue es := by
  induction es using List.reverseRecOn with
  | nil => simp [digitsValue]
  | append_singleton es e ih =>
      rw [← List.append_assoc, digitsValue_append_singleton, ih, digitsValue_append_singleton,
        List.length_append, List.length_singleton, pow_succ]
      ring

theorem digitsValue_replicate_zero (n : Nat) : digitsValue (List.replicate n 0) = 0 := by
  induction n with
  | zero => rfl
  | succ n ih => rw [List.replicate_succ', digitsValue_append_singleton, ih]

theorem replicate_digitChar (n : Nat) :
    List.replicate n '0' = (List.replicate n 0).map Nat.digitChar := by
  rw [List.map_replicate]
  rfl

theorem lt_ten_of_mem_replicate_zero {n d : Nat} (h : d ∈ List.replicate n 0) : d < 10 := by
  rw [List.eq_of_mem_replicate h]
  decide

end Digits

namespace Numeral

variable {cs rest : List Char} {whole : List Nat}

theorem decimal?_of_point (h : takeDigits cs = (whole, '.' :: rest)) :
    decimal? cs = if whole.isEmpty && (takeDigits rest).1.isEmpty then none
      else (takeExponent? (takeDigits rest).2).map fun exponent =>
        (digitsValue (whole ++ (takeDigits rest).1), exponent - ((takeDigits rest).1.length : Int)) := by
  unfold decimal?
  rw [h]
  rfl

theorem decimal?_of_no_point (h : takeDigits cs = (whole, rest)) (hrest : rest.head? ≠ some '.') :
    decimal? cs = if whole.isEmpty then none
      else (takeExponent? rest).map fun exponent => (digitsValue whole, exponent) := by
  unfold decimal?
  rw [h]
  dsimp only
  split
  · exact absurd rfl hrest
  · simp

end Numeral

namespace DecimalSpelling

variable (s : DecimalSpelling)

def fractionChars : List Nat → List Char
  | [] => []
  | d :: ds => '.' :: (d :: ds).map Nat.digitChar

def exponentChars : Option (Bool × List Nat) → List Char
  | none => []
  | some (negative, ds) => 'e' :: (if negative then '-' else '+') :: ds.map Nat.digitChar

def chars : List Char :=
  s.whole.map Nat.digitChar ++ (fractionChars s.fraction ++ exponentChars s.exponent)

def exponentValue : Option (Bool × List Nat) → Int
  | none => 0
  | some (negative, ds) => if negative then -(digitsValue ds : Int) else digitsValue ds

def value : Nat × Int :=
  (digitsValue (s.whole ++ s.fraction), exponentValue s.exponent - s.fraction.length)

theorem takeDigits_exponentChars (part : Option (Bool × List Nat)) :
    takeDigits (exponentChars part) = ([], exponentChars part) := by
  cases part with
  | none => rfl
  | some part => exact Numeral.takeDigits_cons_other (by decide) _

theorem takeExponent?_exponentChars {part : Option (Bool × List Nat)}
    (h : ∀ p ∈ part, p.2 ≠ [] ∧ ∀ d ∈ p.2, d < 10) :
    takeExponent? (exponentChars part) = some (exponentValue part) := by
  cases part with
  | none => rfl
  | some part =>
      obtain ⟨negative, ds⟩ := part
      obtain ⟨hne, hds⟩ := h _ rfl
      have hdigits : takeDigits (ds.map Nat.digitChar) = (ds, []) := by
        simpa [takeDigits] using Numeral.takeDigits_append hds []
      obtain ⟨d, rest, rfl⟩ := List.exists_cons_of_ne_nil hne
      rw [exponentChars, takeExponent?, if_pos (.inl rfl)]
      cases negative <;> simp only [Bool.false_eq_true, if_false, if_true, Numeral.takeSign, hdigits,
        exponentValue]

theorem takeDigits_chars : takeDigits s.chars =
    (s.whole, fractionChars s.fraction ++ exponentChars s.exponent) := by
  have hafter : takeDigits (fractionChars s.fraction ++ exponentChars s.exponent) =
      ([], fractionChars s.fraction ++ exponentChars s.exponent) := by
    cases s.fraction with
    | nil => exact takeDigits_exponentChars s.exponent
    | cons d ds => exact Numeral.takeDigits_cons_other (by decide) _
  rw [chars, Numeral.takeDigits_append s.whole_digits, hafter, List.append_nil]

theorem decimal?_chars : Numeral.decimal? s.chars = some s.value := by
  have hempty : s.whole.isEmpty = false := List.isEmpty_eq_false_iff.mpr s.whole_ne
  have hexponent := takeExponent?_exponentChars s.exponent_digits
  have hwhole := takeDigits_chars s
  unfold value
  cases hfraction : s.fraction with
  | nil =>
      rw [hfraction] at hwhole
      rw [Numeral.decimal?_of_no_point hwhole (by cases s.exponent <;> simp [fractionChars, exponentChars])]
      simp [hempty, fractionChars, hexponent]
  | cons d ds =>
      have hdigits : takeDigits ((d :: ds).map Nat.digitChar ++ exponentChars s.exponent) =
          (d :: ds, exponentChars s.exponent) := by
        rw [Numeral.takeDigits_append (hfraction ▸ s.fraction_digits), takeDigits_exponentChars,
          List.append_nil]
      rw [hfraction, fractionChars, List.cons_append] at hwhole
      rw [Numeral.decimal?_of_point hwhole, hdigits]
      simp [hexponent]

-- The texts that spell out a quantity.
def Spells (cs : List Char) (q : ℚ) : Prop :=
  ∃ s : DecimalSpelling, cs = s.chars ∧ (s.value.1 : ℚ) * 10 ^ s.value.2 = q

variable {whole fraction digits : List Nat}

theorem spells_point (hne : whole ≠ []) (hwhole : ∀ d ∈ whole, d < 10)
    (hfraction : ∀ d ∈ fraction, d < 10) (hpoint : fraction ≠ []) :
    Spells (whole.map Nat.digitChar ++ '.' :: fraction.map Nat.digitChar)
      (digitsValue (whole ++ fraction) * 10 ^ (-(fraction.length : Int))) := by
  refine ⟨⟨whole, fraction, none, hne, hwhole, hfraction, by simp⟩, ?_, ?_⟩
  · obtain ⟨d, ds, rfl⟩ := List.exists_cons_of_ne_nil hpoint
    simp [chars, fractionChars, exponentChars]
  · simp [value, exponentValue]

theorem spells_exponent (hne : whole ≠ []) (hwhole : ∀ d ∈ whole, d < 10)
    (hfraction : ∀ d ∈ fraction, d < 10) (hexponent : digits ≠ []) (hdigits : ∀ d ∈ digits, d < 10)
    {exponent : Int} (hvalue : digitsValue digits = exponent.natAbs) :
    Spells (whole.map Nat.digitChar ++ fractionChars fraction ++
        'e' :: (if exponent < 0 then '-' else '+') :: digits.map Nat.digitChar)
      (digitsValue (whole ++ fraction) * 10 ^ (exponent - fraction.length)) := by
  refine ⟨⟨whole, fraction, some (decide (exponent < 0), digits), hne, hwhole, hfraction, ?_⟩, ?_, ?_⟩
  · rintro part ⟨⟩
    exact ⟨hexponent, hdigits⟩
  · simp [chars, exponentChars]
  · have hread : exponentValue (some (decide (exponent < 0), digits)) = exponent := by
      rw [exponentValue, hvalue]
      split_ifs with h <;> rw [decide_eq_true_eq] at h <;> omega
    simp [value, hread]

end DecimalSpelling

namespace DecimalLayout

-- The five forms: zero, a value below one, a whole value, one with a fraction, and one with an
-- exponent.
theorem render_eq (layout : DecimalLayout) (coefficient : Nat) (exponent : Int) :
    layout.render coefficient exponent =
      let digits := Nat.toDigits 10 coefficient
      let count : Int := digits.length
      let point : Int := count + exponent
      if coefficient = 0 then "0.0"
      else if layout.leastPoint ≤ point ∧ point ≤ layout.greatestPoint then
        if point ≤ 0 then
          "0." ++ String.ofList (List.replicate (-point).toNat '0') ++ String.ofList digits
        else if count ≤ point then
          String.ofList digits ++ String.ofList (List.replicate (point - count).toNat '0') ++ ".0"
        else
          String.ofList (digits.take point.toNat) ++ "." ++ String.ofList (digits.drop point.toNat)
      else
        String.ofList (digits.take 1) ++
          (if (digits.drop 1).isEmpty then "" else "." ++ String.ofList (digits.drop 1)) ++
          ((if point - 1 < 0 then "e-" else "e+") ++
            String.ofList (List.replicate
              (layout.exponentWidth - (toString (point - 1).natAbs).length) '0') ++
            toString (point - 1).natAbs) :=
  rfl

open DecimalSpelling (Spells fractionChars spells_point spells_exponent)

section Forms

variable {ds es : List Nat}

theorem spells_zero : Spells ['0', '.', '0'] 0 := by
  have h := @spells_point [0] [0] (by simp) (by simp) (by simp) (by simp)
  have hzero : Nat.digitChar 0 = '0' := rfl
  simpa [digitsValue, hzero] using h

theorem spells_below (hne : ds ≠ []) (hds : ∀ d ∈ ds, d < 10) (k : Nat) :
    Spells ('0' :: '.' :: (List.replicate k '0' ++ ds.map Nat.digitChar))
      (digitsValue ds * 10 ^ (-((k + ds.length : Nat) : Int))) := by
  have hdigits : ∀ d ∈ List.replicate k 0 ++ ds, d < 10 := fun d hd =>
    (List.mem_append.mp hd).elim lt_ten_of_mem_replicate_zero (hds d)
  have h := @spells_point [0] (List.replicate k 0 ++ ds) (by simp) (by simp) hdigits (by simp [hne])
  have hvalue : digitsValue ([0] ++ (List.replicate k 0 ++ ds)) = digitsValue ds := by
    have hzero : [0] ++ List.replicate k 0 = List.replicate (k + 1) 0 := rfl
    rw [← List.append_assoc, hzero, digitsValue_append, digitsValue_replicate_zero, Nat.zero_mul,
      Nat.zero_add]
  rw [hvalue, List.length_append, List.length_replicate, List.map_append,
    ← replicate_digitChar] at h
  exact h

theorem spells_whole (hne : ds ≠ []) (hds : ∀ d ∈ ds, d < 10) (k : Nat) :
    Spells (ds.map Nat.digitChar ++ List.replicate k '0' ++ ['.', '0'])
      (digitsValue ds * 10 ^ (k : Int)) := by
  have hdigits : ∀ d ∈ ds ++ List.replicate k 0, d < 10 := fun d hd =>
    (List.mem_append.mp hd).elim (hds d) lt_ten_of_mem_replicate_zero
  have h := @spells_point (ds ++ List.replicate k 0) [0] (by simp [hne]) hdigits (by simp) (by simp)
  rw [digitsValue_append_singleton, digitsValue_append, digitsValue_replicate_zero, List.length_replicate,
    List.map_append, ← replicate_digitChar] at h
  have hvalue : (((digitsValue ds * 10 ^ k + 0) * 10 + 0 : Nat) : ℚ) * 10 ^ (-([0].length : Int)) =
      digitsValue ds * 10 ^ (k : Int) := by
    rw [zpow_natCast, List.length_singleton, Nat.cast_one, zpow_neg_one]
    push_cast
    ring
  rwa [hvalue] at h

theorem spells_within {p : Nat} (hds : ∀ d ∈ ds, d < 10) (hpos : 0 < p) (hlt : p < ds.length) :
    Spells ((ds.map Nat.digitChar).take p ++ '.' :: (ds.map Nat.digitChar).drop p)
      (digitsValue ds * 10 ^ ((p : Int) - ds.length)) := by
  have htake : ds.take p ≠ [] := by
    rw [Ne, List.take_eq_nil_iff]
    rintro (h | rfl)
    · omega
    · cases hlt
  have hdrop : ds.drop p ≠ [] := by
    rw [Ne, List.drop_eq_nil_iff]
    omega
  have h := spells_point htake (fun d hd => hds d (List.mem_of_mem_take hd))
    (fun d hd => hds d (List.mem_of_mem_drop hd)) hdrop
  have hexponent : -((ds.length - p : Nat) : Int) = (p : Int) - ds.length := by omega
  rw [List.take_append_drop, List.length_drop, hexponent, List.map_take, List.map_drop] at h
  exact h

theorem spells_scientific (hne : ds ≠ []) (hds : ∀ d ∈ ds, d < 10) {exponent : Int} (k : Nat) :
    Spells ((ds.map Nat.digitChar).take 1 ++
        (if ((ds.map Nat.digitChar).drop 1).isEmpty then [] else '.' :: (ds.map Nat.digitChar).drop 1) ++
        'e' :: (if exponent < 0 then '-' else '+') ::
          (List.replicate k '0' ++ Nat.toDigits 10 exponent.natAbs))
      (digitsValue ds * 10 ^ (exponent - (ds.length - 1 : Nat))) := by
  obtain ⟨es, hchars, hes, hdigits, hvalue⟩ := exists_digits exponent.natAbs
  have hzeros : ∀ d ∈ List.replicate k 0 ++ es, d < 10 := fun d hd =>
    (List.mem_append.mp hd).elim lt_ten_of_mem_replicate_zero (hdigits d)
  have hread : digitsValue (List.replicate k 0 ++ es) = exponent.natAbs := by
    rw [digitsValue_append, digitsValue_replicate_zero, Nat.zero_mul, Nat.zero_add, hvalue]
  obtain ⟨d, rest, rfl⟩ := List.exists_cons_of_ne_nil hne
  have h := @spells_exponent [d] rest _ (by simp) (by simpa using hds d List.mem_cons_self)
    (fun x hx => hds x (List.mem_cons_of_mem d hx)) (by simp [hes]) hzeros _ hread
  rw [List.map_append, ← replicate_digitChar, ← hchars] at h
  have hfraction : fractionChars rest =
      if (rest.map Nat.digitChar).isEmpty then [] else '.' :: rest.map Nat.digitChar := by
    cases rest <;> rfl
  rw [hfraction] at h
  exact h

end Forms

-- Whatever the layout, the coefficient and the exponent can be told from the text.
theorem spells_render (layout : DecimalLayout) (coefficient : Nat) (exponent : Int) :
    Spells (layout.render coefficient exponent).toList (coefficient * 10 ^ exponent) := by
  obtain ⟨ds, hchars, hne, hdigits, hvalue⟩ := exists_digits coefficient
  have hlength : 0 < ds.length := List.length_pos_iff.mpr hne
  rw [render_eq, hchars]
  dsimp only
  rw [List.length_map]
  by_cases hzero : coefficient = 0
  · subst hzero
    simpa using spells_zero
  rw [if_neg hzero, ← hvalue]
  by_cases hwithin : layout.leastPoint ≤ (ds.length : Int) + exponent ∧
      (ds.length : Int) + exponent ≤ layout.greatestPoint
  · rw [if_pos hwithin]
    by_cases hbelow : (ds.length : Int) + exponent ≤ 0
    · have h := spells_below hne hdigits (-((ds.length : Int) + exponent)).toNat
      have hexponent : -(((-((ds.length : Int) + exponent)).toNat + ds.length : Nat) : Int) = exponent := by
        omega
      rw [if_pos hbelow]
      rw [hexponent] at h
      simpa using h
    · rw [if_neg hbelow]
      by_cases hwhole : (ds.length : Int) ≤ (ds.length : Int) + exponent
      · have h := spells_whole hne hdigits ((ds.length : Int) + exponent - ds.length).toNat
        have hexponent : ((((ds.length : Int) + exponent - ds.length).toNat : Nat) : Int) = exponent := by
          omega
        rw [if_pos hwhole]
        rw [hexponent] at h
        simpa using h
      · have h := @spells_within _ ((ds.length : Int) + exponent).toNat hdigits (by omega) (by omega)
        have hexponent : ((((ds.length : Int) + exponent).toNat : Nat) : Int) - ds.length = exponent := by
          omega
        rw [if_neg hwhole]
        rw [hexponent] at h
        simpa using h
  · have h := @spells_scientific _ hne hdigits ((ds.length : Int) + exponent - 1)
      (layout.exponentWidth - (toString ((ds.length : Int) + exponent - 1).natAbs).length)
    have hexponent : (ds.length : Int) + exponent - 1 - ((ds.length - 1 : Nat) : Int) = exponent := by
      omega
    rw [if_neg hwithin]
    have hdigitsOf : (toString ((ds.length : Int) + exponent - 1).natAbs).toList =
        Nat.toDigits 10 ((ds.length : Int) + exponent - 1).natAbs := String.toList_ofList
    rw [hexponent] at h
    convert h using 1
    rw [← hdigitsOf]
    split_ifs <;> simp

end DecimalLayout

namespace DecimalSpelling

variable (s : DecimalSpelling)

theorem exists_head : ∃ d rest, d < 10 ∧ s.chars = Nat.digitChar d :: rest := by
  obtain ⟨d, ds, hwhole⟩ := List.exists_cons_of_ne_nil s.whole_ne
  have hd : d < 10 := s.whole_digits d (by rw [hwhole]; exact List.mem_cons_self)
  refine ⟨d, ds.map Nat.digitChar ++ (fractionChars s.fraction ++ exponentChars s.exponent), hd, ?_⟩
  rw [chars, hwhole, List.map_cons, List.cons_append]

-- The characters of decimals.
def alphabet : List Char :=
  ['0', '1', '2', '3', '4', '5', '6', '7', '8', '9', '.', 'e', '-', '+']

theorem mem_alphabet {c : Char} (h : c ∈ s.chars) : c ∈ alphabet := by
  have hdigit : ∀ {ds : List Nat}, (∀ d ∈ ds, d < 10) → c ∈ ds.map Nat.digitChar → c ∈ alphabet := by
    intro ds hds hc
    obtain ⟨d, hd, rfl⟩ := List.mem_map.mp hc
    have hall : ∀ d : Fin 10, Nat.digitChar d ∈ alphabet := by decide
    exact hall ⟨d, hds d hd⟩
  rcases List.mem_append.mp h with h | h
  · exact hdigit s.whole_digits h
  rcases List.mem_append.mp h with h | h
  · cases hfraction : s.fraction with
    | nil =>
        rw [hfraction] at h
        cases h
    | cons d ds =>
        rw [hfraction] at h
        rcases List.mem_cons.mp h with rfl | h
        · decide
        · exact hdigit (hfraction ▸ s.fraction_digits) h
  · cases hexponent : s.exponent with
    | none =>
        rw [hexponent] at h
        cases h
    | some part =>
        rw [hexponent] at h
        rcases List.mem_cons.mp h with rfl | h
        · decide
        rcases List.mem_cons.mp h with rfl | h
        · cases part.1 <;> decide
        · exact hdigit (s.exponent_digits part hexponent).2 h

theorem plain_of_mem_chars {c : Char} (h : c ∈ s.chars) : Text.isBlank c = false ∧ c ≠ '_' := by
  have hall : (alphabet.all fun c => !Text.isBlank c && c != '_') = true := by decide +kernel
  simpa using List.all_eq_true.mp hall c (s.mem_alphabet h)

end DecimalSpelling

end Tileboard
