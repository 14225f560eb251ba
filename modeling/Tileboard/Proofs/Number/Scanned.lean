import Mathlib
import Tileboard.Number.Scan
import Tileboard.Proofs.Number.Digits
import Tileboard.Proofs.Number.Exact
import Tileboard.Proofs.Text.Trimming

namespace Tileboard

open Numeral (digitsValue)

-- A whole number as it is spelled out: a sign, negative or not, unless it is left out, and digits.
structure WholeSpelling where
  sign : Option Bool
  digits : List Nat
  digits_ne : digits ≠ []
  digits_lt : ∀ d ∈ digits, d < 10

namespace WholeSpelling

variable (s : WholeSpelling)

def signChars : Option Bool → List Char
  | none => []
  | some negative => [if negative then '-' else '+']

def chars : List Char := signChars s.sign ++ s.digits.map Nat.digitChar

def text : String := String.ofList s.chars

def isNegative : Bool := s.sign == some true

def value : Int := if s.isNegative then -digitsValue s.digits else digitsValue s.digits

-- The number has no more than 53 bits, and no more digits than count.
def IsShort : Prop := s.value.natAbs < 9007199254740992 ∧ s.digits.length ≤ Scan.digitLimit

instance : Decidable s.IsShort :=
  inferInstanceAs (Decidable (s.value.natAbs < 9007199254740992 ∧ s.digits.length ≤ Scan.digitLimit))

theorem natAbs_value : s.value.natAbs = digitsValue s.digits := by
  unfold value
  split <;> simp

theorem exists_head : ∃ d < 10, ∃ rest, s.digits.map Nat.digitChar = Nat.digitChar d :: rest := by
  obtain ⟨d, rest, hdigits⟩ := List.exists_cons_of_ne_nil s.digits_ne
  have hd : d < 10 := s.digits_lt d (by rw [hdigits]; exact List.mem_cons_self)
  exact ⟨d, hd, rest.map Nat.digitChar, by rw [hdigits, List.map_cons]⟩

end WholeSpelling

namespace Scan

section Digits

theorem asciiDigit?_digitChar {d : Nat} (h : d < 10) : asciiDigit? (Nat.digitChar d) = some d := by
  have hall : ∀ d : Fin 10, asciiDigit? (Nat.digitChar d) = some d.val := by decide
  exact hall ⟨d, h⟩

theorem digitChar_of_asciiDigit? {c : Char} {d : Nat} (h : asciiDigit? c = some d) :
    d < 10 ∧ c = Nat.digitChar d := by
  unfold asciiDigit? at h
  split at h
  · rename_i hrange
    have hfirst : 48 ≤ c.toNat := hrange.1
    have hlast : c.toNat ≤ 57 := hrange.2
    have hd : c.toNat - 48 = d := Option.some.inj h
    have hall : ∀ d : Fin 10, Char.ofNat (48 + d.val) = Nat.digitChar d := by decide
    have hlt : d < 10 := by omega
    refine ⟨hlt, ?_⟩
    rw [← hall ⟨d, hlt⟩, ← Char.ofNat_toNat c]
    congr 1
    simp only
    omega
  · cases h

theorem takeAscii_digits {ds : List Nat} (h : ∀ d ∈ ds, d < 10) :
    takeAscii (ds.map Nat.digitChar) = (ds, []) := by
  induction ds with
  | nil => rfl
  | cons d ds ih =>
      obtain ⟨hd, hds⟩ := List.forall_mem_cons.mp h
      rw [List.map_cons, takeAscii, asciiDigit?_digitChar hd]
      simp only [ih hds]

theorem takeAscii_spec {cs after : List Char} {ds : List Nat} (h : takeAscii cs = (ds, after)) :
    cs = ds.map Nat.digitChar ++ after ∧ ∀ d ∈ ds, d < 10 := by
  induction cs generalizing ds with
  | nil =>
      cases h
      exact ⟨rfl, by simp⟩
  | cons c rest ih =>
      rw [takeAscii] at h
      cases hdigit : asciiDigit? c with
      | none =>
          rw [hdigit] at h
          cases h
          exact ⟨rfl, by simp⟩
      | some d =>
          obtain ⟨hd, rfl⟩ := digitChar_of_asciiDigit? hdigit
          rw [hdigit] at h
          cases hrest : takeAscii rest with
          | mk others behind =>
              rw [hrest] at h
              cases h
              obtain ⟨hsplit, hothers⟩ := ih hrest
              exact ⟨by rw [hsplit]; rfl, List.forall_mem_cons.mpr ⟨hd, hothers⟩⟩

end Digits

section Value

variable {s : Scan} {n : Nat} {ds : List Nat}

theorem count_addDigit (s : Scan) (d : Nat) : (s.addDigit d).count = s.count + 1 := rfl

theorem count_le_addWhole (s : Scan) (ds : List Nat) : s.count ≤ (s.addWhole ds).count := by
  induction ds generalizing s with
  | nil => exact Nat.le_refl _
  | cons d rest ih =>
      rw [addWhole]
      split
      · exact (Nat.le_succ _).trans (ih (s.addDigit d))
      · exact ih { s with exponent := s.exponent + 1 }

theorem count_addWhole_pos (h : ds ≠ []) : (start.addWhole ds).count ≠ 0 := by
  obtain ⟨d, rest, rfl⟩ := List.exists_cons_of_ne_nil h
  have hone : (start.addDigit d).count = 1 := rfl
  have hcount := count_le_addWhole (start.addDigit d) rest
  rw [addWhole, if_pos (by decide)]
  omega

theorem toRat?_addDigit {d : Nat} (hvalue : s.value.toRat? = some (n : Rat)) (hd : d < 10)
    (hn : n * 10 + d < 9007199254740992) :
    (s.addDigit d).value.toRat? = some ((n * 10 + d : Nat) : Rat) := by
  have hten : (Binary64.ofInt 10).toRat? = some ((10 : Int) : Rat) :=
    Binary64.toRat?_ofInt (by decide)
  have hdigit : (Binary64.ofInt d).toRat? = some ((d : Int) : Rat) :=
    Binary64.toRat?_ofInt (by omega)
  have hshifted := Binary64.toRat?_mul (n := n * 10) hvalue hten (by push_cast; rfl) (by omega)
  have hsum := Binary64.toRat?_add (n := n * 10 + d) hshifted hdigit (by push_cast; rfl) (by omega)
  simpa [addDigit] using hsum

-- Induction on the digits: the numbers on the way are no greater than the last.
theorem addWhole_exact (hvalue : s.value.toRat? = some (n : Rat))
    (hcount : s.count + ds.length ≤ digitLimit) (hds : ∀ d ∈ ds, d < 10)
    (hn : ds.foldl (fun n d => n * 10 + d) n < 9007199254740992) :
    (s.addWhole ds).exponent = s.exponent ∧
      (s.addWhole ds).value.toRat? = some ((ds.foldl (fun n d => n * 10 + d) n : Nat) : Rat) := by
  induction ds generalizing s n with
  | nil => exact ⟨rfl, hvalue⟩
  | cons d rest ih =>
      obtain ⟨hd, hrest⟩ := List.forall_mem_cons.mp hds
      rw [List.foldl_cons] at hn
      rw [List.length_cons] at hcount
      have hnext := (le_foldl_digits (n * 10 + d) rest).trans_lt hn
      rw [addWhole, if_pos (by omega), List.foldl_cons]
      exact ih (toRat?_addDigit hvalue hd hnext) (by rw [count_addDigit]; omega) hrest hn

theorem powerOfTen_zero : (powerOfTen 0).toRat? = some ((1 : Int) : Rat) := by
  have hone : powerOfTen 0 = Binary64.ofInt 1 := by decide +kernel
  rw [hone]
  exact Binary64.toRat?_ofInt (by decide)

theorem scaled?_zero {x : Binary64} {k : Int} (hx : x.toRat? = some (k : Rat))
    (hk : k.natAbs < 9007199254740992) :
    ∃ near, scaled? x 0 = some near ∧ near.toRat? = some (k : Rat) := by
  have hquotient := Binary64.toRat?_div (n := k) hx powerOfTen_zero (by simp) (by simp) hk
  refine ⟨x.div (powerOfTen 0), ?_, hquotient⟩
  have hfinite := Binary64.isFinite_of_toRat? hquotient
  simp [scaled?, hfinite]

end Value

section Parts

variable {cs unsigned after rest : List Char} {negative : Bool} {ds : List Nat} {r : Reading}

def signed (negative : Bool) (x : Binary64) : Binary64 := if negative then x.negate else x

theorem decimal?_of_no_point (hsign : Numeral.takeSign (cs.dropWhile asciiBlank) = (negative, unsigned))
    (hdigits : takeAscii unsigned = (ds, after)) (hpoint : after.head? ≠ some '.') :
    decimal? cs = if (start.addWhole ds).count = 0 then none else
      (takeExponent? after).bind fun (exponent, rest) =>
        (scaled? (signed negative (start.addWhole ds).value)
          ((start.addWhole ds).exponent + exponent.getD 0)).bind fun near =>
            if rest.all asciiBlank then
              some ⟨near, if exponent.isNone then
                some (if negative then -digitsValue ds else digitsValue ds) else none⟩
            else none := by
  unfold decimal?
  rw [hsign]
  dsimp only
  rw [hdigits]
  dsimp only
  split
  · exact absurd rfl hpoint
  · rfl

theorem whole_eq_none_of_point
    (hsign : Numeral.takeSign (cs.dropWhile asciiBlank) = (negative, unsigned))
    (hdigits : takeAscii unsigned = (ds, '.' :: rest)) (h : decimal? cs = some r) :
    r.whole = none := by
  unfold decimal? at h
  simp only [hsign, hdigits] at h
  split at h
  · cases h
  · obtain ⟨exponent, -, h⟩ := Option.bind_eq_some_iff.mp h
    obtain ⟨near, -, h⟩ := Option.bind_eq_some_iff.mp h
    split at h
    · cases h
      rfl
    · cases h

end Parts

section Spelled

variable (s : WholeSpelling)

theorem dropWhile_chars : s.chars.dropWhile asciiBlank = s.chars := by
  obtain ⟨d, hd, rest, hdigits⟩ := s.exists_head
  have hplain : ∀ d : Fin 10, asciiBlank (Nat.digitChar d) = false := by decide
  unfold WholeSpelling.chars
  rw [hdigits]
  match s.sign with
  | none =>
      rw [WholeSpelling.signChars, List.nil_append, List.dropWhile_cons, hplain ⟨d, hd⟩,
        if_neg Bool.false_ne_true]
  | some false => rfl
  | some true => rfl

theorem takeSign_chars :
    Numeral.takeSign s.chars = (s.isNegative, s.digits.map Nat.digitChar) := by
  obtain ⟨d, hd, rest, hdigits⟩ := s.exists_head
  unfold WholeSpelling.chars WholeSpelling.isNegative
  rw [hdigits]
  match s.sign with
  | none => interval_cases d <;> rfl
  | some false => rfl
  | some true => rfl

theorem decimal?_chars : decimal? s.chars =
    (scaled? (signed s.isNegative (start.addWhole s.digits).value)
      (start.addWhole s.digits).exponent).map fun near => ⟨near, some s.value⟩ := by
  have hsign := takeSign_chars s
  have hcount := count_addWhole_pos s.digits_ne
  rw [← dropWhile_chars] at hsign
  rw [decimal?_of_no_point hsign (takeAscii_digits s.digits_lt) (by simp), if_neg hcount]
  simp only [takeExponent?, Option.bind_some, Option.getD_none, add_zero]
  cases scaled? (signed s.isNegative (start.addWhole s.digits).value)
    (start.addWhole s.digits).exponent <;> rfl

theorem infinity?_chars : infinity? s.chars = none := by
  obtain ⟨d, hd, rest, hdigits⟩ := s.exists_head
  have hlower : ∀ d : Fin 10, (Nat.digitChar d).toLower ≠ 'i' := by decide
  have hother : ∀ word : String, word.toList.head? = some 'i' →
      Numeral.asciiLower (s.digits.map Nat.digitChar) ≠ word := by
    rintro word hhead rfl
    rw [Numeral.asciiLower, String.toList_ofList, hdigits] at hhead
    exact hlower ⟨d, hd⟩ (Option.some.inj hhead)
  unfold infinity?
  rw [takeSign_chars]
  dsimp only
  rw [if_neg]
  simp only [List.contains_cons, List.contains_nil, Bool.or_eq_true, beq_iff_eq]
  rintro (h | h | h)
  · exact hother _ rfl h
  · exact hother _ rfl h
  · cases h

theorem ofText?_text : ofText? s.text =
    (scaled? (signed s.isNegative (start.addWhole s.digits).value)
      (start.addWhole s.digits).exponent).map fun near => ⟨near, some s.value⟩ := by
  rw [ofText?, WholeSpelling.text, String.toList_ofList, infinity?_chars, decimal?_chars]
  split
  · rename_i h
    exact h.symm
  · rename_i h
    exact h.symm

theorem isFinite_of_scaled? {x near : Binary64} {exponent : Int}
    (h : scaled? x exponent = some near) : near.isFinite = true := by
  have hkept : ∀ result : Binary64, (if result.isFinite then some result else none) = some near →
      near.isFinite = true := by
    intro result h
    split at h
    · rename_i hfinite
      rw [← Option.some.inj h]
      exact hfinite
    · cases h
  exact hkept _ h

theorem ofText?_of_short (h : s.IsShort) : ∃ near,
    ofText? s.text = some ⟨near, some s.value⟩ ∧ near.toRat? = some (s.value : Rat) := by
  obtain ⟨hbits, hdigits⟩ := h
  have hsize := s.natAbs_value
  obtain ⟨hexponent, hvalue⟩ := @addWhole_exact start 0 s.digits
    (by simpa [start] using Binary64.toRat?_zero false) (by simpa [start] using hdigits) s.digits_lt
    (by rw [hsize] at hbits; exact hbits)
  have hsigned : (signed s.isNegative (start.addWhole s.digits).value).toRat? =
      some (s.value : Rat) := by
    unfold signed WholeSpelling.value
    cases s.isNegative with
    | false => simpa [digitsValue] using hvalue
    | true => simpa [digitsValue] using Binary64.toRat?_negate hvalue
  obtain ⟨near, hscaled, hnear⟩ := scaled?_zero hsigned hbits
  refine ⟨near, ?_, hnear⟩
  rw [ofText?_text, hexponent, show start.exponent = 0 from rfl, hscaled]
  rfl

end Spelled

-- What is read as a whole number

section Read

variable {cs rest after : List Char} {negative : Bool}

theorem isBlank_of_asciiBlank {c : Char} (h : asciiBlank c = true) : Text.isBlank c = true := by
  have hall : ([9, 10, 11, 12, 13, 32].all fun n => Text.isBlank (Char.ofNat n)) = true := by
    decide +kernel
  have hpoint : c.toNat ∈ [9, 10, 11, 12, 13, 32] := by
    unfold asciiBlank at h
    rw [Bool.or_eq_true, Bool.and_eq_true, decide_eq_true_eq, decide_eq_true_eq,
      decide_eq_true_eq] at h
    rcases h with rfl | ⟨hfirst, hlast⟩
    · decide
    · have hfirst : 9 ≤ c.toNat := hfirst
      have hlast : c.toNat ≤ 13 := hlast
      simp only [List.mem_cons, List.not_mem_nil, or_false]
      omega
  have hblank := List.all_eq_true.mp hall _ hpoint
  rwa [Char.ofNat_toNat] at hblank

theorem takeSign_spec (h : Numeral.takeSign cs = (negative, rest)) :
    ∃ sign, cs = WholeSpelling.signChars sign ++ rest ∧ (sign == some true) = negative := by
  unfold Numeral.takeSign at h
  split at h
  · cases h
    exact ⟨some false, rfl, rfl⟩
  · cases h
    exact ⟨some true, rfl, rfl⟩
  · cases h
    exact ⟨none, rfl, rfl⟩

theorem takeExponent?_none (h : takeExponent? after = some (none, rest)) : rest = after := by
  unfold takeExponent? at h
  split at h
  · cases h
    rfl
  · split at h
    · dsimp only at h
      split at h <;> cases h
    · cases h
      rfl

theorem dropWhile_of_trimmed (h : Text.trimChars cs = cs) : cs.dropWhile asciiBlank = cs := by
  cases cs with
  | nil => rfl
  | cons c rest =>
      have hwhole : Text.trimChars (c :: rest) ≠ [] := by simp [h]
      obtain ⟨⟨d, hd, hblank⟩, -⟩ := Text.trimChars_ends hwhole
      rw [h] at hd
      cases hd
      have hascii : asciiBlank c = false := by
        rw [Bool.eq_false_iff]
        intro hascii
        rw [isBlank_of_asciiBlank hascii] at hblank
        cases hblank
      rw [List.dropWhile_cons, hascii, if_neg Bool.false_ne_true]

-- A text without blanks around it does not end in blanks.
theorem eq_nil_of_blanks_behind (h : Text.trimChars (cs ++ after) = cs ++ after)
    (hafter : after.all asciiBlank = true) : after = [] := by
  by_contra hne
  have hwhole : Text.trimChars (cs ++ after) ≠ [] := by simp [h, hne]
  obtain ⟨-, c, hc, hblank⟩ := Text.trimChars_ends hwhole
  rw [h, List.getLast?_append_of_ne_nil _ hne] at hc
  rw [isBlank_of_asciiBlank (List.all_eq_true.mp hafter c (List.mem_of_getLast? hc))] at hblank
  cases hblank

theorem exists_spelling_of_decimal? {near : Binary64} {n : Int}
    (h : decimal? cs = some ⟨near, some n⟩) (htrim : Text.trimChars cs = cs) :
    ∃ s : WholeSpelling, s.chars = cs ∧ s.value = n := by
  obtain ⟨⟨negative, unsigned⟩, hsign⟩ : ∃ p, Numeral.takeSign cs = p := ⟨_, rfl⟩
  obtain ⟨⟨ds, after⟩, hdigits⟩ : ∃ p, takeAscii unsigned = p := ⟨_, rfl⟩
  have hwhere := hsign
  rw [← dropWhile_of_trimmed htrim] at hwhere
  obtain ⟨sign, hsplit, hnegative⟩ := takeSign_spec hsign
  obtain ⟨hunsigned, hlt⟩ := takeAscii_spec hdigits
  have hpoint : after.head? ≠ some '.' := by
    intro hhead
    obtain ⟨rest, rfl⟩ := List.head?_eq_some_iff.mp hhead
    cases whole_eq_none_of_point hwhere hdigits h
  rw [decimal?_of_no_point hwhere hdigits hpoint] at h
  split at h
  · cases h
  rename_i hcount
  have hne : ds ≠ [] := by
    rintro rfl
    exact hcount rfl
  obtain ⟨⟨exponent, rest⟩, hexponent, hscaled⟩ := Option.bind_eq_some_iff.mp h
  obtain ⟨value, -, hshown⟩ := Option.bind_eq_some_iff.mp hscaled
  split at hshown
  · rename_i hblanks
    rw [Option.some.injEq, Reading.mk.injEq] at hshown
    cases exponent with
    | some e => cases hshown.2
    | none =>
        have hrest := takeExponent?_none hexponent
        subst hrest
        rw [hsplit, hunsigned, ← List.append_assoc] at htrim
        have hnil := eq_nil_of_blanks_behind htrim hblanks
        refine ⟨⟨sign, ds, hne, hlt⟩, ?_, ?_⟩
        · rw [hsplit, hunsigned, hnil, List.append_nil]
          rfl
        · rw [WholeSpelling.value, WholeSpelling.isNegative, hnegative]
          exact Option.some.inj hshown.2
  · cases hshown

-- What is read as a whole number spells it out, if no blanks are around it.
theorem exists_spelling {t : String} {near : Binary64} {n : Int}
    (h : ofText? t = some ⟨near, some n⟩) (htrim : Text.trim t = t) :
    ∃ s : WholeSpelling, s.text = t ∧ s.value = n := by
  rw [Text.trim, ← String.toList_inj, String.toList_ofList] at htrim
  have hread : decimal? t.toList = some ⟨near, some n⟩ := by
    unfold ofText? at h
    split at h
    · rename_i hdecimal
      rw [hdecimal, h]
    · unfold infinity? at h
      dsimp only at h
      split at h
      · injection h with h
        cases congrArg Reading.whole h
      · cases h
  obtain ⟨s, hchars, hvalue⟩ := exists_spelling_of_decimal? hread htrim
  exact ⟨s, by rw [WholeSpelling.text, hchars, String.ofList_toList], hvalue⟩

end Read

end Scan

end Tileboard
