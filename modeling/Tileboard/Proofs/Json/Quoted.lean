import Tileboard.Json.Reader
import Tileboard.Json.Writer

namespace Tileboard.Json

section Texts

variable {controls : Bool} {rest : List Char}

-- Four digits that are no surrogate stand for one character, whatever comes behind them.
theorem takeText?_number {a b c d : Char} {n : Nat} (hn : hex4? a b c d = some n)
    (hlow : n < 0xD800) : takeText? controls ('\\' :: 'u' :: a :: b :: c :: d :: rest) =
      (takeText? controls rest).map fun t => (Char.ofNat n :: t.1, t.2) := by
  rw [takeText?.eq_def]
  split
  · rename_i heq
    cases heq
  · rename_i heq
    cases heq
  · rename_i e f g h after heq
    cases heq
    rw [hn]
    dsimp only
    cases hex4? e f g h with
    | none => rfl
    | some low => exact if_neg fun hpair => absurd hpair.1 (Nat.not_le.mpr hlow)
  · rename_i heq
    cases heq
    rw [hn]
  · rename_i hnot heq
    cases heq
    exact absurd rfl (hnot _ _ _ _ _ rfl)
  · rename_i hnot heq
    cases heq
    exact absurd rfl (hnot _ _ rfl)

theorem takeText?_escape {c e : Char} (he : escaped? c = some e) :
    takeText? controls ('\\' :: c :: rest) =
      (takeText? controls rest).map fun t => (e :: t.1, t.2) := by
  have hu : c ≠ 'u' := by
    rintro rfl
    cases he
  rw [takeText?.eq_def]
  split
  · rename_i heq
    cases heq
  · rename_i heq
    cases heq
  · rename_i heq
    cases heq
    exact absurd rfl hu
  · rename_i heq
    cases heq
    exact absurd rfl hu
  · rename_i heq
    cases heq
    rw [he]
  · rename_i hnot heq
    cases heq
    exact absurd rfl (hnot _ _ rfl)

theorem takeText?_plain {c : Char} (hquote : c ≠ '"') (hslash : c ≠ '\\') (hplain : 0x20 ≤ c.toNat) :
    takeText? controls (c :: rest) = (takeText? controls rest).map fun t => (c :: t.1, t.2) := by
  rw [takeText?.eq_def]
  split
  · rename_i heq
    cases heq
  · rename_i heq
    cases heq
    exact absurd rfl hquote
  · rename_i heq
    cases heq
    exact absurd rfl hslash
  · rename_i heq
    cases heq
    exact absurd rfl hslash
  · rename_i heq
    cases heq
    exact absurd rfl hslash
  · rename_i heq
    cases heq
    exact if_neg fun h => absurd h.1 (Nat.not_lt.mpr hplain)

theorem takeText?_escapedChar (c : Char) :
    takeText? controls ((escapedChar c).toList ++ rest) =
      (takeText? controls rest).map fun t => (c :: t.1, t.2) := by
  unfold escapedChar
  by_cases hquote : c = '"'
  · subst hquote
    exact takeText?_escape rfl
  rw [if_neg hquote]
  by_cases hslash : c = '\\'
  · subst hslash
    exact takeText?_escape rfl
  rw [if_neg hslash]
  by_cases hline : c = '\n'
  · subst hline
    exact takeText?_escape rfl
  rw [if_neg hline]
  by_cases hreturn : c = '\r'
  · subst hreturn
    exact takeText?_escape rfl
  rw [if_neg hreturn]
  by_cases htab : c = '\t'
  · subst htab
    exact takeText?_escape rfl
  rw [if_neg htab]
  by_cases hcontrol : c.toNat < 0x20
  · rw [if_pos hcontrol]
    have hdigits : ∀ n < 0x20, ("\\u" ++ Text.hexadecimal 4 n).toList =
        ['\\', 'u', '0', '0', Nat.digitChar (n / 16), Nat.digitChar (n % 16)] ∧
        hex4? '0' '0' (Nat.digitChar (n / 16)) (Nat.digitChar (n % 16)) = some n := by
      decide +kernel
    obtain ⟨htext, hn⟩ := hdigits c.toNat hcontrol
    rw [htext]
    change takeText? controls ('\\' :: 'u' :: _ :: _ :: _ :: _ :: rest) = _
    rw [takeText?_number hn (by omega), Char.ofNat_toNat]
  · rw [if_neg hcontrol, String.toList_ofList]
    exact takeText?_plain hquote hslash (Nat.not_lt.mp hcontrol)

theorem takeText?_quoted (s : String) (rest : List Char) :
    takeText? controls ((s.toList.flatMap fun c => (escapedChar c).toList) ++ '"' :: rest) =
      some (s.toList, rest) := by
  generalize s.toList = cs
  induction cs with
  | nil => rw [List.flatMap_nil, List.nil_append, takeText?]
  | cons c cs ih =>
      rw [List.flatMap_cons, List.append_assoc, takeText?_escapedChar, ih]
      rfl

theorem toList_quotedText (s : String) : (quotedText s).toList =
    '"' :: ((s.toList.flatMap fun c => (escapedChar c).toList) ++ ['"']) := by
  rw [quotedText, String.toList_append, String.toList_append, String.toList_join, List.flatMap_map]
  rfl

end Texts

end Tileboard.Json
