import Tileboard.Instant.Basic
import Tileboard.Number.Numeral
import Mathlib.Data.List.Induction

namespace Tileboard

open Numeral (takeDigits digitsValue)

theorem tenTo_succ (n : Nat) : tenTo (n + 1) = tenTo n * 10 := rfl

theorem tenTo_add (m n : Nat) : tenTo (m + n) = tenTo m * tenTo n := Nat.pow_add 10 m n

theorem tenTo_pos (n : Nat) : 0 < tenTo n := Nat.pow_pos (by decide)

-- The last digits of a number, the first of them leading.
def lastDigits : Nat → Nat → List Nat
  | 0, _ => []
  | width + 1, n => lastDigits width (n / 10) ++ [n % 10]

theorem length_lastDigits (width n : Nat) : (lastDigits width n).length = width := by
  induction width generalizing n with
  | zero => rfl
  | succ width ih => simp [lastDigits, ih]

theorem lt_ten_of_mem_lastDigits {width n d : Nat} (h : d ∈ lastDigits width n) : d < 10 := by
  induction width generalizing n with
  | zero => cases h
  | succ width ih =>
      rcases List.mem_append.mp h with h | h
      · exact ih h
      · rw [List.mem_singleton.mp h]
        exact Nat.mod_lt n (by decide)

theorem lastDigits_zero (width : Nat) : lastDigits width 0 = List.replicate width 0 := by
  induction width with
  | zero => rfl
  | succ width ih =>
      change lastDigits width 0 ++ [0] = _
      rw [ih, List.replicate_succ']

def digitChars (width n : Nat) : List Char := (lastDigits width n).map Nat.digitChar

theorem length_digitChars (width n : Nat) : (digitChars width n).length = width := by
  rw [digitChars, List.length_map, length_lastDigits]

theorem digitChars_succ (width n : Nat) :
    digitChars (width + 1) n = digitChars width (n / 10) ++ [Nat.digitChar (n % 10)] := by
  simp [digitChars, lastDigits]

-- Induction on the width: the last digit comes off the end.
theorem toList_padded {width n : Nat} (hwidth : 0 < width) (h : n < tenTo width) :
    (padded width n).toList = digitChars width n := by
  induction width generalizing n with
  | zero => omega
  | succ width ih =>
      simp only [padded, String.toList_ofList] at ih ⊢
      rw [digitChars_succ, Nat.toDigits_eq_if (by decide)]
      by_cases hn : n < 10
      · have hzero : n / 10 = 0 := Nat.div_eq_of_lt hn
        rw [if_pos hn, Nat.mod_eq_of_lt hn, hzero, digitChars, lastDigits_zero]
        simp [Nat.digitChar]
      · have hwidth : 0 < width := by
          rcases width with _ | width
          · have : tenTo (0 + 1) = 10 := rfl
            omega
          · omega
        have hlt : n / 10 < tenTo width := by
          rw [tenTo_succ] at h
          omega
        rw [if_neg hn, ← ih hwidth hlt, List.append_assoc]
        simp

-- The numbers on the way to that of all digits are no greater.
theorem le_foldl_digits (n : Nat) (ds : List Nat) :
    n ≤ ds.foldl (fun n d => n * 10 + d) n := by
  induction ds generalizing n with
  | nil => exact Nat.le_refl n
  | cons d ds ih =>
      have := ih (n * 10 + d)
      rw [List.foldl_cons]
      omega

theorem digitsValue_append_singleton (ds : List Nat) (d : Nat) :
    digitsValue (ds ++ [d]) = digitsValue ds * 10 + d := by
  simp [digitsValue, List.foldl_append]

theorem digitsValue_lastDigits {width n : Nat} (h : n < tenTo width) :
    digitsValue (lastDigits width n) = n := by
  induction width generalizing n with
  | zero =>
      have : tenTo 0 = 1 := rfl
      have hn : n = 0 := by omega
      rw [hn]
      rfl
  | succ width ih =>
      rw [tenTo_succ] at h
      rw [lastDigits, digitsValue_append_singleton, ih (by omega)]
      omega

theorem digitsValue_lt {ds : List Nat} (h : ∀ d ∈ ds, d < 10) :
    digitsValue ds < tenTo ds.length := by
  induction ds using List.reverseRecOn with
  | nil => decide
  | append_singleton ds d ih =>
      have hd : d < 10 := h d (by simp)
      have hds := ih fun x hx => h x (by simp [hx])
      rw [digitsValue_append_singleton, List.length_append, List.length_singleton, tenTo_succ]
      omega

-- What is written of a number are decimal digits that come to it. Induction on the number: the last
-- digit comes off the end.
theorem exists_digits (n : Nat) : ∃ ds, Nat.toDigits 10 n = ds.map Nat.digitChar ∧ ds ≠ [] ∧
    (∀ d ∈ ds, d < 10) ∧ Numeral.digitsValue ds = n := by
  induction n using Nat.strongRecOn with
  | ind n ih =>
      rw [Nat.toDigits_eq_if (by decide)]
      by_cases hn : n < 10
      · rw [if_pos hn]
        refine ⟨[n], rfl, List.cons_ne_nil _ _, by simpa using hn, ?_⟩
        simp [Numeral.digitsValue]
      · rw [if_neg hn]
        obtain ⟨ds, hchars, -, hdigits, hvalue⟩ := ih (n / 10) (by omega)
        have hlast : n % 10 < 10 := Nat.mod_lt n (by decide)
        refine ⟨ds ++ [n % 10], by rw [hchars, List.map_append]; rfl, by simp, ?_, ?_⟩
        · intro d hd
          rcases List.mem_append.mp hd with hd | hd
          · exact hdigits d hd
          · rwa [List.mem_singleton.mp hd]
        · rw [digitsValue_append_singleton, hvalue]
          omega

theorem toList_int (n : Int) : ∃ ds, (toString n).toList =
    (if decide (n < 0) then ['-'] else []) ++ ds.map Nat.digitChar ∧ ds ≠ [] ∧
      (∀ d ∈ ds, d < 10) ∧ Numeral.digitsValue ds = n.natAbs := by
  obtain ⟨ds, hchars, hne, hdigits, hvalue⟩ := exists_digits n.natAbs
  refine ⟨ds, ?_, hne, hdigits, hvalue⟩
  rw [← hchars]
  cases n with
  | ofNat k => exact String.toList_ofList
  | negSucc k =>
      change ("-" ++ String.ofList (Nat.toDigits 10 (k + 1))).toList = _
      rw [String.toList_append, if_pos (decide_eq_true (Int.negSucc_lt_zero k))]
      exact congrArg (['-'] ++ ·) String.toList_ofList

namespace Text

theorem digitValue?_digitChar {d : Nat} (h : d < 10) : digitValue? (Nat.digitChar d) = some d := by
  have hall : ∀ d : Fin 10, digitValue? (Nat.digitChar d) = some d.val := by decide
  exact hall ⟨d, h⟩

theorem lt_ten_of_digitValue? {c : Char} {d : Nat} (h : digitValue? c = some d) : d < 10 := by
  obtain ⟨start, hstart, rfl⟩ := Option.map_eq_some_iff.mp h
  have hrange := List.find?_some hstart
  simp only [Bool.and_eq_true, decide_eq_true_eq] at hrange
  omega

end Text

namespace Numeral

theorem takeDigits_cons_digit {c : Char} {d : Nat} (h : Text.digitValue? c = some d)
    (cs : List Char) : takeDigits (c :: cs) = (d :: (takeDigits cs).1, (takeDigits cs).2) := by
  rw [takeDigits, h]

theorem takeDigits_cons_other {c : Char} (h : Text.digitValue? c = none) (cs : List Char) :
    takeDigits (c :: cs) = ([], c :: cs) := by
  rw [takeDigits, h]

theorem takeDigits_append {ds : List Nat} (h : ∀ d ∈ ds, d < 10) (rest : List Char) :
    takeDigits (ds.map Nat.digitChar ++ rest) =
      (ds ++ (takeDigits rest).1, (takeDigits rest).2) := by
  induction ds with
  | nil => rfl
  | cons d ds ih =>
      have hd := Text.digitValue?_digitChar (h d List.mem_cons_self)
      have hrest := ih fun x hx => h x (List.mem_cons_of_mem _ hx)
      rw [List.map_cons, List.cons_append, takeDigits_cons_digit hd, hrest]
      rfl

theorem takeDigits_digitChars (width n : Nat) (rest : List Char) :
    takeDigits (digitChars width n ++ rest) =
      (lastDigits width n ++ (takeDigits rest).1, (takeDigits rest).2) :=
  takeDigits_append (fun _ h => lt_ten_of_mem_lastDigits h) rest

theorem takeDigits_of_none {cs : List Char} (h : (takeDigits cs).1 = []) :
    takeDigits cs = ([], cs) := by
  cases cs with
  | nil => rfl
  | cons c cs =>
      cases hc : Text.digitValue? c with
      | none => exact takeDigits_cons_other hc cs
      | some d =>
          rw [takeDigits_cons_digit hc] at h
          cases h

theorem lt_ten_of_mem_takeDigits {cs : List Char} {d : Nat} (h : d ∈ (takeDigits cs).1) :
    d < 10 := by
  induction cs with
  | nil => cases h
  | cons c cs ih =>
      cases hc : Text.digitValue? c with
      | none =>
          rw [takeDigits_cons_other hc] at h
          cases h
      | some e =>
          rw [takeDigits_cons_digit hc] at h
          rcases List.mem_cons.mp h with rfl | h
          · exact Text.lt_ten_of_digitValue? hc
          · exact ih h

theorem takeDigits_suffix (cs : List Char) : (takeDigits cs).2 <:+ cs := by
  induction cs with
  | nil => exact List.suffix_refl []
  | cons c cs ih =>
      cases hc : Text.digitValue? c with
      | none => exact ⟨[], by simp [takeDigits_cons_other hc]⟩
      | some d =>
          rw [takeDigits_cons_digit hc]
          exact ih.trans (List.suffix_cons c cs)

end Numeral

theorem digitChar_lt_iff {a b : Nat} (ha : a < 10) (hb : b < 10) :
    Nat.digitChar a < Nat.digitChar b ↔ a < b := by
  have hall : ∀ a b : Fin 10, Nat.digitChar a < Nat.digitChar b ↔ a.val < b.val := by decide
  exact hall ⟨a, ha⟩ ⟨b, hb⟩

theorem digitChar_inj {a b : Nat} (ha : a < 10) (hb : b < 10) :
    Nat.digitChar a = Nat.digitChar b ↔ a = b := by
  have hall : ∀ a b : Fin 10, Nat.digitChar a = Nat.digitChar b ↔ a.val = b.val := by decide
  exact hall ⟨a, ha⟩ ⟨b, hb⟩

-- Numbers of one width are ordered as their digits are, whatever stands behind them.
theorem digitChars_append_lt_iff {width m n : Nat} (hm : m < tenTo width) (hn : n < tenTo width)
    (xs ys : List Char) :
    digitChars width m ++ xs < digitChars width n ++ ys ↔ m < n ∨ m = n ∧ xs < ys := by
  induction width generalizing m n xs ys with
  | zero =>
      have : tenTo 0 = 1 := rfl
      have hzero : m = 0 ∧ n = 0 := by omega
      simp [digitChars, lastDigits, hzero]
  | succ width ih =>
      rw [tenTo_succ] at hm hn
      have hlast := digitChar_lt_iff (Nat.mod_lt m (by decide)) (Nat.mod_lt n (by decide))
      have hsame := digitChar_inj (Nat.mod_lt m (by decide)) (Nat.mod_lt n (by decide))
      rw [digitChars_succ, digitChars_succ, List.append_assoc, List.append_assoc,
        ih (by omega) (by omega), List.singleton_append, List.singleton_append,
        List.cons_lt_cons_iff, hlast, hsame]
      constructor
      · rintro (h | ⟨h, h' | ⟨h', hxs⟩⟩)
        · exact .inl (by omega)
        · exact .inl (by omega)
        · exact .inr ⟨by omega, hxs⟩
      · rintro (h | ⟨rfl, hxs⟩)
        · by_cases hdiv : m / 10 < n / 10
          · exact .inl hdiv
          · exact .inr ⟨by omega, .inl (by omega)⟩
        · exact .inr ⟨rfl, .inr ⟨rfl, hxs⟩⟩

end Tileboard
