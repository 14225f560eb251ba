import Tileboard.Proofs.Json.Written
import Tileboard.Proofs.Number.Digits
import Tileboard.Proofs.Source.Document

namespace Tileboard

namespace Json

theorem asciiDigit?_digitChar {d : Nat} (h : d < 10) : asciiDigit? (Nat.digitChar d) = some d := by
  have hall : ∀ d : Fin 10, asciiDigit? (Nat.digitChar d) = some d.val := by decide
  exact hall ⟨d, h⟩

theorem takeAsciiDigits_delimited {rest : List Char} (h : Delimited rest) :
    takeAsciiDigits rest = ([], rest) := by
  rcases h with rfl | ⟨c, cs, rfl, hc⟩
  · rfl
  · obtain rfl | rfl | rfl : c = ',' ∨ c = ']' ∨ c = '}' := by simpa using hc
    all_goals rfl

theorem takeAsciiDigits_digits {ds : List Nat} (hds : ∀ d ∈ ds, d < 10) {rest : List Char}
    (h : Delimited rest) : takeAsciiDigits (ds.map Nat.digitChar ++ rest) = (ds, rest) := by
  induction ds with
  | nil => exact takeAsciiDigits_delimited h
  | cons d ds ih =>
      have hd := asciiDigit?_digitChar (hds d List.mem_cons_self)
      rw [List.map_cons, List.cons_append, takeAsciiDigits, hd,
        ih fun x hx => hds x (List.mem_cons_of_mem _ hx)]

end Json

namespace Document

open Json (Delimited)

-- Digits that stay in the range do not wrap around. Induction on the digits: the numbers on the way
-- are no greater than the last.
theorem wholePart_of_le {negative : Bool} {n : Nat} {ds : List Nat}
    (h : ds.foldl (fun n d => n * 10 + d) n ≤
      if negative then int64Bound else uint64Bound - 1) :
    wholePart negative n ds = some (ds.foldl (fun n d => n * 10 + d) n) := by
  induction ds generalizing n with
  | nil => rfl
  | cons d ds ih =>
      rw [List.foldl_cons] at h ⊢
      have hnext := (le_foldl_digits (n * 10 + d) ds).trans h
      have hbounds : int64Bound < uint64Bound ∧ 0 < uint64Bound := by decide
      have hmod : (n * 10 + d) % uint64Bound = n * 10 + d :=
        Nat.mod_eq_of_lt (by split at hnext <;> omega)
      rw [wholePart, hmod]
      have hin : ¬ ((!negative && decide (n * 10 + d < n)) ||
          (negative && decide (int64Bound < n * 10 + d))) = true := by
        cases negative with
        | false => simp; omega
        | true => simpa using hnext
      rw [if_neg hin, ih h]

variable {rest : List Char}

theorem digitChar_ne_minus {d : Nat} (h : d < 10) : Nat.digitChar d ≠ '-' := by
  have hall : ∀ d : Fin 10, Nat.digitChar d ≠ '-' := by decide
  exact hall ⟨d, h⟩

-- A whole number that stays in the range, with a minus sign or without one.
theorem takeNumber?_digits {negative : Bool} {ds : List Nat} (hds : ∀ d ∈ ds, d < 10)
    (hne : ds ≠ [])
    (hvalue : Numeral.digitsValue ds ≤ if negative then int64Bound else uint64Bound - 1)
    (h : Delimited rest) :
    takeNumber? ((if negative then ['-'] else []) ++ (ds.map Nat.digitChar ++ rest)) =
      some (.int (if negative then -Numeral.digitsValue ds else Numeral.digitsValue ds), rest) := by
  have hwhole : wholePart negative 0 ds = some (Numeral.digitsValue ds) := wholePart_of_le hvalue
  have hdigits := Json.takeAsciiDigits_digits hds h
  unfold takeNumber?
  split
  rename_i minus unsigned hsign
  have hparts : negative = minus ∧ ds.map Nat.digitChar ++ rest = unsigned := by
    cases negative with
    | true => exact Prod.mk.inj hsign
    | false =>
        obtain ⟨d, others, rfl⟩ := List.exists_cons_of_ne_nil hne
        split at hsign
        · rename_i heq
          exact absurd (List.cons.inj heq).1 (digitChar_ne_minus (hds d List.mem_cons_self))
        · exact Prod.mk.inj hsign
  obtain ⟨rfl, rfl⟩ := hparts
  rw [hdigits]
  dsimp only
  rw [hwhole]
  rcases h with rfl | ⟨c, cs, rfl, hc⟩
  · rfl
  · obtain rfl | rfl | rfl : c = ',' ∨ c = ']' ∨ c = '}' := by simpa using hc
    all_goals rfl

-- A digit starts no word, with a minus sign or without one.
theorem takeScalar?_digits {negative : Bool} {d : Nat} (hd : d < 10) (cs : List Char) :
    takeScalar? ((if negative then ['-'] else []) ++ Nat.digitChar d :: cs) =
      takeNumber? ((if negative then ['-'] else []) ++ Nat.digitChar d :: cs) := by
  interval_cases d <;> cases negative <;> rfl

-- What a document gives back: null, truth values, and whole numbers of 64 bits.
theorem readsBack_null : dialect.ReadsBack .null where
  start := ⟨'n', _, rfl, by decide⟩
  taken _ _ := rfl

theorem readsBack_bool (b : Bool) : dialect.ReadsBack (.bool b) := by
  cases b with
  | true => exact ⟨⟨'t', _, rfl, by decide⟩, fun _ _ => rfl⟩
  | false => exact ⟨⟨'f', _, rfl, by decide⟩, fun _ _ => rfl⟩

theorem readsBack_int {n : Int} (h : -int64Bound ≤ n ∧ n < uint64Bound) :
    dialect.ReadsBack (.int n) := by
  obtain ⟨ds, hchars, hne, hdigits, hvalue⟩ := toList_int n
  have htext : (Json.write (.int n)).toList =
      (if decide (n < 0) then ['-'] else []) ++ ds.map Nat.digitChar := hchars
  have hrange : Numeral.digitsValue ds ≤
      if decide (n < 0) then int64Bound else uint64Bound - 1 := by
    have hbound : 0 < uint64Bound := by decide
    rw [hvalue]
    split <;> rename_i hsign <;> simp only [decide_eq_true_eq] at hsign <;> omega
  have hnumber : Value.int (if decide (n < 0) then -Numeral.digitsValue ds
      else Numeral.digitsValue ds) = .int n := by
    rw [hvalue]
    congr 1
    split <;> rename_i hsign <;> simp only [decide_eq_true_eq] at hsign <;> omega
  obtain ⟨d, others, rfl⟩ := List.exists_cons_of_ne_nil hne
  have hd := hdigits d List.mem_cons_self
  constructor
  · rw [htext, List.map_cons]
    have hmark : Nat.digitChar d ∉ Json.marks := by
      have hall : ∀ d : Fin 10, Nat.digitChar d ∉ Json.marks := by decide
      exact hall ⟨d, hd⟩
    cases decide (n < 0) with
    | true => exact ⟨'-', _, rfl, by decide⟩
    | false => exact ⟨_, _, rfl, hmark⟩
  · intro rest hrest
    rw [htext, List.append_assoc, List.map_cons, List.cons_append]
    change takeScalar? _ = _
    rw [takeScalar?_digits hd, ← hnumber]
    exact takeNumber?_digits hdigits hne hrange hrest

def isKept : Value → Bool
  | .null | .bool _ | .text _ => true
  | .number (.int n) => decide (-int64Bound ≤ n ∧ n < uint64Bound)
  | .number (.real _) | .list _ | .object _ => false

theorem readable_of_isKept {v : Value} (h : isKept v = true) : dialect.Readable v := by
  match v with
  | .null => exact .scalar readsBack_null
  | .bool b => exact .scalar (readsBack_bool b)
  | .text s => exact .text s
  | .number (.int n) => exact .scalar (readsBack_int (of_decide_eq_true h))
  | .number (.real _) | .list _ | .object _ => cases h

theorem read_written {rows : List (List (String × Value))}
    (hnames : ∀ fields ∈ rows, (fields.map Prod.fst).Nodup)
    (hcells : ∀ fields ∈ rows, ∀ field ∈ fields, isKept field.2 = true) :
    Json.readAs? dialect (Json.write (.list (rows.map .object))) =
      some (.list (rows.map .object)) := by
  refine Json.readAs?_write (.list fun v hv => ?_)
  obtain ⟨fields, hfields, rfl⟩ := List.mem_map.mp hv
  exact .object (hnames fields hfields) fun field hfield =>
    readable_of_isKept (hcells fields hfields field hfield)

end Document
end Tileboard
