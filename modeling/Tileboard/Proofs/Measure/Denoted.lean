import Mathlib.Logic.Basic
import Tileboard.Proofs.Measure.Restriction

namespace Tileboard

namespace Measure

variable {cell row : Value} {name : String} {rows : List Value}

-- The number that a cell denotes: null zero, a number and the text of one the nearest binary64
-- number, if it is finite.
inductive Denotes : Value → Binary64 → Prop
  | missing : Denotes .null (Binary64.zero false)
  | whole {n : Int} (h : (Binary64.ofInt n).isFinite = true) :
      Denotes (.number (.int n)) (Binary64.ofInt n)
  | real {x : Binary64} (h : x.isFinite = true) : Denotes (.number (.real x)) x
  | text {s : String} {x : Binary64} (h : Numeral.binary64? s = some x)
      (hfinite : x.isFinite = true) : Denotes (.text s) x

-- A whole number past all binary64 numbers.
def TooLarge (cell : Value) : Prop :=
  ∃ n : Int, cell = .number (.int n) ∧ (Binary64.ofInt n).isFinite = false

-- The numbers in a column: one for each cell that denotes one, in the order of the rows. The other
-- cells are dropped.
inductive Kept (name : String) : List Value → List Binary64 → Prop
  | nil : Kept name [] []
  | number {row : Value} {rest : List Value} {x : Binary64} {xs : List Binary64}
      (h : Denotes (row.field name) x) (hrest : Kept name rest xs) : Kept name (row :: rest) (x :: xs)
  | dropped {row : Value} {rest : List Value} {xs : List Binary64}
      (h : ∀ x, ¬Denotes (row.field name) x) (hrest : Kept name rest xs) : Kept name (row :: rest) xs

theorem numberIn_tooLarge (h : TooLarge cell) : numberIn cell = .error .numberTooLarge := by
  obtain ⟨n, rfl, hn⟩ := h
  simp [numberIn, Number.toBinary64?, hn]

theorem numberIn_of_denotes {x : Binary64} (h : Denotes cell x) : numberIn cell = .ok (some x) := by
  cases h with
  | missing => rfl
  | whole h => simp [numberIn, Number.toBinary64?, h]
  | real h => simp [numberIn, Number.toBinary64?, h]
  | text h hfinite => simp [numberIn, h, hfinite]

theorem numberIn_of_not_denotes (hlarge : ¬TooLarge cell) (h : ∀ x, ¬Denotes cell x) :
    numberIn cell = .ok none := by
  cases cell with
  | null => exact absurd .missing (h _)
  | bool b => rfl
  | number n =>
      cases n with
      | int n =>
          cases hfinite : (Binary64.ofInt n).isFinite with
          | true => exact absurd (.whole hfinite) (h _)
          | false => exact absurd ⟨n, rfl, hfinite⟩ hlarge
      | real x =>
          cases hfinite : x.isFinite with
          | true => exact absurd (.real hfinite) (h _)
          | false => simp [numberIn, Number.toBinary64?, hfinite]
  | text s =>
      cases hread : Numeral.binary64? s with
      | none => simp [numberIn, hread]
      | some x =>
          cases hfinite : x.isFinite with
          | true => exact absurd (.text hread hfinite) (h _)
          | false => simp [numberIn, hread, hfinite]
  | list items => rfl
  | object fields => rfl

theorem exists_kept (name : String) (rows : List Value) : ∃ numbers, Kept name rows numbers := by
  induction rows with
  | nil => exact ⟨[], .nil⟩
  | cons row rest ih =>
      obtain ⟨numbers, hkept⟩ := ih
      by_cases h : ∃ x, Denotes (row.field name) x
      · obtain ⟨x, hx⟩ := h
        exact ⟨x :: numbers, .number hx hkept⟩
      · exact ⟨numbers, .dropped (not_exists.mp h) hkept⟩

def Bounded (name : String) (rows : List Value) : Prop :=
  ∀ row ∈ rows, ¬TooLarge (row.field name)

theorem numbersIn_of_kept {numbers : List Binary64} (h : Kept name rows numbers)
    (hrows : ∀ row ∈ rows, ∃ fields, row = .object fields) (hbounded : Bounded name rows) :
    numbersIn (.text name) rows = .ok numbers := by
  induction h with
  | nil => rfl
  | number h _ ih =>
      obtain ⟨hrecord, hrest⟩ := List.forall_mem_cons.mp hrows
      rw [numbersIn, Value.cell_of_record hrecord, ok_bind, numberIn_of_denotes h, ok_bind,
        ih hrest (List.forall_mem_cons.mp hbounded).2]
      rfl
  | dropped h _ ih =>
      obtain ⟨hrecord, hrest⟩ := List.forall_mem_cons.mp hrows
      obtain ⟨hrow, hbounded⟩ := List.forall_mem_cons.mp hbounded
      rw [numbersIn, Value.cell_of_record hrecord, ok_bind, numberIn_of_not_denotes hrow h, ok_bind,
        ih hrest hbounded]
      rfl

-- Induction on the rows: the first cell that is too large stops the reading.
theorem bounded_of_numbersIn {numbers : List Binary64}
    (h : numbersIn (.text name) rows = .ok numbers)
    (hrows : ∀ row ∈ rows, ∃ fields, row = .object fields) : Bounded name rows := by
  induction rows generalizing numbers with
  | nil => simp [Bounded]
  | cons row rest ih =>
      obtain ⟨hrecord, hrest⟩ := List.forall_mem_cons.mp hrows
      obtain ⟨cell, hcell, h⟩ := bind_eq_ok_iff.mp h
      obtain ⟨number, hnumber, h⟩ := bind_eq_ok_iff.mp h
      obtain ⟨others, hothers, -⟩ := bind_eq_ok_iff.mp h
      refine List.forall_mem_cons.mpr ⟨fun hlarge => ?_, ih hothers hrest⟩
      rw [Value.cell_of_record hrecord] at hcell
      cases hcell
      rw [numberIn_tooLarge hlarge] at hnumber
      cases hnumber

theorem kept_of_numbersIn {numbers : List Binary64} (h : numbersIn (.text name) rows = .ok numbers)
    (hrows : ∀ row ∈ rows, ∃ fields, row = .object fields) : Kept name rows numbers := by
  obtain ⟨found, hkept⟩ := exists_kept name rows
  cases (numbersIn_of_kept hkept hrows (bounded_of_numbersIn h hrows)).symm.trans h
  exact hkept

end Measure

end Tileboard
