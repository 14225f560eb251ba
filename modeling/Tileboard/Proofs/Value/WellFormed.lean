import Mathlib
import Tileboard.Json.Reader
import Tileboard.Proofs.Computation
import Tileboard.Record

namespace Tileboard

namespace Value

-- No object in the value, at any depth, has a name twice.
inductive WellFormed : Value → Prop
  | key {v : Value} (h : v.canBeKey = true) : WellFormed v
  | list {items : List Value} (h : ∀ v ∈ items, WellFormed v) : WellFormed (.list items)
  | object {fields : List (String × Value)} (hnames : (fields.map Prod.fst).Nodup)
      (h : ∀ field ∈ fields, WellFormed field.2) : WellFormed (.object fields)

variable {items : List Value} {fields : List (String × Value)} {v : Value}

@[simp] theorem wellFormed_null : WellFormed .null := .key rfl

@[simp] theorem wellFormed_bool (b : Bool) : WellFormed (.bool b) := .key rfl

@[simp] theorem wellFormed_number (n : Number) : WellFormed (.number n) := .key rfl

@[simp] theorem wellFormed_text (s : String) : WellFormed (.text s) := .key rfl

@[simp] theorem wellFormed_list_iff : WellFormed (.list items) ↔ ∀ v ∈ items, WellFormed v := by
  constructor
  · intro h
    cases h with
    | key h => cases h
    | list h => exact h
  · exact .list

@[simp] theorem wellFormed_object_iff : WellFormed (.object fields) ↔
    (fields.map Prod.fst).Nodup ∧ ∀ field ∈ fields, WellFormed field.2 := by
  constructor
  · intro h
    cases h with
    | key h => cases h
    | object hnames h => exact ⟨hnames, h⟩
  · rintro ⟨hnames, h⟩
    exact .object hnames h

theorem lookup_of_mem (hnames : (fields.map Prod.fst).Nodup) {name : String}
    (h : (name, v) ∈ fields) : fields.lookup name = some v := by
  obtain ⟨w, hw⟩ := exists_lookup_of_mem (List.mem_map_of_mem (f := Prod.fst) h)
  have heq : (name, w) = (name, v) := List.inj_on_of_nodup_map hnames (mem_of_lookup hw) h rfl
  rw [hw, (Prod.mk.inj heq).2]

theorem names_putField (fields : List (String × Value)) (name : String) (v : Value) :
    (putField fields name v).map Prod.fst =
      if name ∈ fields.map Prod.fst then fields.map Prod.fst else fields.map Prod.fst ++ [name] := by
  induction fields with
  | nil => simp [putField]
  | cons field rest ih =>
      obtain ⟨other, w⟩ := field
      rw [putField]
      by_cases hname : other = name
      · simp [hname]
      · rw [if_neg hname, List.map_cons, ih]
        by_cases hmem : name ∈ rest.map Prod.fst
        · simp [hmem]
        · simp [hmem, Ne.symm hname]

theorem putField_of_notMem {name : String} (h : name ∉ fields.map Prod.fst) (v : Value) :
    putField fields name v = fields ++ [(name, v)] := by
  induction fields with
  | nil => rfl
  | cons field rest ih =>
      rw [List.map_cons, List.mem_cons, not_or] at h
      rw [putField, if_neg (Ne.symm h.1), ih h.2, List.cons_append]

theorem mem_putField {name : String} {field : String × Value}
    (h : field ∈ putField fields name v) : field = (name, v) ∨ field ∈ fields := by
  induction fields with
  | nil => exact .inl (List.mem_singleton.mp h)
  | cons first rest ih =>
      obtain ⟨other, w⟩ := first
      rw [putField] at h
      by_cases hname : other = name
      · rw [if_pos hname] at h
        exact (List.mem_cons.mp h).imp_right (List.mem_cons_of_mem _)
      · rw [if_neg hname] at h
        rcases List.mem_cons.mp h with rfl | h
        · exact .inr List.mem_cons_self
        · exact (ih h).imp_right (List.mem_cons_of_mem _)

theorem WellFormed.putField (h : WellFormed (.object fields)) (hv : WellFormed v) (name : String) :
    WellFormed (.object (putField fields name v)) := by
  obtain ⟨hnames, hfields⟩ := wellFormed_object_iff.mp h
  refine .object ?_ fun field hfield => ?_
  · rw [names_putField]
    by_cases hmem : name ∈ fields.map Prod.fst
    · rw [if_pos hmem]
      exact hnames
    · rw [if_neg hmem]
      rw [← List.concat_eq_append]
      exact hnames.concat hmem
  · rcases mem_putField hfield with rfl | hfield
    · exact hv
    · exact hfields field hfield

end Value

namespace Json

open Value (WellFormed wellFormed_object_iff)

-- A dialect whose words and numbers are neither lists nor objects.
def Dialect.Plain (dialect : Dialect) : Prop :=
  ∀ cs v rest, dialect.scalar? cs = some (v, rest) → v.canBeKey = true

-- What is taken from a text with so much fuel is well-formed. The fields taken so far make an
-- object without a name twice, and go on to do so.
structure TakesWellFormed (dialect : Dialect) (fuel : Nat) : Prop where
  value : ∀ cs v rest, takeValue? dialect fuel cs = some (v, rest) → WellFormed v
  items : ∀ cs items rest, takeItems? dialect fuel cs = some (items, rest) →
    ∀ v ∈ items, WellFormed v
  fields : ∀ cs fields more rest, WellFormed (.object fields) →
    takeFields? dialect fuel fields cs = some (more, rest) → WellFormed (.object more)

section Steps

variable {dialect : Dialect} {fuel : Nat} {cs rest : List Char}

theorem takeValue?_wellFormed (hplain : dialect.Plain) (ih : TakesWellFormed dialect fuel) {v : Value}
    (h : takeValue? dialect (fuel + 1) cs = some (v, rest)) : WellFormed v := by
  unfold takeValue? at h
  split at h
  · obtain ⟨text, -, heq⟩ := Option.map_eq_some_iff.mp h
    cases heq
    exact .key rfl
  · split at h
    · cases h
      exact .list (by simp)
    · obtain ⟨⟨items, after⟩, htake, heq⟩ := Option.map_eq_some_iff.mp h
      cases heq
      exact .list (ih.items _ _ _ htake)
  · have hempty : WellFormed (.object []) := .object (by simp) (by simp)
    split at h
    · cases h
      exact hempty
    · obtain ⟨⟨fields, after⟩, htake, heq⟩ := Option.map_eq_some_iff.mp h
      cases heq
      exact ih.fields _ _ _ _ hempty htake
  · exact .key (hplain _ _ _ h)

theorem takeItems?_wellFormed (ih : TakesWellFormed dialect fuel) {items : List Value}
    (h : takeItems? dialect (fuel + 1) cs = some (items, rest)) : ∀ v ∈ items, WellFormed v := by
  unfold takeItems? at h
  split at h
  · cases h
  · rename_i v after htake
    have hfirst : WellFormed v := ih.value _ _ _ htake
    split at h
    · cases h
      simpa using hfirst
    · obtain ⟨⟨others, last⟩, hothers, heq⟩ := Option.map_eq_some_iff.mp h
      cases heq
      exact List.forall_mem_cons.mpr ⟨hfirst, ih.items _ _ _ hothers⟩
    · cases h

theorem takeFields?_wellFormed (ih : TakesWellFormed dialect fuel)
    {fields more : List (String × Value)} (hwell : WellFormed (.object fields))
    (h : takeFields? dialect (fuel + 1) fields cs = some (more, rest)) :
    WellFormed (.object more) := by
  unfold takeFields? at h
  -- Only a name, a colon and a value let the reading go on: all other cases end it.
  split at h <;> try cases h
  split at h <;> try cases h
  split at h <;> try cases h
  split at h <;> try cases h
  rename_i v after htake
  have hput := hwell.putField (ih.value _ _ _ htake)
  dsimp only at h
  split at h
  · cases h
    exact hput _
  · split at h
    · cases h
      exact hput _
    · exact ih.fields _ _ _ _ (hput _) h
  · cases h

end Steps

theorem takesWellFormed {dialect : Dialect} (hplain : dialect.Plain) (fuel : Nat) :
    TakesWellFormed dialect fuel := by
  induction fuel with
  | zero => constructor <;> simp [takeValue?, takeItems?, takeFields?]
  | succ fuel ih =>
      constructor
      · exact fun cs v rest h => takeValue?_wellFormed hplain ih h
      · exact fun cs items rest h => takeItems?_wellFormed ih h
      · exact fun cs fields more rest hwell h => takeFields?_wellFormed ih hwell h

theorem readAs?_wellFormed {dialect : Dialect} (hplain : dialect.Plain) {s : String} {v : Value}
    (h : readAs? dialect s = some v) : WellFormed v := by
  unfold readAs? at h
  dsimp only at h
  split at h
  · rename_i w rest htake
    have hw : WellFormed w := (takesWellFormed hplain _).value _ _ _ htake
    split at h
    · cases h
      exact hw
    · cases h
  · cases h

end Json

end Tileboard
