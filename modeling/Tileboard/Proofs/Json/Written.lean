import Tileboard.Proofs.Json.Quoted
import Tileboard.Proofs.Value.WellFormed

namespace Tileboard.Json

-- The characters with which no word and no number starts.
def marks : List Char := ['"', '[', '{', ']', '}', ' ', '\t', '\n', '\r']

-- What may stand behind a value.
def Delimited (rest : List Char) : Prop :=
  rest = [] ∨ ∃ c cs, rest = c :: cs ∧ c ∈ [',', ']', '}']

-- A word or a number that the dialect reads back as it is written.
structure Dialect.ReadsBack (dialect : Dialect) (v : Value) : Prop where
  start : ∃ c cs, (write v).toList = c :: cs ∧ c ∉ marks
  taken : ∀ rest, Delimited rest → dialect.scalar? ((write v).toList ++ rest) = some (v, rest)

-- Texts, words and numbers that the dialect reads back, and what is made of them.
inductive Dialect.Readable (dialect : Dialect) : Value → Prop
  | text (s : String) : Readable dialect (.text s)
  | scalar {v : Value} (h : dialect.ReadsBack v) : Readable dialect v
  | list {items : List Value} (h : ∀ v ∈ items, Readable dialect v) :
      Readable dialect (.list items)
  | object {fields : List (String × Value)} (hnames : (fields.map Prod.fst).Nodup)
      (h : ∀ field ∈ fields, Readable dialect field.2) : Readable dialect (.object fields)

section Values

variable {dialect : Dialect} {v : Value} {rest : List Char}

theorem skipBlanks_of_start {c : Char} {cs : List Char} (hc : c ∉ [' ', '\t', '\n', '\r']) :
    skipBlanks (c :: cs) = c :: cs := by
  have hblank : (c == ' ' || c == '\t' || c == '\n' || c == '\r') = false := by
    simpa [and_assoc] using hc
  rw [skipBlanks, List.dropWhile_cons_of_neg (by rw [hblank]; exact Bool.false_ne_true)]

-- A value starts with no blank and with no closing bracket.
theorem Dialect.Readable.start (h : dialect.Readable v) :
    ∃ c cs, (write v).toList = c :: cs ∧ c ∉ [']', '}', ' ', '\t', '\n', '\r'] := by
  cases h with
  | text s => exact ⟨_, _, toList_quotedText s, by decide⟩
  | scalar h =>
      obtain ⟨c, cs, htext, hc⟩ := h.start
      refine ⟨c, cs, htext, fun hmem => hc ?_⟩
      exact (by decide : [']', '}', ' ', '\t', '\n', '\r'] ⊆ marks) hmem
  | @list items h =>
      refine ⟨'[', (",".intercalate (writeItems items) ++ "]").toList, ?_, by decide⟩
      rw [write, String.append_assoc, String.toList_append]
      rfl
  | @object fields hnames h =>
      refine ⟨'{', (",".intercalate (writeFields fields) ++ "\x7d").toList, ?_, by decide⟩
      rw [write, String.append_assoc, String.toList_append]
      rfl

-- Reading back with enough fuel, whatever stands behind the value.
def Restored (dialect : Dialect) (v : Value) : Prop :=
  ∀ fuel rest, 2 * (write v).toList.length ≤ fuel → Delimited rest →
    takeValue? dialect fuel ((write v).toList ++ rest) = some (v, rest)

theorem takeValue?_text (s : String) (fuel : Nat) (rest : List Char) :
    takeValue? dialect (fuel + 1) ((quotedText s).toList ++ rest) = some (.text s, rest) := by
  rw [toList_quotedText, List.cons_append, List.append_assoc, List.singleton_append, takeValue?,
    takeText?_quoted]
  exact congrArg (fun t => some (Value.text t, rest)) String.ofList_toList

theorem takeValue?_scalar (h : dialect.ReadsBack v) (hrest : Delimited rest) (fuel : Nat) :
    takeValue? dialect (fuel + 1) ((write v).toList ++ rest) = some (v, rest) := by
  obtain ⟨c, cs, htext, hc⟩ := h.start
  rw [← h.taken rest hrest, htext, List.cons_append, takeValue?.eq_def]
  dsimp only
  split
  · rename_i heq
    cases heq
    exact absurd (by decide) hc
  · rename_i heq
    cases heq
    exact absurd (by decide) hc
  · rename_i heq
    cases heq
    exact absurd (by decide) hc
  · rfl

def commaChars (texts : List String) : List Char := (",".intercalate texts).toList

theorem commaChars_singleton (text : String) : commaChars [text] = text.toList := by
  rw [commaChars, String.intercalate_singleton]

theorem commaChars_cons_cons (first second : String) (texts : List String) :
    commaChars (first :: second :: texts) = first.toList ++ ',' :: commaChars (second :: texts) := by
  rw [commaChars, String.intercalate_cons_cons, String.append_assoc, String.toList_append,
    String.toList_append]
  rfl

theorem Dialect.Readable.items_start (h : dialect.Readable v) (items : List Value) :
    ∃ c cs, commaChars (writeItems (v :: items)) = c :: cs ∧
      c ∉ [']', '}', ' ', '\t', '\n', '\r'] := by
  obtain ⟨c, cs, htext, hc⟩ := h.start
  rw [writeItems]
  cases writeItems items with
  | nil => exact ⟨c, cs, by rw [commaChars_singleton, htext], hc⟩
  | cons text texts => exact ⟨c, _, by rw [commaChars_cons_cons, htext]; rfl, hc⟩

theorem Dialect.Readable.skipBlanks_items (h : dialect.Readable v) (items : List Value)
    (rest : List Char) : skipBlanks (commaChars (writeItems (v :: items)) ++ rest) =
      commaChars (writeItems (v :: items)) ++ rest := by
  obtain ⟨c, cs, hcs, hc⟩ := h.items_start items
  rw [hcs]
  exact skipBlanks_of_start fun hmem =>
    hc (List.mem_cons_of_mem _ (List.mem_cons_of_mem _ hmem))

-- Items with a comma between them and a bracket at the end. Induction on the items: each takes one
-- unit of fuel.
theorem takeItems?_written {items : List Value} (hne : items ≠ [])
    (h : ∀ v ∈ items, dialect.Readable v ∧ Restored dialect v) {fuel : Nat} (rest : List Char)
    (hfuel : 2 * (commaChars (writeItems items)).length < fuel) :
    takeItems? dialect fuel (commaChars (writeItems items) ++ ']' :: rest) = some (items, rest) := by
  induction items generalizing fuel with
  | nil => exact absurd rfl hne
  | cons v items ih =>
      obtain ⟨hv, hitems⟩ := List.forall_mem_cons.mp h
      cases fuel with
      | zero => omega
      | succ fuel =>
          cases items with
          | nil =>
              rw [writeItems, writeItems, commaChars_singleton] at hfuel ⊢
              have htake := hv.2 fuel (']' :: rest) (by omega) (.inr ⟨_, _, rfl, by decide⟩)
              rw [takeItems?, htake]
              rfl
          | cons w items =>
              have hchars : commaChars (writeItems (v :: w :: items)) =
                  (write v).toList ++ ',' :: commaChars (writeItems (w :: items)) :=
                commaChars_cons_cons _ _ _
              rw [hchars, List.length_append, List.length_cons] at hfuel
              have htake := hv.2 fuel (',' :: (commaChars (writeItems (w :: items)) ++ ']' :: rest))
                (by omega) (.inr ⟨_, _, rfl, by decide⟩)
              have hothers : takeItems? dialect fuel
                  (commaChars (writeItems (w :: items)) ++ ']' :: rest) = some (w :: items, rest) :=
                ih (List.cons_ne_nil _ _) hitems (by omega)
              have hblanks := (hitems w List.mem_cons_self).1.skipBlanks_items items (']' :: rest)
              rw [hchars, List.append_assoc, List.cons_append, takeItems?, htake]
              change (takeItems? dialect fuel (skipBlanks _)).map _ = _
              rw [hblanks, hothers]
              rfl

theorem Dialect.Readable.skipBlanks_write (h : dialect.Readable v) (rest : List Char) :
    skipBlanks ((write v).toList ++ rest) = (write v).toList ++ rest := by
  have hitems := h.skipBlanks_items [] rest
  rwa [writeItems, writeItems, commaChars_singleton] at hitems

def fieldChars (field : String × Value) : List Char :=
  (quotedText field.1).toList ++ ':' :: (write field.2).toList

theorem toList_field (field : String × Value) :
    (quotedText field.1 ++ ":" ++ write field.2).toList = fieldChars field := by
  rw [String.append_assoc, String.toList_append, String.toList_append]
  rfl

theorem fields_start (field : String × Value) (fields : List (String × Value)) :
    ∃ cs, commaChars (writeFields (field :: fields)) = '"' :: cs := by
  have hfield : ∃ cs, fieldChars field = '"' :: cs := by
    rw [fieldChars, toList_quotedText]
    exact ⟨_, rfl⟩
  obtain ⟨cs, hcs⟩ := hfield
  rw [writeFields]
  cases writeFields fields with
  | nil => exact ⟨cs, by rw [commaChars_singleton, toList_field, hcs]⟩
  | cons text texts => exact ⟨_, by rw [commaChars_cons_cons, toList_field, hcs]; rfl⟩

section Field

variable {field : String × Value} {fields : List (String × Value)} {fuel : Nat}

-- One field is taken and put behind those before it. It is the last one, or a comma and the name of
-- the next one follow.
theorem takeFields?_last (hreadable : dialect.Readable field.2) (h : Restored dialect field.2)
    (hname : field.1 ∉ fields.map Prod.fst) (hfuel : 2 * (write field.2).toList.length ≤ fuel) :
    takeFields? dialect (fuel + 1) fields (fieldChars field ++ '}' :: rest) =
      some (fields ++ [field], rest) := by
  have hcolon : skipBlanks (':' :: ((write field.2).toList ++ '}' :: rest)) =
      ':' :: ((write field.2).toList ++ '}' :: rest) := skipBlanks_of_start (by decide)
  have hclose : skipBlanks ('}' :: rest) = '}' :: rest := skipBlanks_of_start (by decide)
  have hvalue := h fuel ('}' :: rest) hfuel (.inr ⟨_, _, rfl, by decide⟩)
  rw [fieldChars, toList_quotedText, List.cons_append, List.cons_append, List.append_assoc,
    List.append_assoc, List.singleton_append, List.cons_append, takeFields?, takeText?_quoted]
  simp only [hcolon, hclose, hreadable.skipBlanks_write, hvalue, String.ofList_toList,
    Value.putField_of_notMem hname]

theorem takeFields?_next (hreadable : dialect.Readable field.2) (h : Restored dialect field.2)
    (hname : field.1 ∉ fields.map Prod.fst) (hfuel : 2 * (write field.2).toList.length ≤ fuel) :
    takeFields? dialect (fuel + 1) fields (fieldChars field ++ ',' :: '"' :: rest) =
      takeFields? dialect fuel (fields ++ [field]) ('"' :: rest) := by
  have hcolon : skipBlanks (':' :: ((write field.2).toList ++ ',' :: '"' :: rest)) =
      ':' :: ((write field.2).toList ++ ',' :: '"' :: rest) := skipBlanks_of_start (by decide)
  have hcomma : skipBlanks (',' :: '"' :: rest) = ',' :: '"' :: rest :=
    skipBlanks_of_start (by decide)
  have hquote : skipBlanks ('"' :: rest) = '"' :: rest := skipBlanks_of_start (by decide)
  have hvalue := h fuel (',' :: '"' :: rest) hfuel (.inr ⟨_, _, rfl, by decide⟩)
  rw [fieldChars, toList_quotedText, List.cons_append, List.cons_append, List.append_assoc,
    List.append_assoc, List.singleton_append, List.cons_append, takeFields?, takeText?_quoted]
  simp only [hcolon, hcomma, hquote, hreadable.skipBlanks_write, hvalue, String.ofList_toList,
    Value.putField_of_notMem hname]
  cases dialect.lastComma <;> rfl

end Field

-- The same for fields. Their names stay apart.
theorem takeFields?_written {fields : List (String × Value)} (hne : fields ≠ [])
    (h : ∀ field ∈ fields, dialect.Readable field.2 ∧ Restored dialect field.2)
    {before : List (String × Value)} (hnames : ((before ++ fields).map Prod.fst).Nodup) {fuel : Nat}
    (rest : List Char) (hfuel : 2 * (commaChars (writeFields fields)).length < fuel) :
    takeFields? dialect fuel before (commaChars (writeFields fields) ++ '}' :: rest) =
      some (before ++ fields, rest) := by
  induction fields generalizing before fuel with
  | nil => exact absurd rfl hne
  | cons field fields ih =>
      obtain ⟨hfield, hfields⟩ := List.forall_mem_cons.mp h
      have hname : field.1 ∉ before.map Prod.fst := by
        rw [List.map_append, List.map_cons, List.nodup_middle, List.nodup_cons] at hnames
        exact fun hmem => hnames.1 (List.mem_append_left _ hmem)
      have hlength : (write field.2).toList.length + 1 ≤ (fieldChars field).length := by
        rw [fieldChars, List.length_append, List.length_cons]
        omega
      cases fuel with
      | zero => omega
      | succ fuel =>
          cases fields with
          | nil =>
              have hchars : commaChars (writeFields [field]) = fieldChars field := by
                rw [writeFields, writeFields, commaChars_singleton, toList_field]
              rw [hchars] at hfuel ⊢
              exact takeFields?_last hfield.1 hfield.2 hname (by omega)
          | cons other fields =>
              have hchars : commaChars (writeFields (field :: other :: fields)) =
                  fieldChars field ++ ',' :: commaChars (writeFields (other :: fields)) := by
                rw [← toList_field]
                exact commaChars_cons_cons _ _ _
              rw [hchars, List.length_append, List.length_cons] at hfuel
              have hothers : takeFields? dialect fuel (before ++ [field])
                  (commaChars (writeFields (other :: fields)) ++ '}' :: rest) =
                    some (before ++ field :: other :: fields, rest) := by
                rw [ih (List.cons_ne_nil _ _) hfields (by simpa using hnames) (by omega)]
                simp
              obtain ⟨cs, hcs⟩ := fields_start other fields
              rw [hcs, List.cons_append] at hothers
              rw [hchars, List.append_assoc, List.cons_append, hcs, List.cons_append,
                takeFields?_next hfield.1 hfield.2 hname (by omega)]
              exact hothers

theorem restored_list {items : List Value}
    (h : ∀ v ∈ items, dialect.Readable v ∧ Restored dialect v) : Restored dialect (.list items) := by
  intro fuel rest hfuel _
  have htext : (write (.list items)).toList = '[' :: (commaChars (writeItems items) ++ [']']) := by
    rw [write, String.append_assoc, String.toList_append, String.toList_append]
    rfl
  rw [htext, List.length_cons, List.length_append, List.length_singleton] at hfuel
  rw [htext, List.cons_append, List.append_assoc, List.singleton_append]
  cases fuel with
  | zero => omega
  | succ fuel =>
      rw [takeValue?]
      cases items with
      | nil =>
          have hclose : skipBlanks (commaChars (writeItems []) ++ ']' :: rest) = ']' :: rest :=
            skipBlanks_of_start (by decide)
          simp only [hclose]
      | cons v items =>
          have hv := (h v List.mem_cons_self).1
          have hblanks := hv.skipBlanks_items items (']' :: rest)
          have htake : takeItems? dialect fuel
              (commaChars (writeItems (v :: items)) ++ ']' :: rest) = some (v :: items, rest) :=
            takeItems?_written (List.cons_ne_nil v items) h rest (by omega)
          obtain ⟨c, cs, hcs, hc⟩ := hv.items_start items
          rw [hcs, List.cons_append] at hblanks htake ⊢
          rw [hblanks]
          split
          · rename_i heq
            cases heq
            exact absurd List.mem_cons_self hc
          · rw [htake]
            rfl

theorem restored_object {fields : List (String × Value)} (hnames : (fields.map Prod.fst).Nodup)
    (h : ∀ field ∈ fields, dialect.Readable field.2 ∧ Restored dialect field.2) :
    Restored dialect (.object fields) := by
  intro fuel rest hfuel _
  have htext : (write (.object fields)).toList =
      '{' :: (commaChars (writeFields fields) ++ ['}']) := by
    rw [write, String.append_assoc, String.toList_append, String.toList_append]
    rfl
  rw [htext, List.length_cons, List.length_append, List.length_singleton] at hfuel
  rw [htext, List.cons_append, List.append_assoc, List.singleton_append]
  cases fuel with
  | zero => omega
  | succ fuel =>
      rw [takeValue?]
      cases fields with
      | nil =>
          have hclose : skipBlanks (commaChars (writeFields []) ++ '}' :: rest) = '}' :: rest :=
            skipBlanks_of_start (by decide)
          simp only [hclose]
      | cons field fields =>
          have htake : takeFields? dialect fuel []
              (commaChars (writeFields (field :: fields)) ++ '}' :: rest) =
                some (field :: fields, rest) :=
            takeFields?_written (List.cons_ne_nil field fields) h hnames rest (by omega)
          obtain ⟨cs, hcs⟩ := fields_start field fields
          rw [hcs, List.cons_append] at htake ⊢
          have hquote : skipBlanks ('"' :: (cs ++ '}' :: rest)) = '"' :: (cs ++ '}' :: rest) :=
            skipBlanks_of_start (by decide)
          rw [hquote]
          split
          · rename_i heq
            cases heq
          · rw [htake]
            rfl

theorem Dialect.Readable.restored (h : dialect.Readable v) : Restored dialect v := by
  induction h with
  | text s =>
      intro fuel rest hfuel _
      have hchars : (write (.text s)).toList = (quotedText s).toList := rfl
      rw [hchars] at hfuel ⊢
      rw [toList_quotedText, List.length_cons] at hfuel
      cases fuel with
      | zero => omega
      | succ fuel => exact takeValue?_text s fuel rest
  | @scalar v h =>
      intro fuel rest hfuel hrest
      obtain ⟨c, cs, htext, -⟩ := h.start
      rw [htext, List.length_cons] at hfuel
      cases fuel with
      | zero => omega
      | succ fuel => exact takeValue?_scalar h hrest fuel
  | list h ih => exact restored_list fun v hv => ⟨h v hv, ih v hv⟩
  | object hnames h ih => exact restored_object hnames fun field hfield =>
      ⟨h field hfield, ih field hfield⟩

-- A value is read back from its text.
theorem readAs?_write (h : dialect.Readable v) : readAs? dialect (write v) = some v := by
  have hblanks := h.skipBlanks_write []
  have htake := h.restored (2 * (write v).toList.length + 2) [] (by omega) (.inl rfl)
  rw [List.append_nil] at hblanks htake
  rw [readAs?, hblanks, htake]
  rfl

end Values

end Tileboard.Json
