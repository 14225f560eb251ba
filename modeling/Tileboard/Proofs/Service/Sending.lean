import Tileboard.Service.Response
import Mathlib.Data.List.Forall2

namespace Tileboard.Service.Response

-- One value stands for another key for key and item for item, with null in place of NaN and the
-- infinities.
inductive Verbatim : Value → Value → Prop
  | null : Verbatim .null .null
  | bool (b : Bool) : Verbatim (.bool b) (.bool b)
  | int (n : Int) : Verbatim (.number (.int n)) (.number (.int n))
  | finite {x : Binary64} (h : x.isFinite = true) :
      Verbatim (.number (.real x)) (.number (.real x))
  | notFinite {x : Binary64} (h : x.isFinite = false) : Verbatim (.number (.real x)) .null
  | text (s : String) : Verbatim (.text s) (.text s)
  | list {items others : List Value} (h : List.Forall₂ Verbatim items others) :
      Verbatim (.list items) (.list others)
  | object {fields others : List (String × Value)}
      (hnames : fields.map Prod.fst = others.map Prod.fst)
      (hvalues : List.Forall₂ Verbatim (fields.map Prod.snd) (others.map Prod.snd)) :
      Verbatim (.object fields) (.object others)

mutual

-- A value without its hidden fields, at every depth.
def shown : Value → Value
  | .list items => .list (shownItems items)
  | .object fields => .object (shownFields fields)
  | v => v

def shownItems : List Value → List Value
  | [] => []
  | v :: rest => shown v :: shownItems rest

def shownFields : List (String × Value) → List (String × Value)
  | [] => []
  | (name, v) :: rest =>
      if name.startsWith hiddenMark then shownFields rest else (name, shown v) :: shownFields rest

end

mutual

-- Whether no object in a value, at any depth, has a hidden field.
def isOpen : Value → Bool
  | .list items => itemsOpen items
  | .object fields => fieldsOpen fields
  | _ => true

def itemsOpen : List Value → Bool
  | [] => true
  | v :: rest => isOpen v && itemsOpen rest

def fieldsOpen : List (String × Value) → Bool
  | [] => true
  | (name, v) :: rest => !name.startsWith hiddenMark && isOpen v && fieldsOpen rest

end

theorem sentItems_eq_map (items : List Value) : sentItems items = items.map sent := by
  induction items with
  | nil => rfl
  | cons v rest ih => rw [sentItems, ih, List.map_cons]

theorem verbatim_real (x : Binary64) :
    Verbatim (.number (.real x)) (sent (.number (.real x))) := by
  rw [sent]
  cases hx : x.isFinite with
  | true => exact .finite hx
  | false => exact .notFinite hx

-- The cases follow the values: what is sent stands for what is shown, part by part.
mutual

theorem shown_verbatim_sent : ∀ v : Value, Verbatim (shown v) (sent v)
  | .null => .null
  | .bool b => .bool b
  | .number (.int n) => .int n
  | .number (.real x) => verbatim_real x
  | .text s => .text s
  | .list items => .list (shownItems_verbatim items)
  | .object fields => .object (shownFields_verbatim fields).1 (shownFields_verbatim fields).2

theorem shownItems_verbatim : ∀ items : List Value,
    List.Forall₂ Verbatim (shownItems items) (sentItems items)
  | [] => .nil
  | v :: rest => .cons (shown_verbatim_sent v) (shownItems_verbatim rest)

theorem shownFields_verbatim : ∀ fields : List (String × Value),
    (shownFields fields).map Prod.fst = (sentFields fields).map Prod.fst ∧
      List.Forall₂ Verbatim ((shownFields fields).map Prod.snd) ((sentFields fields).map Prod.snd)
  | [] => ⟨rfl, .nil⟩
  | (name, v) :: rest => by
      obtain ⟨hnames, hvalues⟩ := shownFields_verbatim rest
      rw [shownFields, sentFields]
      cases name.startsWith hiddenMark with
      | true => exact ⟨hnames, hvalues⟩
      | false =>
          exact ⟨congrArg (List.cons name) hnames, .cons (shown_verbatim_sent v) hvalues⟩

end

-- Where nothing is hidden all is shown.
mutual

theorem shown_of_open : ∀ {v : Value}, isOpen v = true → shown v = v
  | .null, _ | .bool _, _ | .number _, _ | .text _, _ => rfl
  | .list _, h => congrArg Value.list (shownItems_of_open h)
  | .object _, h => congrArg Value.object (shownFields_of_open h)

theorem shownItems_of_open : ∀ {items : List Value}, itemsOpen items = true →
    shownItems items = items
  | [], _ => rfl
  | v :: rest, h => by
      obtain ⟨hv, hrest⟩ := Bool.and_eq_true_iff.mp h
      rw [shownItems, shown_of_open hv, shownItems_of_open hrest]

theorem shownFields_of_open : ∀ {fields : List (String × Value)}, fieldsOpen fields = true →
    shownFields fields = fields
  | [], _ => rfl
  | (name, v) :: rest, h => by
      obtain ⟨hfirst, hrest⟩ := Bool.and_eq_true_iff.mp h
      obtain ⟨hname, hv⟩ := Bool.and_eq_true_iff.mp hfirst
      have hshown : name.startsWith hiddenMark = false := by simpa using hname
      rw [shownFields, hshown, shown_of_open hv, shownFields_of_open hrest]
      rfl

end

theorem length_sentFields_le (fields : List (String × Value)) :
    (sentFields fields).length ≤ fields.length := by
  induction fields with
  | nil => exact Nat.le_refl 0
  | cons field rest ih =>
      obtain ⟨name, v⟩ := field
      rw [sentFields]
      split
      · exact Nat.le_succ_of_le ih
      · exact Nat.succ_le_succ ih

-- Fields with a hidden one among them are more than those that are sent, so a value with such
-- fields does not stand for what is sent of it.
mutual

theorem open_of_verbatim : ∀ {v : Value}, Verbatim v (sent v) → isOpen v = true
  | .null, _ | .bool _, _ | .number _, _ | .text _, _ => rfl
  | .list items, h => by
      cases h with
      | list h => exact itemsOpen_of_verbatim h
  | .object fields, h => by
      cases h with
      | object hnames hvalues => exact fieldsOpen_of_verbatim hnames hvalues

theorem itemsOpen_of_verbatim : ∀ {items : List Value},
    List.Forall₂ Verbatim items (sentItems items) → itemsOpen items = true
  | [], _ => rfl
  | v :: rest, h => by
      rw [sentItems, List.forall₂_cons] at h
      rw [itemsOpen, open_of_verbatim h.1, itemsOpen_of_verbatim h.2]
      rfl

theorem fieldsOpen_of_verbatim : ∀ {fields : List (String × Value)},
    fields.map Prod.fst = (sentFields fields).map Prod.fst →
    List.Forall₂ Verbatim (fields.map Prod.snd) ((sentFields fields).map Prod.snd) →
      fieldsOpen fields = true
  | [], _, _ => rfl
  | (name, v) :: rest, hnames, hvalues => by
      cases hname : name.startsWith hiddenMark with
      | true =>
          have hlength := congrArg List.length hnames
          have hless := length_sentFields_le rest
          rw [sentFields, if_pos hname, List.length_map, List.length_map, List.length_cons]
            at hlength
          omega
      | false =>
          rw [sentFields, if_neg (by rw [hname]; exact Bool.false_ne_true)] at hnames hvalues
          rw [List.map_cons, List.map_cons] at hnames hvalues
          rw [List.forall₂_cons] at hvalues
          rw [fieldsOpen, hname, open_of_verbatim hvalues.1,
            fieldsOpen_of_verbatim (List.cons.inj hnames).2 hvalues.2]
          rfl

end

-- A value is sent verbatim just if nothing in it is hidden.
theorem sent_verbatim_iff {v : Value} : Verbatim v (sent v) ↔ isOpen v = true := by
  refine ⟨open_of_verbatim, fun h => ?_⟩
  have hsent := shown_verbatim_sent v
  rwa [shown_of_open h] at hsent

end Tileboard.Service.Response
