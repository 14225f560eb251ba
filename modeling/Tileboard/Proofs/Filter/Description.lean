import Mathlib
import Tileboard.Filter.Basic
import Tileboard.Proofs.Computation

namespace Tileboard.Filter

-- The group that an object describes, with its body: the first of the group names that is there.
def groupIn (fields : List (String × Value)) : Option (String × Value) :=
  groupNames.findSome? fun name => (fields.lookup name).map fun body => (name, body)

def partsOf (group : String) (body : Value) : Except Fault (List Filter) :=
  match body with
  | .null => .ok []
  | .list parts => ofValues parts
  | other => .error (.notAFilterList group other)

def joined (group : String) : List Filter → Filter := if group = "and" then .all else .any

theorem mem_groupNames {name : String} : name ∈ groupNames ↔ name = "and" ∨ name = "or" := by
  simp [groupNames]

section Reading

variable {fields : List (String × Value)} {group : String} {body v : Value} {items : List Value}

theorem groupBody_eq (group : String) (fields : List (String × Value)) :
    groupBody group fields = (fields.lookup group).map (partsOf group) := by
  induction fields with
  | nil => rfl
  | cons field rest ih =>
      obtain ⟨name, body⟩ := field
      rw [List.lookup_cons]
      by_cases hname : name = group
      · subst hname
        cases body <;> simp [groupBody, partsOf]
      · have hbeq : (group == name) = false := by simpa using Ne.symm hname
        cases body <;> simp [groupBody, hname, hbeq, ih]

theorem ofValue_object (fields : List (String × Value)) : ofValue (.object fields) =
    match groupIn fields with
    | some (group, body) => (partsOf group body).map (joined group)
    | none => .ok (leafOf fields) := by
  rw [ofValue, groupBody_eq, groupBody_eq]
  cases hand : fields.lookup "and" with
  | some body => simp [groupIn, groupNames, hand, joined]
  | none =>
      cases hor : fields.lookup "or" with
      | some body => simp [groupIn, groupNames, hand, hor, joined]
      | none => simp [groupIn, groupNames, hand, hor]

theorem ofValue_leaf (h : groupIn fields = none) :
    ofValue (.object fields) = .ok (leafOf fields) := by
  rw [ofValue_object, h]

theorem ofValue_group (h : groupIn fields = some (group, body)) :
    ofValue (.object fields) = (partsOf group body).map (joined group) := by
  rw [ofValue_object, h]

theorem ofValue_empty (h : groupIn fields = some (group, .null)) :
    ofValue (.object fields) = .ok (joined group []) := by
  rw [ofValue_group h]
  rfl

theorem ofValue_body (h : groupIn fields = some (group, body)) (hnull : body ≠ .null)
    (hlist : ∀ items, body ≠ .list items) :
    ofValue (.object fields) = .error (.notAFilterList group body) := by
  rw [ofValue_group h]
  cases body with
  | null => exact absurd rfl hnull
  | list items => exact absurd rfl (hlist items)
  | _ => rfl

theorem ofValue_other (h : ∀ fields, v ≠ .object fields) : ofValue v = .error (.notAFilter v) := by
  cases v with
  | object fields => exact absurd rfl (h fields)
  | _ => rfl

theorem groupIn_eq_some (h : groupIn fields = some (group, body)) :
    group ∈ groupNames ∧ (group, body) ∈ fields := by
  obtain ⟨name, hname, h⟩ := List.exists_of_findSome?_eq_some h
  obtain ⟨found, hfound, h⟩ := Option.map_eq_some_iff.mp h
  cases h
  exact ⟨hname, mem_of_lookup hfound⟩

-- Induction on what an object is read as: a group takes for granted what is to be shown of its
-- items.
@[elab_as_elim]
theorem description_induction {P : Value → Prop}
    (leaf : ∀ fields, groupIn fields = none → P (.object fields))
    (empty : ∀ fields group, groupIn fields = some (group, .null) → P (.object fields))
    (group : ∀ fields group items, groupIn fields = some (group, .list items) →
      (∀ item ∈ items, P item) → P (.object fields))
    (body : ∀ fields group body, groupIn fields = some (group, body) → body ≠ .null →
      (∀ items, body ≠ .list items) → P (.object fields))
    (other : ∀ v, (∀ fields, v ≠ .object fields) → P v) (v : Value) : P v := by
  induction hsize : sizeOf v using Nat.strongRecOn generalizing v with
  | ind n ih =>
      cases v with
      | object fields =>
          cases hgroup : groupIn fields with
          | none => exact leaf fields hgroup
          | some found =>
              obtain ⟨name, found⟩ := found
              cases found with
              | null => exact empty fields name hgroup
              | list items =>
                  refine group fields name items hgroup fun item hitem => ih _ ?_ item rfl
                  have hfield := List.sizeOf_lt_of_mem (groupIn_eq_some hgroup).2
                  have hitem := List.sizeOf_lt_of_mem hitem
                  subst hsize
                  simp only [Value.object.sizeOf_spec, Prod.mk.sizeOf_spec,
                    Value.list.sizeOf_spec] at hfield ⊢
                  omega
              | _ => exact body fields name _ hgroup (by simp) (by simp)
      | _ => exact other _ (by simp)

theorem ofValues_eq_mapM (items : List Value) : ofValues items = items.mapM ofValue := by
  induction items with
  | nil => rfl
  | cons item rest ih => rw [ofValues, ih, List.mapM_cons]

theorem ofValue_list (h : groupIn fields = some (group, .list items)) :
    ofValue (.object fields) = (items.mapM ofValue).map (joined group) := by
  rw [ofValue_group h, partsOf, ofValues_eq_mapM]

end Reading

-- What describes a filter: an object without a group, whatever its fields hold, or with a group
-- that has no items or items that all describe filters.
inductive Described : Value → Prop
  | leaf {fields : List (String × Value)} (h : groupIn fields = none) : Described (.object fields)
  | empty {fields : List (String × Value)} {group : String}
      (h : groupIn fields = some (group, .null)) : Described (.object fields)
  | group {fields : List (String × Value)} {group : String} {items : List Value}
      (h : groupIn fields = some (group, .list items)) (hitems : ∀ item ∈ items, Described item) :
      Described (.object fields)

-- A place at which something else stands than a description needs: the way to it through the items
-- of groups, and the fault, which has what stands there.
inductive Offence : Value → List Nat → Fault → Prop
  | filter {v : Value} (h : ∀ fields, v ≠ .object fields) : Offence v [] (.notAFilter v)
  | body {fields : List (String × Value)} {group : String} {body : Value}
      (h : groupIn fields = some (group, body)) (hnull : body ≠ .null)
      (hlist : ∀ items, body ≠ .list items) :
      Offence (.object fields) [] (.notAFilterList group body)
  | item {fields : List (String × Value)} {group : String} {items : List Value} {i : Nat}
      {item : Value} {place : List Nat} {e : Fault} (h : groupIn fields = some (group, .list items))
      (hitem : items[i]? = some item) (hoffence : Offence item place e) :
      Offence (.object fields) (i :: place) e

-- The offence that comes before all others, the items of a group being gone through in their
-- order and each of them to its end.
def FirstOffence (v : Value) (place : List Nat) (e : Fault) : Prop :=
  Offence v place e ∧ ∀ other e', Offence v other e' → ¬other < place

-- A fault is told as one of the description, with the kind of what stands at its place.
def Told (e : Fault) : Prop :=
  e.kind = "FilterError" ∧
    ((∃ found, e = .notAFilter found ∧
        e.message? = some ("filter must be a mapping, got " ++ found.kindName)) ∨
      ∃ group ∈ groupNames, ∃ found, e = .notAFilterList group found ∧
        e.message? = some ("'" ++ group ++ "' expects a list of filters, got " ++ found.kindName))

section Faults

variable {v body : Value} {fields : List (String × Value)} {group : String} {items : List Value}
  {place : List Nat} {e : Fault}

theorem Described.reads (h : Described v) : ∃ f, ofValue v = .ok f := by
  induction h with
  | leaf h => exact ⟨_, ofValue_leaf h⟩
  | empty h => exact ⟨_, ofValue_empty h⟩
  | group h _ ih =>
      obtain ⟨fs, hfs⟩ := mapM_succeeds_iff.mpr ih
      exact ⟨_, by rw [ofValue_list h, hfs]; rfl⟩

theorem described_of_reads (h : ∃ f, ofValue v = .ok f) : Described v := by
  obtain ⟨f, h⟩ := h
  induction v using description_induction generalizing f with
  | leaf fields hgroup => exact .leaf hgroup
  | empty fields group hgroup => exact .empty hgroup
  | group fields group items hgroup ih =>
      rw [ofValue_list hgroup] at h
      obtain ⟨fs, hfs, -⟩ := map_eq_ok_iff.mp h
      refine .group hgroup fun item hitem => ?_
      obtain ⟨g, hg⟩ := mapM_succeeds_iff.mp ⟨fs, hfs⟩ item hitem
      exact ih item hitem g hg
  | body fields group body hgroup hnull hlist =>
      rw [ofValue_body hgroup hnull hlist] at h
      cases h
  | other v hother =>
      rw [ofValue_other hother] at h
      cases h

theorem offence_other_iff (h : ∀ fields, v ≠ .object fields) :
    Offence v place e ↔ place = [] ∧ e = .notAFilter v := by
  constructor
  · intro hoffence
    cases hoffence with
    | filter => exact ⟨rfl, rfl⟩
    | body => exact absurd rfl (h _)
    | item => exact absurd rfl (h _)
  · rintro ⟨rfl, rfl⟩
    exact .filter h

theorem offence_body_iff (h : groupIn fields = some (group, body)) (hnull : body ≠ .null)
    (hlist : ∀ items, body ≠ .list items) :
    Offence (.object fields) place e ↔ place = [] ∧ e = .notAFilterList group body := by
  constructor
  · intro hoffence
    cases hoffence with
    | filter hother => exact absurd rfl (hother fields)
    | body hbody =>
        rw [h] at hbody
        cases hbody
        exact ⟨rfl, rfl⟩
    | item hitems =>
        rw [h] at hitems
        cases hitems
        exact absurd rfl (hlist _)
  · rintro ⟨rfl, rfl⟩
    exact .body h hnull hlist

theorem offence_items_iff (h : groupIn fields = some (group, .list items)) :
    Offence (.object fields) place e ↔ ∃ i item rest, place = i :: rest ∧
      items[i]? = some item ∧ Offence item rest e := by
  constructor
  · intro hoffence
    cases hoffence with
    | filter hother => exact absurd rfl (hother fields)
    | body hbody _ hlist =>
        rw [h] at hbody
        cases hbody
        exact absurd rfl (hlist items)
    | item hitems hitem hoffence =>
        rw [h] at hitems
        cases hitems
        exact ⟨_, _, _, rfl, hitem, hoffence⟩
  · rintro ⟨i, item, rest, rfl, hitem, hoffence⟩
    exact .item h hitem hoffence

theorem Described.no_offence (h : Described v) : ¬Offence v place e := by
  induction h generalizing place with
  | leaf h =>
      intro hoffence
      cases hoffence with
      | filter hother => exact absurd rfl (hother _)
      | body hbody => simp [h] at hbody
      | item hitems => simp [h] at hitems
  | empty h =>
      intro hoffence
      cases hoffence with
      | filter hother => exact absurd rfl (hother _)
      | body hbody hnull =>
          rw [h] at hbody
          cases hbody
          exact absurd rfl hnull
      | item hitems =>
          rw [h] at hitems
          cases hitems
  | group h _ ih =>
      rw [offence_items_iff h]
      rintro ⟨i, item, rest, -, hitem, hoffence⟩
      exact ih item (List.mem_of_getElem? hitem) hoffence

theorem FirstOffence.of_item {before after : List Value} {item : Value}
    (hgroup : groupIn fields = some (group, .list (before ++ item :: after)))
    (hbefore : ∀ x ∈ before, Described x) (h : FirstOffence item place e) :
    FirstOffence (.object fields) (before.length :: place) e := by
  obtain ⟨hoffence, hfirst⟩ := h
  refine ⟨.item hgroup (by simp) hoffence, ?_⟩
  intro other e' hother hlt
  obtain ⟨i, found, rest, rfl, hfound, hrest⟩ := (offence_items_iff hgroup).mp hother
  rcases List.cons_lt_cons_iff.mp hlt with hless | ⟨rfl, hless⟩
  · rw [List.getElem?_append_left hless] at hfound
    have hdescribed := hbefore found (List.mem_of_getElem? hfound)
    exact hdescribed.no_offence hrest
  · have hsame : found = item := by simpa using hfound.symm
    subst hsame
    exact hfirst rest e' hrest hless

theorem exists_firstOffence (h : ofValue v = .error e) : ∃ place, FirstOffence v place e := by
  induction v using description_induction with
  | leaf fields hgroup =>
      rw [ofValue_leaf hgroup] at h
      cases h
  | empty fields group hgroup =>
      rw [ofValue_empty hgroup] at h
      cases h
  | group fields group items hgroup ih =>
      rw [ofValue_list hgroup, map_eq_error_iff] at h
      obtain ⟨before, item, after, rfl, hbefore, hitem⟩ := mapM_eq_error h
      have hdescribed : ∀ x ∈ before, Described x :=
        fun x hx => described_of_reads (hbefore x hx)
      obtain ⟨place, hfirst⟩ := ih item (by simp) hitem
      exact ⟨_, hfirst.of_item hgroup hdescribed⟩
  | body fields group body hgroup hnull hlist =>
      rw [ofValue_body hgroup hnull hlist] at h
      cases h
      exact ⟨[], .body hgroup hnull hlist, fun other e' _ => List.not_lt_nil other⟩
  | other v hother =>
      rw [ofValue_other hother] at h
      cases h
      exact ⟨[], .filter hother, fun other e' _ => List.not_lt_nil other⟩

theorem Offence.fault_unique {e' : Fault} (h : Offence v place e) (h' : Offence v place e') :
    e = e' := by
  induction h with
  | filter hother => exact ((offence_other_iff hother).mp h').2.symm
  | body hbody hnull hlist => exact ((offence_body_iff hbody hnull hlist).mp h').2.symm
  | item hitems hitem _ ih =>
      obtain ⟨i, found, rest, hplace, hfound, hrest⟩ := (offence_items_iff hitems).mp h'
      cases hplace
      rw [hitem] at hfound
      cases hfound
      exact ih hrest

theorem FirstOffence.fault_unique {other : List Nat} {e' : Fault} (h : FirstOffence v place e)
    (h' : FirstOffence v other e') : e = e' := by
  have hplace : place = other := by
    rcases lt_trichotomy place other with hlt | heq | hlt
    · exact absurd hlt (h'.2 _ _ h.1)
    · exact heq
    · exact absurd hlt (h.2 _ _ h'.1)
  subst hplace
  exact h.1.fault_unique h'.1

theorem ofValue_eq_error_iff : ofValue v = .error e ↔ ∃ place, FirstOffence v place e := by
  constructor
  · exact exists_firstOffence
  · rintro ⟨place, h⟩
    cases hread : ofValue v with
    | ok f => exact absurd h.1 (described_of_reads ⟨f, hread⟩).no_offence
    | error e' =>
        obtain ⟨other, hfirst⟩ := exists_firstOffence hread
        rw [hfirst.fault_unique h]

theorem Offence.told (h : Offence v place e) : Told e := by
  induction h with
  | filter _ => exact ⟨rfl, .inl ⟨_, rfl, rfl⟩⟩
  | body h _ _ => exact ⟨rfl, .inr ⟨_, (groupIn_eq_some h).1, _, rfl, rfl⟩⟩
  | item _ _ _ ih => exact ih

theorem ofValue_error_congr {others : List (String × Value)} (h : groupIn fields = groupIn others) :
    ofValue (.object fields) = .error e ↔ ofValue (.object others) = .error e := by
  cases hgroup : groupIn others with
  | none => rw [ofValue_leaf hgroup, ofValue_leaf (h.trans hgroup)]; simp
  | some found => rw [ofValue_group hgroup, ofValue_group (h.trans hgroup)]

-- Just the descriptions are read. What is none is refused for its first offence, and of the fields
-- of an object only those of its group can be at fault.
theorem reads_exactly_described (v : Value) :
    ((∃ f, ofValue v = .ok f) ↔ Described v) ∧
    (∀ e, ofValue v = .error e ↔ ∃ place, FirstOffence v place e) ∧
    (∀ e, ofValue v = .error e → Told e) ∧
    ∀ fields others, v = .object fields → groupIn fields = groupIn others →
      ∀ e, ofValue v = .error e ↔ ofValue (.object others) = .error e := by
  refine ⟨⟨described_of_reads, Described.reads⟩, fun e => ofValue_eq_error_iff, ?_, ?_⟩
  · intro e h
    obtain ⟨place, hfirst⟩ := ofValue_eq_error_iff.mp h
    exact hfirst.1.told
  · rintro fields others rfl h e
    exact ofValue_error_congr h

-- Two offences in the items of a group, and a third in the group that is not read beside it.
def misplaced : Value :=
  .object [("or", .int 7), ("and", .list [.object [("column", .list []), ("in", .int 0)],
    .object [("or", .list [.object [], .object [("or", .text "x")]])], .null])]

theorem misplaced_refused :
    (∃ place, FirstOffence misplaced place (.notAFilterList "or" (.text "x"))) ∧
    ¬Described misplaced ∧
    Fault.message? (.notAFilterList "or" (.text "x")) =
      some "'or' expects a list of filters, got str" := by
  obtain ⟨hreads, hfirst, -, -⟩ := reads_exactly_described misplaced
  have hrefused : ofValue misplaced = .error (.notAFilterList "or" (.text "x")) := rfl
  refine ⟨(hfirst _).mp hrefused, ?_, rfl⟩
  intro hdescribed
  obtain ⟨f, hread⟩ := hreads.mpr hdescribed
  rw [hrefused] at hread
  cases hread

end Faults

end Tileboard.Filter
