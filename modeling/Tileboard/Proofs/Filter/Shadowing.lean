import Mathlib
import Tileboard.Proofs.Filter.RoundTrip
import Tileboard.Proofs.Value.WellFormed

namespace Tileboard.Filter

-- A name that is not looked at beside others: any but "and" beside that, any but the two groups
-- beside "or", an operator after one that comes earlier in the order of precedence, and what names
-- neither the column nor an operator nor a group.
inductive Shadowed (names : List String) : String → Prop
  | besideAll {name : String} (h : "and" ∈ names) (hname : name ≠ "and") : Shadowed names name
  | besideAny {name : String} (h : "or" ∈ names) (hname : name ∉ groupNames) : Shadowed names name
  | later (first operator : Operator) (horder : [first, operator].Sublist Operator.all)
      (h : first.name ∈ names) : Shadowed names operator.name
  | unknown {name : String} (hcolumn : name ≠ "column") (hoperator : name ∉ operatorNames)
      (hgroup : name ∉ groupNames) : Shadowed names name

-- One change of a description: the fields of an object take another order, or a shadowed one is put
-- in, there or in an item of the group that the object is read as.
inductive Edit : Value → Value → Prop
  | permute {fields others : List (String × Value)} (hnames : (fields.map Prod.fst).Nodup)
      (h : fields.Perm others) : Edit (.object fields) (.object others)
  | insert (before : List (String × Value)) {after : List (String × Value)} {name : String}
      {v : Value} (hnew : name ∉ (before ++ after).map Prod.fst)
      (h : Shadowed ((before ++ after).map Prod.fst) name) :
      Edit (.object (before ++ after)) (.object (before ++ (name, v) :: after))
  | inside (before : List (String × Value)) {after : List (String × Value)} {group : String}
      (items : List Value) {others : List Value} {item item' : Value}
      (hfirst : group ∉ before.map Prod.fst)
      (hgroup : groupIn (before ++ (group, .list (items ++ item :: others)) :: after) =
        some (group, .list (items ++ item :: others))) (h : Edit item item') :
      Edit (.object (before ++ (group, .list (items ++ item :: others)) :: after))
        (.object (before ++ (group, .list (items ++ item' :: others)) :: after))

section Lookups

variable {before after fields others : List (String × Value)} {name asked : String} {v : Value}

theorem lookup_insert_of_ne (h : asked ≠ name) :
    (before ++ (name, v) :: after).lookup asked = (before ++ after).lookup asked := by
  rw [List.lookup_append, List.lookup_append, List.lookup_cons, beq_false_of_ne h]

theorem lookup_insert_self (h : name ∉ before.map Prod.fst) :
    (before ++ (name, v) :: after).lookup name = some v := by
  have hnone : before.lookup name = none := by
    rw [List.lookup_eq_none_iff]
    intro field hfield
    rw [bne_iff_ne]
    rintro rfl
    exact h (List.mem_map_of_mem hfield)
  rw [List.lookup_append, hnone, List.lookup_cons_self]
  rfl

theorem lookup_perm (hnames : (fields.map Prod.fst).Nodup) (h : fields.Perm others)
    (name : String) : fields.lookup name = others.lookup name := by
  have hothers : (others.map Prod.fst).Nodup := (h.map Prod.fst).nodup_iff.mp hnames
  cases hleft : fields.lookup name with
  | some v => exact (Value.lookup_of_mem hothers (h.mem_iff.mp (mem_of_lookup hleft))).symm
  | none =>
      cases hright : others.lookup name with
      | none => rfl
      | some v =>
          rw [Value.lookup_of_mem hnames (h.mem_iff.mpr (mem_of_lookup hright))] at hleft
          cases hleft

end Lookups

theorem operatorNames_nodup : operatorNames.Nodup := by decide

section Objects

variable {fields others : List (String × Value)}

theorem groupIn_eq (fields : List (String × Value)) : groupIn fields =
    ((fields.lookup "and").map fun body => ("and", body)).or
      ((fields.lookup "or").map fun body => ("or", body)) := by
  unfold groupIn groupNames
  rw [List.findSome?_cons, List.findSome?_singleton]
  cases fields.lookup "and" <;> rfl

theorem groupIn_congr (h : ∀ name ∈ groupNames, fields.lookup name = others.lookup name) :
    groupIn fields = groupIn others := by
  rw [groupIn_eq, groupIn_eq, h "and" (by decide), h "or" (by decide)]

theorem groupIn_ne_none {name : String} (hname : name ∈ groupNames)
    (h : name ∈ fields.map Prod.fst) : groupIn fields ≠ none := by
  obtain ⟨body, hbody⟩ := exists_lookup_of_mem h
  rw [groupIn_eq]
  rcases mem_groupNames.mp hname with rfl | rfl <;> simp [hbody]

-- The group decides what is read, and only without one do the other fields count.
theorem ofValue_object_congr (hgroup : groupIn fields = groupIn others)
    (hleaf : groupIn others = none → leafOf fields = leafOf others) :
    ofValue (.object fields) = ofValue (.object others) := by
  cases hothers : groupIn others with
  | none => rw [ofValue_leaf (hgroup.trans hothers), ofValue_leaf hothers, hleaf hothers]
  | some found => rw [ofValue_group (hgroup.trans hothers), ofValue_group hothers]

theorem testIn_congr (h : ∀ name ∈ operatorNames, fields.lookup name = others.lookup name) :
    testIn fields = testIn others := by
  unfold testIn
  congr 1
  funext operator
  rw [h operator.name (name_mem_operatorNames operator)]

theorem testIn_of_later {first operator : Operator}
    (horder : [first, operator].Sublist Operator.all) (hfirst : first.name ∈ others.map Prod.fst)
    (h : ∀ name, name ≠ operator.name → fields.lookup name = others.lookup name) :
    testIn fields = testIn others := by
  obtain ⟨earlier, rest, hall, hmem, hlater⟩ := List.cons_sublist_iff.mp horder
  have hnodup := operatorNames_nodup
  rw [operatorNames, hall, List.map_append] at hnodup
  have hne : ∀ o ∈ earlier, o.name ≠ operator.name := fun o ho =>
    (List.nodup_append.mp hnodup).2.2 _ (List.mem_map_of_mem ho) _
      (List.mem_map_of_mem (List.singleton_sublist.mp hlater))
  have hsame : ∀ o ∈ earlier,
      ((fields.lookup o.name).map fun operand => (⟨o, operand⟩ : Test)) =
        (others.lookup o.name).map fun operand => ⟨o, operand⟩ := fun o ho => by
    rw [h o.name (hne o ho)]
  obtain ⟨operand, hoperand⟩ := exists_lookup_of_mem hfirst
  have hsome : (earlier.findSome? fun o =>
      (others.lookup o.name).map fun operand => (⟨o, operand⟩ : Test)).isSome := by
    rw [List.findSome?_isSome_iff]
    exact ⟨first, hmem, by rw [hoperand]; rfl⟩
  obtain ⟨test, htest⟩ := Option.isSome_iff_exists.mp hsome
  unfold testIn
  rw [hall, List.findSome?_append, List.findSome?_append, findSome?_congr hsame, htest]
  rfl

theorem leafOf_congr (hcolumn : fields.lookup "column" = others.lookup "column")
    (htest : testIn fields = testIn others) : leafOf fields = leafOf others := by
  rw [leafOf, leafOf, hcolumn, htest]

theorem ofValue_permuted (hnames : (fields.map Prod.fst).Nodup) (h : fields.Perm others) :
    ofValue (.object fields) = ofValue (.object others) := by
  have hlookup := lookup_perm hnames h
  exact ofValue_object_congr (groupIn_congr fun name _ => hlookup name) fun _ =>
    leafOf_congr (hlookup "column") (testIn_congr fun name _ => hlookup name)

-- One case for each way to be shadowed. A name beside a group does not decide the group, and in a
-- leaf neither the column nor the test.
theorem ofValue_inserted {before after : List (String × Value)} {name : String} (v : Value)
    (h : Shadowed ((before ++ after).map Prod.fst) name) :
    ofValue (.object (before ++ (name, v) :: after)) = ofValue (.object (before ++ after)) := by
  have hlookup : ∀ asked, asked ≠ name →
      (before ++ (name, v) :: after).lookup asked = (before ++ after).lookup asked :=
    fun asked => lookup_insert_of_ne
  have hgroups : name ∉ groupNames →
      groupIn (before ++ (name, v) :: after) = groupIn (before ++ after) := fun hname =>
    groupIn_congr fun asked hasked => hlookup asked (by rintro rfl; exact hname hasked)
  cases h with
  | besideAll hand hname =>
      obtain ⟨body, hbody⟩ := exists_lookup_of_mem hand
      have hsame : groupIn (before ++ (name, v) :: after) = groupIn (before ++ after) := by
        rw [groupIn_eq, groupIn_eq, hlookup "and" (Ne.symm hname), hbody]
        rfl
      exact ofValue_object_congr hsame fun hnone =>
        absurd hnone (groupIn_ne_none (by decide) hand)
  | besideAny hor hname =>
      exact ofValue_object_congr (hgroups hname) fun hnone =>
        absurd hnone (groupIn_ne_none (by decide) hor)
  | later first operator horder hfirst =>
      have hname : operator.name ∉ groupNames := fun hgroup =>
        group_not_leaf hgroup (.inr (name_mem_operatorNames operator))
      exact ofValue_object_congr (hgroups hname) fun _ =>
        leafOf_congr (hlookup "column" (column_ne_name operator))
          (testIn_of_later horder hfirst hlookup)
  | unknown hcolumn hoperator hgroup =>
      exact ofValue_object_congr (hgroups hgroup) fun _ =>
        leafOf_congr (hlookup "column" (Ne.symm hcolumn)) (testIn_congr fun asked hasked =>
          hlookup asked (by rintro rfl; exact hoperator hasked))

theorem groupIn_replaced {before after : List (String × Value)} {group : String}
    {body body' : Value} (hfirst : group ∉ before.map Prod.fst)
    (h : groupIn (before ++ (group, body) :: after) = some (group, body)) :
    groupIn (before ++ (group, body') :: after) = some (group, body') := by
  have hself : ∀ v, (before ++ (group, v) :: after).lookup group = some v :=
    fun v => lookup_insert_self hfirst
  rcases mem_groupNames.mp (groupIn_eq_some h).1 with rfl | rfl
  · rw [groupIn_eq, hself]
    rfl
  · have hne : "and" ≠ "or" := by decide
    rw [groupIn_eq, lookup_insert_of_ne hne] at h ⊢
    rw [hself] at h ⊢
    cases hand : (before ++ after).lookup "and" with
    | none => rfl
    | some other =>
        rw [hand] at h
        simp at h

end Objects

-- Induction on the way down to the object that is changed.
theorem Edit.ofValue_eq {v w : Value} (h : Edit v w) : ofValue v = ofValue w := by
  induction h with
  | permute hnames hperm => exact ofValue_permuted hnames hperm
  | insert _ _ hshadowed => exact (ofValue_inserted _ hshadowed).symm
  | inside _ _ hfirst hgroup _ ih =>
      rw [ofValue_list hgroup, ofValue_list (groupIn_replaced hfirst hgroup)]
      simp only [List.mapM_append, List.mapM_cons, ih]

theorem Edit.ofDescription_eq {v w : Value} (h : Edit v w) (mode : Mode) :
    Matcher.ofDescription mode v = Matcher.ofDescription mode w := by
  have hread := h.ofValue_eq
  cases h <;> simp only [Matcher.ofDescription, hread]

-- However often the fields of a description take another order, or shadowed ones are put in and
-- taken out, the filter that is read stays the same, and so does what stops the reading. So the
-- description is made ready as before.
theorem edits_keep_filter {v w : Value} (h : Relation.EqvGen Edit v w) :
    ofValue v = ofValue w ∧
      ∀ mode, Matcher.ofDescription mode v = Matcher.ofDescription mode w := by
  induction h with
  | rel v w hedit => exact ⟨hedit.ofValue_eq, hedit.ofDescription_eq⟩
  | refl v => exact ⟨rfl, fun _ => rfl⟩
  | symm v w _ ih => exact ⟨ih.1.symm, fun mode => (ih.2 mode).symm⟩
  | trans u v w _ _ ih ih' => exact ⟨ih.1.trans ih'.1, fun mode => (ih.2 mode).trans (ih'.2 mode)⟩

-- A null operand is there all the same, and what stands behind it in the order of precedence is not
-- looked at.
def undated : Value :=
  .object [("and", .list [.object [("column", .text "day"), ("lt", .null)]])]

def undatedTangled : Value :=
  .object [("or", .int 7), ("and", .list [.object [("lt", .null), ("gt", .int 3),
    ("note", .bool true), ("column", .text "day")]])]

theorem undatedTangled_keeps_filter :
    ofValue undatedTangled = .ok (.all [.leaf (.text "day") (some (.compare .less)) .null]) ∧
    Matcher.ofDescription .strict undatedTangled = Matcher.ofDescription .strict undated := by
  have hturn : Edit (.object [("column", .text "day"), ("lt", .null)])
      (.object [("lt", .null), ("column", .text "day")]) := .permute (by decide) (.swap _ _ [])
  have hnote : Edit (.object [("lt", .null), ("column", .text "day")])
      (.object [("lt", .null), ("note", .bool true), ("column", .text "day")]) :=
    .insert [("lt", .null)] (by decide)
      (.unknown (by decide) (by decide) (by decide))
  have hgreater : Edit (.object [("lt", .null), ("note", .bool true), ("column", .text "day")])
      (.object [("lt", .null), ("gt", .int 3), ("note", .bool true), ("column", .text "day")]) :=
    .insert [("lt", .null)] (by decide)
      (.later (.compare .less) (.compare .greater) (by decide) (by decide))
  have hinside : ∀ {item item' : Value}, Edit item item' → Edit (.object [("and", .list [item])])
      (.object [("and", .list [item'])]) := fun h =>
    .inside [] [] (by decide) rfl h
  have hor : ∀ v, Edit (.object [("and", v)]) (.object [("or", .int 7), ("and", v)]) := fun v =>
    .insert [] (by simp) (.besideAll (by simp) (by decide))
  have hedits : Relation.EqvGen Edit undated undatedTangled :=
    .trans _ _ _ (.rel _ _ (hinside hturn)) (.trans _ _ _ (.rel _ _ (hinside hnote))
      (.trans _ _ _ (.rel _ _ (hinside hgreater)) (.rel _ _ (hor _))))
  obtain ⟨hread, hready⟩ := edits_keep_filter hedits
  exact ⟨hread.symm, (hready .strict).symm⟩

end Tileboard.Filter
