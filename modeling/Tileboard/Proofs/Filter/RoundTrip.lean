import Mathlib
import Tileboard.Filter.Matcher
import Tileboard.Proofs.Filter.Description
import Tileboard.Proofs.Filter.Strictness
import Tileboard.Proofs.Value.Alike

namespace Tileboard.Filter

open Tileboard.Value (Alike)

mutual

-- The filter without operands that no operator takes up.
def pruned : Filter → Filter
  | .leaf column none _ => .leaf column none .null
  | .leaf column (some operator) operand => .leaf column (some operator) operand
  | .all parts => .all (prunedAll parts)
  | .any parts => .any (prunedAll parts)

def prunedAll : List Filter → List Filter
  | [] => []
  | f :: rest => pruned f :: prunedAll rest

end

mutual

theorem pruned_eq_iff : ∀ f : Filter,
    f.pruned = f ↔ ∀ l ∈ f.leaves, l.operator = none → l.operand = .null
  | .leaf column none operand => by simp [pruned, leaves, eq_comm]
  | .leaf column (some operator) operand => by simp [pruned, leaves]
  | .all parts => by simp [pruned, leaves, prunedAll_eq_iff parts]
  | .any parts => by simp [pruned, leaves, prunedAll_eq_iff parts]

theorem prunedAll_eq_iff : ∀ fs : List Filter,
    prunedAll fs = fs ↔ ∀ l ∈ leavesOf fs, l.operator = none → l.operand = .null
  | [] => by simp [prunedAll, leavesOf]
  | f :: rest => by
      simp only [prunedAll, leavesOf, List.cons.injEq, pruned_eq_iff f, prunedAll_eq_iff rest,
        List.forall_mem_append]

end

mutual

-- An operand without an operator is not written.
theorem ofValue_toValue : ∀ f : Filter, ofValue f.toValue = .ok f.pruned
  | .leaf column none operand => rfl
  | .leaf column (some operator) operand => by
      cases operator with
      | compare comparison => cases comparison <;> rfl
      | _ negated => cases negated <;> rfl
  | .all parts => by
      rw [toValue, ofValue]
      simp [groupBody, ofValues_toValues parts, Except.map, pruned]
  | .any parts => by
      rw [toValue, ofValue]
      simp [groupBody, ofValues_toValues parts, Except.map, pruned]

theorem ofValues_toValues : ∀ fs : List Filter, ofValues (toValues fs) = .ok (prunedAll fs)
  | [] => rfl
  | f :: rest => by
      rw [toValues, ofValues, ofValue_toValue f, ofValues_toValues rest]
      rfl

end

theorem prunedAll_eq_map (fs : List Filter) : prunedAll fs = fs.map pruned := by
  induction fs with
  | nil => rfl
  | cons f rest ih => rw [prunedAll, ih, List.map_cons]

theorem pruned_joined {group : String} {fs : List Filter} (h : ∀ f ∈ fs, f.pruned = f) :
    (joined group fs).pruned = joined group fs := by
  have hall : prunedAll fs = fs := by
    rw [prunedAll_eq_map, List.map_congr_left h, List.map_id']
  unfold joined
  split <;> rw [pruned, hall]

theorem pruned_of_ofValue {v : Value} {f : Filter} (h : ofValue v = .ok f) : f.pruned = f := by
  induction v using description_induction generalizing f with
  | leaf fields hgroup =>
      rw [ofValue_leaf hgroup] at h
      cases h
      unfold leafOf
      cases testIn fields <;> rfl
  | empty fields group hgroup =>
      rw [ofValue_empty hgroup] at h
      cases h
      exact pruned_joined (by simp)
  | group fields group items hgroup ih =>
      rw [ofValue_list hgroup] at h
      obtain ⟨fs, hfs, rfl⟩ := map_eq_ok_iff.mp h
      refine pruned_joined fun f hf => ?_
      obtain ⟨item, hitem, hread⟩ := exists_left_of_forall₂ (mapM_eq_ok hfs) hf
      exact ih item hitem hread
  | body fields group body hgroup hnull hlist =>
      rw [ofValue_body hgroup hnull hlist] at h
      cases h
  | other v hother =>
      rw [ofValue_other hother] at h
      cases h

theorem ofDescription_eq {v : Value} {f : Filter} (h : ofValue v = .ok f) (mode : Mode) :
    Matcher.ofDescription mode v = Matcher.ofFilter mode f := by
  cases v with
  | object fields =>
      rw [Matcher.ofDescription, h]
      exact Traced.ok_bind_eq rfl _
  | _ => cases h

def operatorNames : List String := Operator.all.map Operator.name

-- The names in a leaf as it is written: the column and one operator at most, no name twice.
structure LeafNames (names : List String) : Prop where
  nodup : names.Nodup
  column : "column" ∈ names
  known : ∀ name ∈ names, name = "column" ∨ name ∈ operatorNames
  single : ∀ name ∈ names, ∀ other ∈ names,
    name ∈ operatorNames → other ∈ operatorNames → name = other

-- A description in the form in which filters are written: a group under its one name with the list
-- of its items, or a leaf.
inductive Canonical : Value → Prop
  | group {name : String} {items : List Value} (hname : name ∈ groupNames)
      (hitems : ∀ item ∈ items, Canonical item) : Canonical (.object [(name, .list items)])
  | leaf {fields : List (String × Value)} (h : LeafNames (fields.map Prod.fst)) :
      Canonical (.object fields)

section Leaves

variable {fields : List (String × Value)} {names others : List String}

theorem LeafNames.of_perm (h : LeafNames names) (hperm : others.Perm names) :
    LeafNames others where
  nodup := hperm.nodup_iff.mpr h.nodup
  column := hperm.mem_iff.mpr h.column
  known name hname := h.known name (hperm.mem_iff.mp hname)
  single name hname other hother :=
    h.single name (hperm.mem_iff.mp hname) other (hperm.mem_iff.mp hother)

theorem column_not_operator : "column" ∉ operatorNames := by decide

theorem name_mem_operatorNames (operator : Operator) : operator.name ∈ operatorNames := by
  cases operator with
  | compare comparison => cases comparison <;> decide
  | _ negated => cases negated <;> decide

theorem column_ne_name (operator : Operator) : "column" ≠ operator.name := by
  intro heq
  apply column_not_operator
  rw [heq]
  exact name_mem_operatorNames operator

theorem leafNames_column : LeafNames ["column"] := by
  constructor <;> simp

theorem leafNames_operator (operator : Operator) : LeafNames ["column", operator.name] where
  nodup := by simp [column_ne_name operator]
  column := by simp
  known name h := by
    simp only [List.mem_cons, List.not_mem_nil, or_false] at h
    rcases h with rfl | rfl
    · exact .inl rfl
    · exact .inr (name_mem_operatorNames operator)
  single := by
    have hoperator : ∀ name ∈ ["column", operator.name], name ∈ operatorNames →
        name = operator.name := by
      intro name h hname
      simp only [List.mem_cons, List.not_mem_nil, or_false] at h
      rcases h with rfl | rfl
      · exact absurd hname column_not_operator
      · rfl
    intro name h other hother hname hotherName
    rw [hoperator name h hname, hoperator other hother hotherName]

theorem testIn_mem {test : Test} (h : testIn fields = some test) :
    (test.operator.name, test.operand) ∈ fields := by
  obtain ⟨operator, -, h⟩ := List.exists_of_findSome?_eq_some h
  obtain ⟨operand, hoperand, h⟩ := Option.map_eq_some_iff.mp h
  cases h
  exact mem_of_lookup hoperand

theorem testIn_eq_none (h : testIn fields = none) {name : String} (hname : name ∈ operatorNames) :
    name ∉ fields.map Prod.fst := by
  obtain ⟨operator, hoperator, rfl⟩ := List.mem_map.mp hname
  have hlookup := List.findSome?_eq_none_iff.mp h operator hoperator
  intro hmem
  obtain ⟨v, hv⟩ := exists_lookup_of_mem hmem
  rw [hv] at hlookup
  cases hlookup

def fieldsOf (fields : List (String × Value)) : List (String × Value) :=
  ("column", (fields.lookup "column").getD .null) ::
    ((testIn fields).map fun test => (test.operator.name, test.operand)).toList

theorem toValue_leafOf (fields : List (String × Value)) :
    (leafOf fields).toValue = .object (fieldsOf fields) := by
  unfold leafOf fieldsOf
  cases testIn fields <;> rfl

theorem leafNames_fieldsOf (fields : List (String × Value)) :
    LeafNames ((fieldsOf fields).map Prod.fst) := by
  unfold fieldsOf
  cases testIn fields with
  | none => exact leafNames_column
  | some test => exact leafNames_operator test.operator

-- Fields with the names of a leaf are, up to their order, those in which this leaf is written.
theorem fieldsOf_perm (h : LeafNames (fields.map Prod.fst)) : (fieldsOf fields).Perm fields := by
  have hname : ∀ field ∈ fields, field.1 ∈ fields.map Prod.fst :=
    fun field hfield => List.mem_map_of_mem hfield
  have hunique : ∀ field ∈ fields, ∀ other ∈ fields, field.1 = other.1 → field = other :=
    fun field hfield other hother => List.inj_on_of_nodup_map h.nodup hfield hother
  have hcolumn : ("column", (fields.lookup "column").getD .null) ∈ fields := by
    obtain ⟨column, hcolumn⟩ := exists_lookup_of_mem h.column
    rw [hcolumn]
    exact mem_of_lookup hcolumn
  have hsub : ∀ field ∈ fieldsOf fields, field ∈ fields := by
    intro field hfield
    rcases List.mem_cons.mp hfield with rfl | hfield
    · exact hcolumn
    · obtain ⟨test, htest, rfl⟩ := Option.map_eq_some_iff.mp (Option.mem_toList.mp hfield)
      exact testIn_mem htest
  have hsup : ∀ field ∈ fields, field ∈ fieldsOf fields := by
    intro field hfield
    rcases h.known field.1 (hname field hfield) with heq | hoperator
    · rw [hunique field hfield _ hcolumn heq]
      exact List.mem_cons_self
    · cases htest : testIn fields with
      | none => exact absurd (hname field hfield) (testIn_eq_none htest hoperator)
      | some test =>
          have hmem := testIn_mem htest
          have heq := h.single field.1 (hname field hfield) _ (hname _ hmem) hoperator
            (name_mem_operatorNames test.operator)
          rw [hunique field hfield _ hmem heq]
          simp [fieldsOf, htest]
  have hnodup := (leafNames_fieldsOf fields).nodup.of_map
  exact (List.perm_ext_iff_of_nodup hnodup h.nodup.of_map).mpr
    fun field => ⟨hsub field, hsup field⟩

theorem group_not_leaf {group : String} (h : group ∈ groupNames) :
    ¬(group = "column" ∨ group ∈ operatorNames) := by
  rcases mem_groupNames.mp h with rfl | rfl <;> decide

theorem groupIn_single {group : String} (items : List Value) (h : group ∈ groupNames) :
    groupIn [(group, .list items)] = some (group, .list items) := by
  rcases mem_groupNames.mp h with rfl | rfl <;> rfl

theorem alike_leaf_iff (hgroup : groupIn fields = none) :
    Alike (leafOf fields).toValue (.object fields) ↔ Canonical (.object fields) := by
  rw [toValue_leafOf]
  constructor
  · intro h
    have hnames := leafNames_fieldsOf fields
    exact .leaf (hnames.of_perm (h.names_perm hnames.nodup))
  · intro h
    cases h with
    | leaf h => exact .object (fieldsOf_perm h) rfl (Value.forall₂_alike_self _)
    | group hname =>
        rw [groupIn_single _ hname] at hgroup
        cases hgroup

end Leaves

section Groups

variable {fields : List (String × Value)} {group : String} {body : Value}

theorem toValues_eq_map (fs : List Filter) : toValues fs = fs.map toValue := by
  induction fs with
  | nil => rfl
  | cons f rest ih => rw [toValues, ih, List.map_cons]

theorem toValue_joined {fs : List Filter} (h : group ∈ groupNames) :
    (joined group fs).toValue = .object [(group, .list (fs.map toValue))] := by
  rw [← toValues_eq_map]
  rcases mem_groupNames.mp h with rfl | rfl <;> rfl

-- A canonical description of a group is one field, with a list.
theorem canonical_group_iff (h : groupIn fields = some (group, body)) :
    Canonical (.object fields) ↔ fields = [(group, body)] ∧
      ∃ items, body = .list items ∧ ∀ item ∈ items, Canonical item := by
  obtain ⟨hname, hmem⟩ := groupIn_eq_some h
  constructor
  · intro hcanonical
    cases hcanonical with
    | group hother hitems =>
        rw [groupIn_single _ hother] at h
        cases h
        exact ⟨rfl, _, rfl, hitems⟩
    | leaf hnames =>
        have hknown := hnames.known group (List.mem_map_of_mem (f := Prod.fst) hmem)
        exact absurd hknown (group_not_leaf hname)
  · rintro ⟨rfl, items, rfl, hitems⟩
    exact .group hname hitems

theorem alike_group_iff {fs : List Filter} (h : groupIn fields = some (group, body)) :
    Alike (joined group fs).toValue (.object fields) ↔ fields = [(group, body)] ∧
      ∃ items, body = .list items ∧ List.Forall₂ (fun f item => Alike f.toValue item) fs items := by
  obtain ⟨hname, hmem⟩ := groupIn_eq_some h
  rw [toValue_joined hname, Value.alike_single_iff]
  constructor
  · rintro ⟨w, rfl, halike⟩
    obtain ⟨items, rfl, hitems⟩ := Value.alike_list_iff.mp halike
    rw [groupIn_single items hname] at h
    cases h
    exact ⟨rfl, items, rfl, List.forall₂_map_left_iff.mp hitems⟩
  · rintro ⟨rfl, items, rfl, hitems⟩
    exact ⟨_, rfl, .list (List.forall₂_map_left_iff.mpr hitems)⟩

end Groups

theorem alike_iff_canonical {v : Value} {f : Filter} (h : ofValue v = .ok f) :
    Alike f.toValue v ↔ Canonical v := by
  induction v using description_induction generalizing f with
  | leaf fields hgroup =>
      rw [ofValue_leaf hgroup] at h
      cases h
      exact alike_leaf_iff hgroup
  | empty fields group hgroup =>
      rw [ofValue_empty hgroup] at h
      cases h
      -- Null stands for no items, but is not written for them.
      rw [alike_group_iff hgroup, canonical_group_iff hgroup]
      simp
  | group fields group items hgroup ih =>
      rw [ofValue_list hgroup] at h
      obtain ⟨fs, hfs, rfl⟩ := map_eq_ok_iff.mp h
      rw [alike_group_iff hgroup, canonical_group_iff hgroup]
      have hitems := forall₂_iff_forall (mapM_eq_ok hfs) fun item hitem f hf => ih item hitem hf
      refine and_congr_right fun _ => ?_
      simpa using hitems
  | body fields group body hgroup hnull hlist =>
      rw [ofValue_body hgroup hnull hlist] at h
      cases h
  | other v hother =>
      rw [ofValue_other hother] at h
      cases h

-- A filter comes back from what is written for it, but for operands that no operator takes up. What
-- is written for a description is written for itself, is made ready as the description is, and is
-- the description only in canonical form.
theorem written_round_trip :
    (∀ f : Filter, ofValue f.toValue = .ok f.pruned ∧
      (ofValue f.toValue = .ok f ↔ ∀ l ∈ f.leaves, l.operator = none → l.operand = .null)) ∧
    ∀ (v : Value) (f : Filter), ofValue v = .ok f →
      ofValue f.toValue = .ok f ∧
      (ofValue f.toValue).map toValue = .ok f.toValue ∧
      (∀ mode, Matcher.ofDescription mode f.toValue = Matcher.ofDescription mode v) ∧
      (Alike f.toValue v ↔ Canonical v) := by
  refine ⟨fun f => ⟨ofValue_toValue f, ?_⟩, fun v f h => ?_⟩
  · rw [ofValue_toValue, Except.ok.injEq, pruned_eq_iff]
  · have hback : ofValue f.toValue = .ok f := by rw [ofValue_toValue, pruned_of_ofValue h]
    refine ⟨hback, ?_, fun mode => ?_, alike_iff_canonical h⟩
    · rw [hback]
      rfl
    · rw [ofDescription_eq h, ofDescription_eq hback]

-- A leaf that asks nothing, with an operand all the same.
def idle : Filter := .leaf (.text "a") none (.int 5)

theorem idle_operand_dropped :
    ofValue idle.toValue = .ok (.leaf (.text "a") none .null) ∧ ofValue idle.toValue ≠ .ok idle := by
  have hread : ofValue idle.toValue = .ok (.leaf (.text "a") none .null) := rfl
  refine ⟨hread, fun h => ?_⟩
  rw [hread] at h
  cases h

-- The operator before the column, NaN for an operand, and a group of no items: what is written for
-- this is alike to it all the same.
def turned : Value :=
  .object [("or", .list [.object [("notEquals", .real .nan), ("column", .text "a")],
    .object [("and", .list [])]])]

theorem turned_canonical : Canonical turned := by
  refine .group (by decide) fun item hitem => ?_
  simp only [List.mem_cons, List.not_mem_nil, or_false] at hitem
  rcases hitem with rfl | rfl
  · exact .leaf ((leafNames_operator (.equals true)).of_perm (.swap _ _ _))
  · exact .group (by decide) (by simp)

theorem turned_round_trip : ∃ f, ofValue turned = .ok f ∧
    Matcher.ofDescription .strict f.toValue = Matcher.ofDescription .strict turned ∧
    Alike f.toValue turned := by
  have hread : ofValue turned = .ok (.any [.leaf (.text "a") (some (.equals true)) (.real .nan),
    .all []]) := rfl
  obtain ⟨-, -, hready, halike⟩ := written_round_trip.2 _ _ hread
  exact ⟨_, hread, hready .strict, halike.mpr turned_canonical⟩

end Tileboard.Filter
