import Mathlib
import Tileboard.Proofs.Measure.Grouping

namespace Tileboard.Measure

section Classes

variable {α : Type} (key : α → Value)

-- The items whose keys are equal to that of an item, and those whose keys are not.
def alike (a : α) (xs : List α) : List α := xs.filter fun b => (key a).equal (key b)

def apart (a : α) (xs : List α) : List α := xs.filter fun b => !(key a).equal (key b)

-- The items of a list with equal keys put together, each class under its first item.
def classes : List α → List (α × List α)
  | [] => []
  | a :: rest => (a, alike key a rest) :: classes (apart key a rest)
termination_by xs => xs.length
decreasing_by exact Nat.lt_succ_of_le (List.length_filter_le _ rest)

def members (c : α × List α) : List α := c.1 :: c.2

-- What the first class leaves over is put into classes in the same way, so all of the following
-- goes by induction on the classes.
theorem classes_perm (xs : List α) : ((classes key xs).flatMap members).Perm xs := by
  induction xs using classes.induct key with
  | case1 => simp [classes]
  | case2 a rest ih =>
      rw [classes, List.flatMap_cons, members, List.cons_append]
      have hsplit : (alike key a rest ++ apart key a rest).Perm rest :=
        List.filter_append_perm _ rest
      exact ((ih.append_left _).trans hsplit).cons a

theorem members_sublist {xs : List α} {c : α × List α} (h : c ∈ classes key xs) :
    (members c).Sublist xs := by
  induction xs using classes.induct key with
  | case1 => simp [classes] at h
  | case2 a rest ih =>
      rw [classes] at h
      rcases List.mem_cons.mp h with rfl | h
      · exact List.filter_sublist.cons_cons a
      · exact ((ih h).trans List.filter_sublist).cons a

theorem firsts_sublist (xs : List α) : ((classes key xs).map Prod.fst).Sublist xs := by
  induction xs using classes.induct key with
  | case1 => simp [classes]
  | case2 a rest ih =>
      rw [classes, List.map_cons]
      exact (ih.trans List.filter_sublist).cons_cons a

theorem equal_of_mem_class {xs : List α} {c : α × List α} (h : c ∈ classes key xs) :
    ∀ b ∈ c.2, (key c.1).equal (key b) = true := by
  induction xs using classes.induct key with
  | case1 => simp [classes] at h
  | case2 a rest ih =>
      rw [classes] at h
      rcases List.mem_cons.mp h with rfl | h
      · intro b hb
        exact (List.mem_filter.mp hb).2
      · exact ih h

theorem classes_distinct (xs : List α) :
    (classes key xs).Pairwise fun c later => (key c.1).equal (key later.1) = false := by
  induction xs using classes.induct key with
  | case1 => simp [classes]
  | case2 a rest ih =>
      rw [classes]
      refine List.Pairwise.cons ?_ ih
      intro later hlater
      have hleft := (firsts_sublist key _).subset (List.mem_map_of_mem (f := Prod.fst) hlater)
      simpa using (List.mem_filter.mp hleft).2

theorem gather_eq_classes (numbers : α → List Binary64) (xs : List α) :
    gather [] (xs.map fun a => (key a, numbers a)) =
      (classes key xs).map fun c => (key c.1, (members c).flatMap numbers) := by
  induction xs using classes.induct key with
  | case1 => simp [classes, gather]
  | case2 a rest ih =>
      rw [classes, List.map_cons, List.map_cons, gather_nil_cons, ← ih]
      simp only [numbersOf, members, alike, apart, List.filter_map, List.flatMap_map,
        List.flatMap_cons]
      rfl

end Classes

variable {matcher : Option Matcher} {column field filterType : Value} {metric : Option Metric}
  {active kept : List Value}

-- A group of rows with their places among all rows, its key, and the numbers of the rows.
structure Group where
  key : Value
  first : Value × Nat
  others : List (Value × Nat)
  numbers : List Binary64

namespace Group

def rows (g : Group) : List (Value × Nat) := g.first :: g.others

-- A group is made from its rows: the key is that of the first and equal to those of the others,
-- and the numbers are those of the rows, which are in their order.
structure Made (column field : Value) (g : Group) : Prop where
  key : ∃ cell, g.first.1.cell column = .ok cell ∧ g.key = keyOf cell
  alike : ∀ row ∈ g.others, ∃ cell, row.1.cell column = .ok cell ∧ g.key.equal (keyOf cell) = true
  numbers : numbersIn field (g.rows.map Prod.fst) = .ok g.numbers
  nonempty : g.numbers ≠ []
  inOrder : g.rows.Pairwise fun row later => row.2 < later.2

-- Groups share out the rows that match and have a number: each such row is in just one group, no
-- other row is in any, the keys are different, and a group comes before those first seen later.
structure ShareOut (matcher : Option Matcher) (field : Value) (active : List Value)
    (groups : List Group) : Prop where
  complete : ∀ row place, (row, place) ∈ groups.flatMap rows ↔
    active[place]? = some row ∧ (wants matcher row).result = .ok true ∧
      ∃ x, numbersIn field [row] = .ok [x]
  once : (groups.flatMap rows).Nodup
  distinct : groups.Pairwise fun g later => g.key.equal later.key = false
  firstSeen : groups.Pairwise fun g later => g.first.2 < later.first.2

def ShownAs (column filterType : Value) (metric : Option Metric) (g : Group) (tile : Value) :
    Prop :=
  ∃ value, Metric.aggregate metric g.numbers = .ok value ∧
    tile = groupTile column filterType g.key value

end Group

section Counted

def keyAt (column row : Value) : Value :=
  match row.cell column with
  | .ok cell => keyOf cell
  | .error _ => .null

theorem keyAt_of_cell {row cell : Value} (h : row.cell column = .ok cell) :
    keyAt column row = keyOf cell := by
  rw [keyAt, h]

theorem numbersIn_eq_singleton {row : Value} (h : numbersAt field row ≠ []) :
    ∃ x, numbersIn field [row] = .ok [x] := by
  cases hrow : numbersIn field [row] with
  | error e => simp [numbersAt, hrow] at h
  | ok numbers =>
      have hat : numbersAt field row = numbers := by rw [numbersAt, hrow]
      obtain ⟨cell, -, hnumbers⟩ := bind_eq_ok_iff.mp hrow
      obtain ⟨number, -, hnumbers⟩ := bind_eq_ok_iff.mp hnumbers
      cases number with
      | none =>
          cases hnumbers
          exact absurd hat h
      | some x =>
          cases hnumbers
          exact ⟨x, rfl⟩

def counts (matcher : Option Matcher) (field row : Value) : Bool :=
  (wants matcher row).isTrue && !(numbersAt field row).isEmpty

def counted (matcher : Option Matcher) (field : Value) (active : List Value) :
    List (Value × Nat) :=
  active.zipIdx.filter fun row => counts matcher field row.1

theorem counted_places (matcher : Option Matcher) (field : Value) (active : List Value) :
    (counted matcher field active).Pairwise fun row later => row.2 < later.2 := by
  have hplaces : active.zipIdx.Pairwise fun row later => row.2 < later.2 := by
    rw [← List.pairwise_map (f := Prod.snd) (R := (· < ·)), List.zipIdx_map_snd]
    exact List.pairwise_lt_range'
  exact hplaces.sublist List.filter_sublist

theorem mem_counted_iff (hanswers : ∀ row ∈ active, (wants matcher row).Answers) {row : Value}
    {place : Nat} : (row, place) ∈ counted matcher field active ↔
      active[place]? = some row ∧ (wants matcher row).result = .ok true ∧
        ∃ x, numbersIn field [row] = .ok [x] := by
  rw [counted, List.mem_filter, List.mem_zipIdx_iff_getElem?, counts, Bool.and_eq_true]
  refine and_congr_right fun hplace => and_congr ?_ ?_
  · have hrow := (hanswers row (List.mem_of_getElem? hplace)).result_eq
    simp [hrow]
  · constructor
    · intro h
      exact numbersIn_eq_singleton (by simpa using h)
    · rintro ⟨x, hx⟩
      simp [numbersAt, hx]

theorem counted_map_fst (matcher : Option Matcher) (field : Value) (active : List Value) :
    (counted matcher field active).map Prod.fst =
      (active.filter fun row => (wants matcher row).isTrue).filter
        fun row => !(numbersAt field row).isEmpty := by
  have hrows : (counted matcher field active).map Prod.fst =
      (active.zipIdx.map Prod.fst).filter (counts matcher field) := by
    rw [List.filter_map]
    rfl
  rw [hrows, List.zipIdx_map_fst, List.filter_filter]
  exact List.filter_congr fun row _ => Bool.and_comm _ _

-- Leaving out the rows without a number leaves out no number.
theorem flatMap_counted (h : kept = active.filter fun row => (wants matcher row).isTrue) :
    ((counted matcher field active).flatMap fun row => numbersAt field row.1) =
      kept.flatMap (numbersAt field) := by
  have hmap := List.flatMap_map (f := Prod.fst) (g := numbersAt field)
    (l := counted matcher field active)
  rw [← hmap, counted_map_fst, ← h]
  clear h hmap
  induction kept with
  | nil => rfl
  | cons row rest ih =>
      rw [List.flatMap_cons, ← ih, List.filter_cons]
      cases hnumbers : numbersAt field row with
      | nil => simp
      | cons x others => simp [hnumbers]

theorem entries_eq_map (hfiled : ∀ row ∈ kept, Filed column field row) :
    kept.filterMap (entryAt? column field) =
      (kept.filter fun row => !(numbersAt field row).isEmpty).map
        fun row => (keyAt column row, numbersAt field row) := by
  rw [← List.filterMap_eq_map, List.filterMap_filter]
  refine List.filterMap_congr fun row hrow => ?_
  obtain ⟨cell, hcell⟩ := (hfiled row hrow).cell
  rw [entryAt?, hcell]
  cases (numbersAt field row).isEmpty with
  | true => rfl
  | false => simp [keyAt_of_cell hcell]

end Counted

section Groups

def groupOf (column field : Value) (c : (Value × Nat) × List (Value × Nat)) : Group where
  key := keyAt column c.1.1
  first := c.1
  others := c.2
  numbers := (members c).flatMap fun row => numbersAt field row.1

def groupsOf (column field : Value) (rows : List (Value × Nat)) : List Group :=
  (classes (fun row => keyAt column row.1) rows).map (groupOf column field)

theorem groupsOf_rows (column field : Value) (rows : List (Value × Nat)) :
    ((groupsOf column field rows).flatMap Group.rows).Perm rows := by
  rw [groupsOf, List.flatMap_map]
  exact classes_perm _ rows

theorem groupsOf_numbers (column field : Value) (rows : List (Value × Nat)) :
    ((groupsOf column field rows).flatMap Group.numbers).Perm
      (rows.flatMap fun row => numbersAt field row.1) := by
  have h := (classes_perm (fun row : Value × Nat => keyAt column row.1) rows).flatMap_right
    fun row => numbersAt field row.1
  rw [List.flatMap_assoc] at h
  rwa [groupsOf, List.flatMap_map]

theorem groupsOf_shareOut (hanswers : ∀ row ∈ active, (wants matcher row).Answers) :
    Group.ShareOut matcher field active
      (groupsOf column field (counted matcher field active)) where
  complete row place := by
    rw [(groupsOf_rows _ _ _).mem_iff, mem_counted_iff hanswers]
  once := by
    rw [(groupsOf_rows _ _ _).nodup_iff]
    refine (counted_places matcher field active).imp fun hlt heq => ?_
    rw [heq] at hlt
    exact lt_irrefl _ hlt
  distinct := by
    rw [groupsOf, List.pairwise_map]
    exact classes_distinct (fun row : Value × Nat => keyAt column row.1) _
  firstSeen := by
    have hfirsts := (counted_places matcher field active).sublist
      (firsts_sublist (fun row : Value × Nat => keyAt column row.1) _)
    rw [List.pairwise_map] at hfirsts
    rw [groupsOf, List.pairwise_map]
    exact hfirsts

theorem groupsOf_made
    (hcells : ∀ row ∈ counted matcher field active, ∃ cell, row.1.cell column = .ok cell)
    (hnumbers : ∀ row ∈ counted matcher field active,
      numbersIn field [row.1] = .ok (numbersAt field row.1) ∧ numbersAt field row.1 ≠ []) :
    ∀ g ∈ groupsOf column field (counted matcher field active), g.Made column field := by
  intro g hg
  obtain ⟨c, hc, rfl⟩ := List.mem_map.mp hg
  have hsub := members_sublist (fun row : Value × Nat => keyAt column row.1) hc
  have hfirst : c.1 ∈ members c := List.mem_cons_self
  constructor
  · obtain ⟨cell, hcell⟩ := hcells c.1 (hsub.subset hfirst)
    exact ⟨cell, hcell, keyAt_of_cell hcell⟩
  · intro row hrow
    obtain ⟨cell, hcell⟩ := hcells row (hsub.subset (List.mem_cons_of_mem _ hrow))
    have hequal := equal_of_mem_class (fun row : Value × Nat => keyAt column row.1) hc row hrow
    simp only [keyAt_of_cell hcell] at hequal
    exact ⟨cell, hcell, hequal⟩
  · have hrows : ∀ row ∈ (members c).map Prod.fst,
        numbersIn field [row] = .ok (numbersAt field row) := by
      intro row hrow
      obtain ⟨r, hr, rfl⟩ := List.mem_map.mp hrow
      exact (hnumbers r (hsub.subset hr)).1
    have hall := numbersIn_eq_flatMap hrows
    rwa [List.flatMap_map] at hall
  · intro hnone
    have hne := (hnumbers c.1 (hsub.subset hfirst)).2
    exact hne (List.flatMap_eq_nil_iff.mp hnone c.1 hfirst)
  · exact (counted_places matcher field active).sublist hsub

-- What is gathered from the entries of the rows that match are these groups.
theorem gather_eq_groupsOf (hfiled : ∀ row ∈ kept, Filed column field row)
    (hfilter : kept = active.filter fun row => (wants matcher row).isTrue) :
    gather [] (kept.filterMap (entryAt? column field)) =
      (groupsOf column field (counted matcher field active)).map fun g => (g.key, g.numbers) := by
  rw [entries_eq_map hfiled, hfilter, ← counted_map_fst, List.map_map, groupsOf, List.map_map]
  exact gather_eq_classes (fun row : Value × Nat => keyAt column row.1)
    (fun row => numbersAt field row.1) (counted matcher field active)

-- The tiles show the groups of the rows that match and have a number. Nothing is lost and nothing
-- counted twice: the numbers of the groups together are those of all rows that match.
theorem grouped_shares_out {o : Outcome}
    (h : (grouped matcher column field metric filterType active).result = .ok o) :
    ∃ tiles kept numbers groups, o.groups = some tiles ∧
      (matching matcher active).result = .ok kept ∧ numbersIn field kept = .ok numbers ∧
      Group.ShareOut matcher field active groups ∧
      (∀ g ∈ groups, g.Made column field ∧ g.numbers.Sublist numbers) ∧
      (groups.flatMap Group.numbers).Perm numbers ∧
      List.Forall₂ (Group.ShownAs column filterType metric) groups tiles := by
  obtain ⟨tiles, kept, ho, hkept, hfiled, htiles⟩ := grouped_eq_tiles h
  have hkeep := hkept
  rw [matching_eq_keep] at hkeep
  obtain ⟨hanswers, hfilter⟩ := Selection.keep_eq_ok hkeep
  have hnumbers := numbersIn_eq_flatMap fun row hrow => (hfiled row hrow).numbers
  have hcounted : ∀ row ∈ counted matcher field active,
      row.1 ∈ kept ∧ numbersAt field row.1 ≠ [] := by
    intro row hrow
    have hmem := List.mem_map_of_mem (f := Prod.fst) hrow
    rw [counted_map_fst, ← hfilter] at hmem
    simpa using hmem
  refine ⟨tiles, kept, _, groupsOf column field (counted matcher field active), ho, hkept,
    hnumbers, groupsOf_shareOut hanswers, ?_, ?_, ?_⟩
  · intro g hg
    refine ⟨groupsOf_made (fun row hrow => (hfiled row.1 (hcounted row hrow).1).cell)
      (fun row hrow => ⟨(hfiled row.1 (hcounted row hrow).1).numbers, (hcounted row hrow).2⟩) g hg,
      ?_⟩
    obtain ⟨c, hc, rfl⟩ := List.mem_map.mp hg
    rw [← flatMap_counted hfilter]
    exact (members_sublist _ hc).flatMap fun row => numbersAt field row.1
  · rw [← flatMap_counted hfilter]
    exact groupsOf_numbers _ _ _
  · rw [gather_eq_groupsOf hfiled hfilter, List.forall₂_map_left_iff] at htiles
    exact htiles

-- Keys that meet: true and one, a missing cell and the text that stands for it. The row without a
-- number opens no group.
def mixed : List Value :=
  [.object [("w", .bool true), ("q", .int 1)], .object [("q", .int 2)],
    .object [("w", .text "Main"), ("q", .text "n/a")], .object [("w", .int 1), ("q", .int 3)],
    .object [("w", .text "Unknown"), ("q", .int 4)], .object [("w", .text "Main"), ("q", .int 5)]]

def mixedTiles : List Value :=
  [groupTile (.text "w") .null (.bool true) (.real (Statistics.sum [.ofInt 1, .ofInt 3])),
    groupTile (.text "w") .null unknownKey (.real (Statistics.sum [.ofInt 2, .ofInt 4])),
    groupTile (.text "w") .null (.text "Main") (.real (Statistics.sum [.ofInt 5]))]

theorem mixed_shared_out :
    (grouped none (.text "w") (.text "q") (some .sum) .null mixed).result =
      .ok ⟨.null, .null, Outcome.unchanged, some mixedTiles⟩ ∧
    ∃ groups, Group.ShareOut none (.text "q") mixed groups ∧
      (groups.flatMap Group.numbers).Perm [.ofInt 1, .ofInt 2, .ofInt 3, .ofInt 4, .ofInt 5] ∧
      List.Forall₂ (Group.ShownAs (.text "w") .null (some .sum)) groups mixedTiles := by
  have h : (grouped none (.text "w") (.text "q") (some .sum) .null mixed).result =
      .ok ⟨.null, .null, Outcome.unchanged, some mixedTiles⟩ := rfl
  obtain ⟨tiles, kept, numbers, groups, htiles, hkept, hnumbers, hshare, -, hperm, hshown⟩ :=
    grouped_shares_out h
  cases htiles
  cases hkept
  cases hnumbers
  exact ⟨h, groups, hshare, hperm, hshown⟩

end Groups

end Tileboard.Measure
