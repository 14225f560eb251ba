import Tileboard.Table.Alignment
import Tileboard.Proofs.Column.Agreement

namespace Tileboard

namespace Table

section Rows

variable {α β : Type}

-- Columns that are read off one list have the items of the list as their rows.
theorem rowsFrom_map (g : String → β → α) (names : List String) (items : List β) :
    rowsFrom items.length (names.map fun name => (name, items.map (g name))) =
      items.map fun item => names.map fun name => (name, g name item) := by
  induction items with
  | nil => rfl
  | cons item rest ih =>
      rw [List.length_cons, rowsFrom, List.map_cons, ← ih]
      congr 1
      · simp [List.filterMap_map, Function.comp_def, List.filterMap_eq_map']
      · simp [List.map_map, Function.comp_def]

theorem lookup_map_name (g : String → α) (name : String) (names : List String) :
    (names.map fun n => (n, g n)).lookup name = if name ∈ names then some (g name) else none := by
  induction names with
  | nil => rfl
  | cons n rest ih =>
      rw [List.map_cons, List.lookup_cons, ih]
      by_cases h : name = n
      · simp [h]
      · simp [h, beq_false_of_ne h]

end Rows

-- A column settles if its whole numbers have a binary64 number next to them.
theorem run_succeeds {cells : List (Option Value)} (h : ∀ k, some (.number (.int k)) ∈ cells →
    ∃ x, (Number.int k).toBinary64? = some x) (s : Survey) : ∃ storage, s.run cells = .ok storage := by
  induction cells generalizing s with
  | nil => exact ⟨_, rfl⟩
  | cons cell rest ih =>
      have ih := ih fun k hk => h k (List.mem_cons_of_mem _ hk)
      match cell with
      | none | some .null => exact ih _
      | some (.number (.real x)) =>
          unfold Survey.run
          split
          · exact ih _
          · exact ih _
      | some (.number (.int k)) =>
          obtain ⟨x, hx⟩ := h k List.mem_cons_self
          unfold Survey.run
          rw [hx, if_neg (by simp)]
          cases s.addWhole k with
          | none => exact ⟨_, rfl⟩
          | some next => exact ih next
      | some (.bool _) | some (.text _) | some (.list _) | some (.object _) => exact ⟨_, rfl⟩

theorem settle_succeeds {cells : List (Option Value)} (h : ∀ k, some (.number (.int k)) ∈ cells →
    ∃ x, (Number.int k).toBinary64? = some x) : ∃ values, settle cells = .ok values := by
  obtain ⟨storage, hstorage⟩ := run_succeeds h .start
  rw [settle, hstorage]
  exact ⟨_, rfl⟩

theorem addWhole_eq_some {s next : Survey} {n : Int} (h : s.addWhole n = some next) :
    next.null = s.null ∧ next.gap = s.gap ∧ next.real = s.real := by
  unfold Survey.addWhole at h
  split at h
  · cases h
    exact ⟨rfl, rfl, rfl⟩
  · dsimp only at h
    split at h
    · cases h
    · cases h
      exact ⟨rfl, rfl, rfl⟩

def isStorable : Option Value → Bool
  | none | some .null | some (.number _) => true
  | some (.bool _) | some (.text _) | some (.list _) | some (.object _) => false

-- A column that stores binary64 numbers has no cells of another kind, and not only whole numbers.
-- Induction on the cells: what has been seen above them counts as well.
theorem storable_of_run {cells : List (Option Value)} {s : Survey} (h : s.run cells = .ok .real) :
    (∀ cell ∈ cells, isStorable cell = true) ∧ ((s.null || s.gap || s.real) = true ∨
      ∃ cell ∈ cells, ∀ n, cell ≠ some (.int n)) := by
  induction cells generalizing s with
  | nil =>
      refine ⟨nofun, .inl ?_⟩
      have hstorage : s.storage = .real := Except.ok.inj h
      unfold Survey.storage at hstorage
      split at hstorage
      · rename_i hseen
        revert hseen
        cases s.null <;> cases s.gap <;> cases s.real <;> simp
      · cases hstorage
  | cons cell rest ih =>
      match cell with
      | none | some .null =>
          exact ⟨List.forall_mem_cons.mpr ⟨rfl, (ih h).1⟩, .inr ⟨_, List.mem_cons_self, nofun⟩⟩
      | some (.number (.real x)) =>
          have hrest : ∀ cell ∈ rest, isStorable cell = true := by
            unfold Survey.run at h
            split at h
            · exact (ih h).1
            · exact (ih h).1
          exact ⟨List.forall_mem_cons.mpr ⟨rfl, hrest⟩, .inr ⟨_, List.mem_cons_self, nofun⟩⟩
      | some (.number (.int k)) =>
          unfold Survey.run at h
          split at h
          · cases h
          · cases hnext : s.addWhole k with
            | none =>
                rw [hnext] at h
                cases h
            | some next =>
                rw [hnext] at h
                obtain ⟨hnull, hgap, hreal⟩ := addWhole_eq_some hnext
                obtain ⟨hrest, hseen⟩ := ih h
                rw [hnull, hgap, hreal] at hseen
                refine ⟨List.forall_mem_cons.mpr ⟨rfl, hrest⟩, hseen.imp_right ?_⟩
                exact fun ⟨cell, hcell, hint⟩ => ⟨cell, List.mem_cons_of_mem _ hcell, hint⟩
      | some (.bool _) | some (.text _) | some (.list _) | some (.object _) => cases h

-- What a table makes of a cell of a record, null where the record has none: a gap becomes
-- NaN, and a whole number may become a binary64 one.
inductive Redrawn : Value → Value → Prop
  | kept (v : Value) : Redrawn v v
  | gap : Redrawn .null (.real .nan)
  | rounded (n : Int) : Redrawn (.int n) (.real (.ofInt n))

theorem redrawn_stored (storage : Storage) (cell : Option Value) :
    Redrawn (cell.getD .null) (stored storage cell) := by
  cases cell with
  | none => cases storage <;> exact .gap
  | some v =>
      cases storage with
      | asGiven => exact .kept v
      | real =>
          cases v with
          | null => exact .gap
          | number n =>
              cases n with
              | int n => exact .rounded n
              | real x => exact .kept _
          | _ => exact .kept _

-- The storage that a column of these records settles on. It is looked at only where the
-- column settles.
def storageOf (rows : List (List (String × Value))) (name : String) : Storage :=
  match Survey.start.run (rows.map (·.lookup name)) with
  | .ok storage => storage
  | .error _ => .asGiven

theorem storable_of_storageOf {rows : List (List (String × Value))} {name : String}
    (h : storageOf rows name = .real) :
    (∀ fields ∈ rows, isStorable (fields.lookup name) = true) ∧
      ∃ fields ∈ rows, ∀ n, fields.lookup name ≠ some (.int n) := by
  unfold storageOf at h
  cases hrun : Survey.start.run (rows.map (·.lookup name)) with
  | error e =>
      rw [hrun] at h
      cases h
  | ok storage =>
      rw [hrun] at h
      cases h
      obtain ⟨hcells, hseen | ⟨cell, hcell, hint⟩⟩ := storable_of_run hrun
      · cases hseen
      · obtain ⟨fields, hfields, rfl⟩ := List.mem_map.mp hcell
        exact ⟨fun _ hfields => hcells _ (List.mem_map_of_mem hfields), fields, hfields, hint⟩

def rowOf (rows : List (List (String × Value))) (fields : List (String × Value)) :
    List (String × Value) :=
  (fieldNames rows).map fun name => (name, stored (storageOf rows name) (fields.lookup name))

theorem redrawn_rowOf {rows : List (List (String × Value))} {fields : List (String × Value)}
    (hfields : fields ∈ rows) (column : Value) :
    SameUpTo Redrawn (Value.cell (.object fields) column)
      (Value.cell (.object (rowOf rows fields)) column) := by
  unfold Value.cell
  cases hkey : column.canBeKey with
  | false => exact .error _
  | true =>
      cases column with
      | text name =>
          simp only [if_true, rowOf, lookup_map_name]
          by_cases hname : name ∈ fieldNames rows
          · rw [if_pos hname]
            exact .ok (redrawn_stored _ _)
          · -- a name that is no column is in no record
            rw [if_neg hname]
            have hnone : fields.lookup name = none := by
              refine Value.lookup_eq_none fun hmem => hname ?_
              simp only [fieldNames, List.mem_eraseDups, List.mem_flatMap]
              exact ⟨fields, hfields, hmem⟩
            rw [hnone]
            exact .ok (.kept _)
      | _ => exact .ok (.kept _)

theorem settle_eq_ok {rows : List (List (String × Value))} {name : String} {cells : List Value}
    (h : settle (rows.map (·.lookup name)) = .ok cells) :
    cells = rows.map fun fields => stored (storageOf rows name) (fields.lookup name) := by
  unfold settle at h
  unfold storageOf
  cases hrun : Survey.start.run (rows.map (·.lookup name)) with
  | error e =>
      rw [hrun] at h
      cases h
  | ok storage =>
      rw [hrun] at h
      cases h
      exact List.map_map

theorem eq_of_ofFields {rows : List (List (String × Value))} {t : Table Value}
    (h : ofFields rows = .ok t) : t = ⟨rows.length, (fieldNames rows).map fun name =>
      (name, rows.map fun fields => stored (storageOf rows name) (fields.lookup name))⟩ := by
  obtain ⟨columns, hcolumns, h⟩ := bind_eq_ok_iff.mp h
  cases h
  congr 1
  rw [← List.forall₂_eq_eq_eq, List.forall₂_map_right_iff]
  refine (mapM_eq_ok hcolumns).flip.imp fun column name hcolumn => ?_
  obtain ⟨cells, hcells, hcolumn⟩ := bind_eq_ok_iff.mp hcolumn
  cases hcolumn
  rw [settle_eq_ok hcells]

theorem ofFields_eq_ok {rows : List (List (String × Value))} {t : Table Value}
    (h : ofFields rows = .ok t) : t.height = rows.length ∧ t.rows = rows.map (rowOf rows) := by
  have hrows := rowsFrom_map (fun name (fields : List (String × Value)) =>
    stored (storageOf rows name) (fields.lookup name)) (fieldNames rows) rows
  rw [eq_of_ofFields h]
  exact ⟨rfl, hrows⟩

theorem fieldsOf_eq_ok {v : Value} {fields : List (String × Value)}
    (h : fieldsOf v = .ok fields) : v = .object fields := by
  cases v with
  | object fields => cases h; rfl
  | _ => cases h

-- The records of a table are objects, and its rows are what became of them.
theorem ofRecords_eq_ok {records : List Value} {t : Table Value} (h : ofRecords records = .ok t) :
    ∃ rows : List (List (String × Value)), records = rows.map .object ∧ t.height = rows.length ∧
      t.rows = rows.map (rowOf rows) := by
  obtain ⟨rows, hrows, h⟩ := bind_eq_ok_iff.mp h
  obtain ⟨hheight, hrowsOf⟩ := ofFields_eq_ok h
  refine ⟨rows, ?_, hheight, hrowsOf⟩
  rw [← List.forall₂_eq_eq_eq, List.forall₂_map_right_iff]
  exact (mapM_eq_ok hrows).imp fun v fields hv => fieldsOf_eq_ok hv

end Table

end Tileboard
