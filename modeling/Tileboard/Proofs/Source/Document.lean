import Tileboard.Source.Document
import Tileboard.Proofs.Lists
import Tileboard.Proofs.Number.Whole
import Tileboard.Proofs.Table.Record
import Tileboard.Proofs.Table.Rows
import Tileboard.Proofs.Value.WellFormed

namespace Tileboard

namespace Table

section Putting

variable {fields more : List (String × Value)}

-- Fields under names that are all different are put one behind the other.
theorem putAll_of_nodup (h : ((fields ++ more).map Prod.fst).Nodup) :
    Pass.putAll fields more = fields ++ more := by
  unfold Pass.putAll
  induction more generalizing fields with
  | nil => rw [List.foldl_nil, List.append_nil]
  | cons field rest ih =>
      have hfield : field.1 ∉ fields.map Prod.fst := by
        rw [List.map_append, List.map_cons, List.nodup_middle, List.nodup_cons] at h
        exact fun hmem => h.1 (List.mem_append_left _ hmem)
      rw [List.foldl_cons, Value.putField_of_notMem hfield, ih (by simpa using h)]
      simp

end Putting

-- A row of columns with different names is a record as it stands.
theorem record_of_nodup {row : List (String × Cell)} (h : (row.map Prod.fst).Nodup) :
    record row = .object (row.map (Prod.map id Cell.plain)) := by
  have hnames : (([] ++ row.map (Prod.map id Cell.plain)).map Prod.fst).Nodup := by
    simpa [List.map_map, Function.comp_def] using h
  have hrecord : record row = .object (Pass.putAll [] (row.map (Prod.map id Cell.plain))) := by
    rw [Pass.putAll, List.foldl_map]
    rfl
  rw [hrecord, putAll_of_nodup hnames, List.nil_append]

section Records

variable {rows : List (List (String × Value))}

theorem nodup_fieldNames (rows : List (List (String × Value))) : (fieldNames rows).Nodup :=
  nodup_eraseDups _

theorem ofFields_succeeds (h : ∀ fields ∈ rows, ∀ name k, (name, .number (.int k)) ∈ fields →
    ∃ x, (Number.int k).toBinary64? = some x) : ∃ t, ofFields rows = .ok t := by
  have hcolumn : ∀ name ∈ fieldNames rows, ∃ column : String × List Value,
      (do return (name, ← settle (rows.map (·.lookup name)))) = Except.ok column := by
    intro name _
    obtain ⟨values, hvalues⟩ := settle_succeeds fun k hk => by
      obtain ⟨fields, hfields, hlookup⟩ := List.mem_map.mp hk
      exact h fields hfields name k (mem_of_lookup hlookup)
    refine ⟨(name, values), ?_⟩
    rw [hvalues]
    rfl
  obtain ⟨columns, hcolumns⟩ := mapM_succeeds_iff.mpr hcolumn
  refine ⟨⟨rows.length, columns⟩, ?_⟩
  rw [ofFields, hcolumns]
  rfl

end Records

end Table

namespace Document

open Table (fieldNames storageOf stored)

def restored (rows : List (List (String × Value))) (fields : List (String × Value)) :
    List (String × Value) :=
  (fieldNames rows).map fun name =>
    (name, (Cell.value (stored (storageOf rows name) (fields.lookup name))).plain)

-- Records that a document gives back in number and with their names: whole numbers are of 64 bits,
-- there is a field if there is a record, and the labels stay as they are.
structure Tabular (rows : List (List (String × Value))) : Prop where
  whole : ∀ fields ∈ rows, ∀ name (n : Int), (name, .int n) ∈ fields →
    -int64Bound ≤ n ∧ n < uint64Bound
  named : fieldNames rows = [] → rows = []
  labels : Label.settle (fieldNames rows) = fieldNames rows

section Records

variable {rows : List (List (String × Value))}

theorem near_of_64_bits {n : Int} (h : -int64Bound ≤ n ∧ n < uint64Bound) :
    ∃ x, (Number.int n).toBinary64? = some x := by
  have hbits : n.natAbs ≤ uint64Bound := by
    unfold int64Bound at h
    unfold uint64Bound at h ⊢
    omega
  have hmost : uint64Bound ≤ Binary64.greatestWhole := by decide +kernel
  exact ⟨_, if_pos (Binary64.isFinite_ofQuotient_one _ (hbits.trans hmost))⟩

theorem withLabels_of_settled {t : Table Value}
    (h : Label.settle (t.columns.map Prod.fst) = t.columns.map Prod.fst) : withLabels t = t := by
  unfold withLabels
  dsimp only
  rw [h, ← List.zip_of_prod rfl rfl]

theorem toTable_of_tabular (h : Tabular rows) : ∃ t, toTable (.list (rows.map .object)) = .ok t ∧
    t = ⟨rows.length, (fieldNames rows).map fun name =>
      (name, rows.map fun fields => stored (storageOf rows name) (fields.lookup name))⟩ := by
  obtain ⟨t, ht⟩ := Table.ofFields_succeeds fun fields hfields name n hn =>
    near_of_64_bits (h.whole fields hfields name n hn)
  have heq := Table.eq_of_ofFields ht
  cases rows with
  | nil => exact ⟨_, rfl, rfl⟩
  | cons first rest =>
      have hfields : ((first :: rest).map Value.object).mapM Table.fieldsOf =
          .ok (first :: rest) := by
        rw [List.mapM_map]
        exact mapM_of_forall₂ (List.forall₂_same.mpr fun _ _ => rfl)
      have hrecords : Table.ofRecords ((first :: rest).map Value.object) = .ok t := by
        rw [Table.ofRecords, hfields]
        exact ht
      have hlabels : withLabels t = t := by
        refine withLabels_of_settled ?_
        have hnames : t.columns.map Prod.fst = fieldNames (first :: rest) := by
          rw [heq]
          simp [List.map_map, Function.comp_def]
        rw [hnames, h.labels]
      refine ⟨t, ?_, heq⟩
      change (Table.ofRecords ((first :: rest).map Value.object)).map withLabels = .ok t
      rw [hrecords, Except.map, hlabels]

theorem isEmpty_of_named (h : Tabular rows) (cells : String → List Cell) :
    Table.isEmpty ⟨rows.length, (fieldNames rows).map fun name => (name, cells name)⟩ =
      rows.isEmpty := by
  have hnamed := h.named
  unfold Table.isEmpty
  cases rows with
  | nil => rfl
  | cons first rest =>
      cases hnames : fieldNames (first :: rest) with
      | nil => cases hnamed hnames
      | cons name names => rfl

theorem records_of_read (h : Tabular rows) {s : String}
    (hread : Json.readAs? dialect s = some (.list (rows.map .object))) : ∃ t, read s = .ok t ∧
      t.records = rows.map fun fields => .object (restored rows fields) := by
  obtain ⟨t, ht, heq⟩ := toTable_of_tabular h
  have hcolumns : t.mapColumns (fun cells => cells.map Cell.value) =
      ⟨rows.length, (fieldNames rows).map fun name => (name, rows.map fun fields =>
        Cell.value (stored (storageOf rows name) (fields.lookup name)))⟩ := by
    rw [heq]
    simp [Table.mapColumns, List.map_map, Function.comp_def]
  have hdocument : read s = .ok (t.mapColumns fun cells => cells.map Cell.value) := by
    rw [read, hread]
    dsimp only
    rw [ht]
    rfl
  refine ⟨_, hdocument, ?_⟩
  rw [hcolumns, Table.records, isEmpty_of_named h]
  have hrows := Table.rowsFrom_map (fun name (fields : List (String × Value)) =>
    Cell.value (stored (storageOf rows name) (fields.lookup name))) (fieldNames rows) rows
  rw [Table.rows, hrows, List.map_map]
  have hrecord : ∀ fields, Table.record ((fieldNames rows).map fun name =>
      (name, Cell.value (stored (storageOf rows name) (fields.lookup name)))) =
        .object (restored rows fields) := by
    intro fields
    rw [Table.record_of_nodup (by
      simpa [List.map_map, Function.comp_def] using Table.nodup_fieldNames rows), restored]
    simp [List.map_map, Function.comp_def]
  cases rows with
  | nil => rfl
  | cons first rest => exact List.map_congr_left fun fields _ => hrecord fields

-- Records that a document gives back with their cells.
structure Exact (rows : List (List (String × Value))) : Prop where
  whole : ∀ name, storageOf rows name = .real → ∀ fields ∈ rows, ∀ n,
    fields.lookup name ≠ some (.int n)
  number : ∀ fields ∈ rows, ∀ name, fields.lookup name ≠ some (.real .nan)

-- A column in which whole numbers stay what they are: there are none, or nothing else is in it, or
-- something that is neither a number nor null.
def Steady (rows : List (List (String × Value))) (name : String) : Prop :=
  (∀ fields ∈ rows, ∀ n, fields.lookup name ≠ some (.int n)) ∨
    (∀ fields ∈ rows, ∃ n, fields.lookup name = some (.int n)) ∨
    ∃ fields ∈ rows, Table.isStorable (fields.lookup name) = false

theorem exact_of_steady (hsteady : ∀ name, Steady rows name)
    (hnumber : ∀ fields ∈ rows, ∀ name, fields.lookup name ≠ some (.real .nan)) : Exact rows := by
  refine ⟨fun name hstorage fields hfields n hn => ?_, hnumber⟩
  obtain ⟨hstorable, other, hother, hint⟩ := Table.storable_of_storageOf hstorage
  rcases hsteady name with hnone | hall | ⟨odd, hodd, hkind⟩
  · exact hnone fields hfields n hn
  · obtain ⟨k, hk⟩ := hall other hother
    exact hint k hk
  · rw [hstorable odd hodd] at hkind
    cases hkind

theorem lookup_restored (fields : List (String × Value)) (name : String) :
    (restored rows fields).lookup name = if name ∈ fieldNames rows then
      some (Cell.value (stored (storageOf rows name) (fields.lookup name))).plain else none :=
  Table.lookup_map_name _ name (fieldNames rows)

theorem lookup_eq_none_of_unnamed {fields : List (String × Value)} (hfields : fields ∈ rows)
    {name : String} (hname : name ∉ fieldNames rows) : fields.lookup name = none := by
  refine Value.lookup_eq_none fun hmem => hname ?_
  simp only [fieldNames, List.mem_eraseDups, List.mem_flatMap]
  exact ⟨fields, hfields, hmem⟩

theorem plain_real_eq_iff (x : Binary64) :
    (Cell.value (.real x)).plain = .real x ↔ x ≠ .nan := by
  cases x with
  | nan => exact iff_of_false nofun (fun h => h rfl)
  | infinite negative => exact iff_of_true rfl nofun
  | finite negative mantissa exponent h => exact iff_of_true rfl nofun

-- A cell comes out of a column as it was, unless it is NaN or a whole number among binary64 ones.
theorem plain_stored_eq_iff (storage : Table.Storage) (cell : Option Value) :
    (Cell.value (stored storage cell)).plain = cell.getD .null ↔
      (storage = .real → ∀ n, cell ≠ some (.int n)) ∧ cell ≠ some (.real .nan) := by
  match storage, cell with
  | .asGiven, none | .real, none => exact iff_of_true rfl ⟨nofun, nofun⟩
  | .asGiven, some (.number (.real x)) | .real, some (.number (.real x)) =>
      refine (plain_real_eq_iff x).trans ?_
      simp [Value.int, Value.real]
  | .asGiven, some (.number (.int n)) => exact iff_of_true rfl ⟨nofun, nofun⟩
  | .real, some (.number (.int n)) =>
      refine iff_of_false ?_ fun h => h.1 rfl n rfl
      change ¬ (Cell.value (.real (.ofInt n))).plain = .number (.int n)
      unfold Cell.plain
      dsimp only [Value.real]
      split <;> nofun
  | .asGiven, some .null | .asGiven, some (.bool _) | .asGiven, some (.text _)
  | .asGiven, some (.list _) | .asGiven, some (.object _) => exact iff_of_true rfl ⟨nofun, nofun⟩
  | .real, some .null | .real, some (.bool _) | .real, some (.text _) | .real, some (.list _)
  | .real, some (.object _) => exact iff_of_true rfl ⟨nofun, nofun⟩

-- The records of the document have the cells of those written in it just if these are exact.
theorem restored_cells_iff : (∀ fields ∈ rows, ∀ name,
    ((restored rows fields).lookup name).getD .null = (fields.lookup name).getD .null) ↔
      Exact rows := by
  constructor
  · intro h
    have hcell : ∀ fields ∈ rows, ∀ name, name ∈ fieldNames rows →
        (storageOf rows name = .real → ∀ n, fields.lookup name ≠ some (.int n)) ∧
          fields.lookup name ≠ some (.real .nan) := by
      intro fields hfields name hname
      have hsame := h fields hfields name
      rw [lookup_restored, if_pos hname] at hsame
      exact (plain_stored_eq_iff _ _).mp hsame
    refine ⟨fun name hstorage fields hfields n hn => ?_, fun fields hfields name hnan => ?_⟩
    · by_cases hname : name ∈ fieldNames rows
      · exact (hcell fields hfields name hname).1 hstorage n hn
      · cases (lookup_eq_none_of_unnamed hfields hname).symm.trans hn
    · by_cases hname : name ∈ fieldNames rows
      · exact (hcell fields hfields name hname).2 hnan
      · cases (lookup_eq_none_of_unnamed hfields hname).symm.trans hnan
  · intro h fields hfields name
    rw [lookup_restored]
    by_cases hname : name ∈ fieldNames rows
    · rw [if_pos hname]
      exact (plain_stored_eq_iff _ _).mpr
        ⟨fun hstorage n => h.whole name hstorage fields hfields n, h.number fields hfields name⟩
    · rw [if_neg hname, lookup_eq_none_of_unnamed hfields hname]

-- A record with all of the fields that occur in any of them, null where it has none.
def padded (rows : List (List (String × Value))) (fields : List (String × Value)) :
    List (String × Value) :=
  (fieldNames rows).map fun name => (name, (fields.lookup name).getD .null)

theorem restored_of_exact (h : Exact rows) {fields : List (String × Value)}
    (hfields : fields ∈ rows) : restored rows fields = padded rows fields := by
  refine List.map_congr_left fun name _ => ?_
  rw [(plain_stored_eq_iff _ _).mpr
    ⟨fun hstorage n => h.whole name hstorage fields hfields n, h.number fields hfields name⟩]

theorem lookup_padded {fields : List (String × Value)} (hfields : fields ∈ rows) (name : String) :
    ((padded rows fields).lookup name).getD .null = (fields.lookup name).getD .null := by
  have hlookup : (padded rows fields).lookup name =
      if name ∈ fieldNames rows then some ((fields.lookup name).getD .null) else none :=
    Table.lookup_map_name _ name (fieldNames rows)
  rw [hlookup]
  by_cases hname : name ∈ fieldNames rows
  · rw [if_pos hname]
    rfl
  · rw [if_neg hname, lookup_eq_none_of_unnamed hfields hname]

-- A record that has all of the fields, in their order, is given back as it is.
theorem padded_of_names {fields : List (String × Value)} (hnodup : (fields.map Prod.fst).Nodup)
    (hnames : fields.map Prod.fst = fieldNames rows) : padded rows fields = fields := by
  have hsame : ∀ field ∈ fields,
      (field.1, (fields.lookup field.1).getD .null) = id field := fun field hfield => by
    rw [Value.lookup_of_mem hnodup hfield]
    rfl
  rw [padded, ← hnames, List.map_map]
  exact (List.map_congr_left hsame).trans (List.map_id _)

-- A record that has all of the fields is given back in another order of them at most.
theorem padded_perm {fields : List (String × Value)} (hfields : fields ∈ rows)
    (hnames : (fields.map Prod.fst).Nodup) (hall : fieldNames rows ⊆ fields.map Prod.fst) :
    (padded rows fields).Perm fields := by
  have hnodup : (padded rows fields).Nodup := by
    refine List.Nodup.of_map Prod.fst ?_
    rw [padded, List.map_map]
    simpa [Function.comp_def] using Table.nodup_fieldNames rows
  rw [List.perm_ext_iff_of_nodup hnodup hnames.of_map]
  rintro ⟨name, v⟩
  have hname : name ∈ fields.map Prod.fst → name ∈ fieldNames rows := fun hmem => by
    simp only [fieldNames, List.mem_eraseDups, List.mem_flatMap]
    exact ⟨fields, hfields, hmem⟩
  constructor
  · intro h
    obtain ⟨other, hother, heq⟩ := List.mem_map.mp h
    obtain ⟨w, hw⟩ := exists_lookup_of_mem (hall hother)
    cases heq
    rw [hw]
    exact mem_of_lookup hw
  · intro h
    have hlookup := Value.lookup_of_mem hnames h
    refine List.mem_map.mpr ⟨name, hname (List.mem_map_of_mem h), ?_⟩
    rw [hlookup]
    rfl

end Records

theorem canBeKey_of_takeNumber {cs rest : List Char} {v : Value}
    (h : takeNumber? cs = some (v, rest)) : v.canBeKey = true := by
  unfold takeNumber? at h
  dsimp only at h
  -- whichever parts the number has, it is taken as whole or as a binary64 one
  repeat' split at h
  all_goals first | cases h; rfl | cases h

theorem plain_dialect : dialect.Plain := by
  intro cs v rest h
  change takeScalar? cs = some (v, rest) at h
  unfold takeScalar? at h
  split at h
  · rename_i answer hword
    cases h
    obtain ⟨⟨word, w⟩, hmem, hdrop⟩ := List.exists_of_findSome?_eq_some hword
    obtain ⟨after, -, heq⟩ := Option.map_eq_some_iff.mp hdrop
    cases heq
    have hkeys : ∀ entry ∈ words, entry.2.canBeKey = true := by decide
    exact hkeys _ hmem
  · split at h
    · split at h
      · exact canBeKey_of_takeNumber h
      · cases h
    · cases h

end Document
end Tileboard
