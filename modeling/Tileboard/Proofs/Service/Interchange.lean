import Tileboard.Proofs.Column.Board
import Tileboard.Proofs.Service.Records
import Tileboard.Proofs.Source.Written

namespace Tileboard

def Value.SameCells (row other : Value) : Prop := ∀ column, row.cell column = other.cell column

theorem Value.SameCells.agreesOn {row other : Value} (h : SameCells row other)
    (columns : List Value) : AgreesOn columns row other := fun column _ => h column

theorem Value.sameCells_object_iff {fields others : List (String × Value)} :
    SameCells (.object fields) (.object others) ↔
      ∀ name, (fields.lookup name).getD .null = (others.lookup name).getD .null := by
  constructor
  · intro h name
    exact Except.ok.inj (h (.text name))
  · intro h column
    have hagree : AgreesOn [column] (.object fields) (.object others) :=
      agreesOn_of_lookup fun name _ => h name
    exact hagree.cell_eq

namespace Service

section Work

variable {h : Host} {rows others : List Value}

theorem tiles_eq {pass : Pass} {r : TilesRequest}
    (hrows : List.Forall₂ Value.SameCells rows others) :
    h.tiles pass r rows = h.tiles pass r others := by
  have hagree := hrows.imp fun _ _ hrow => hrow.agreesOn
    (.text h.settings.dateColumn :: Tile.mentioned (.list r.tiles))
  refine (Traced.Related.lift (Board.windows_related hagree List.mem_cons_self)).bind_eq
    fun w other hw => ?_
  rw [Pass.run_eq hw (List.subset_cons_self _ _), Windows.counts_eq hw]

theorem board_eq {r : BoardRequest} (hrows : List.Forall₂ Value.SameCells rows others) :
    h.board r rows = h.board r others :=
  Board.compute_eq (hrows.imp fun _ _ hrow => hrow.agreesOn _)

-- Rows that no column tells apart are kept or left out together.
theorem apply_related {R : Value → Value → Prop} {mode : Mode} {fs : List Filter}
    (hR : ∀ row other, R row other → row.SameCells other) (hrows : List.Forall₂ R rows others) :
    Traced.Related (List.Forall₂ R) (Selection.apply id mode fs rows)
      (Selection.apply id mode fs others) := by
  have hidle : Selection.isIdle fs rows = Selection.isIdle fs others := by cases hrows <;> rfl
  unfold Selection.apply
  rw [hidle]
  cases Selection.isIdle fs others with
  | true => exact .ok [] hrows
  | false =>
      refine (Traced.Related.refl (Matcher.ofFilters mode fs)).bind ?_
      rintro ms _ rfl
      exact Selection.keep_related hrows fun row other hrow =>
        Matcher.acceptsAll_eq ms ((hR row other hrow).agreesOn _)

theorem filtered_related {R : Value → Value → Prop} {r : RecordsRequest}
    (hR : ∀ row other, R row other → row.SameCells other) (hrows : List.Forall₂ R rows others) :
    Traced.Related (fun v u => ∃ kept keptOthers, List.Forall₂ R kept keptOthers ∧
        v = .object [("total", .int kept.length), ("records", .list (paged kept r.limit))] ∧
        u = .object [("total", .int keptOthers.length),
          ("records", .list (paged keptOthers r.limit))])
      (h.filtered r rows) (h.filtered r others) := by
  refine (Traced.Related.refl (liftM (h.filters r))).bind ?_
  rintro fs _ rfl
  refine (apply_related hR hrows).bind fun kept keptOthers hkept => .ok [] ?_
  rw [take_toNat_eq_paged kept, take_toNat_eq_paged keptOthers]
  exact ⟨kept, keptOthers, hkept, rfl, rfl⟩

end Work

-- Two bodies that are the same but that one carries records and the other names a source.
structure Interchanged (records : List Value) (source : String) (body other : Value) : Prop where
  records : body.field? "records" = some (.list records)
  unsourced : body.field? "source" = none
  source : other.field? "source" = some (.text source)
  unrecorded : other.field? "records" = none
  shared : ∀ name, name ≠ "records" → name ≠ "source" → body.field? name = other.field? name

namespace Interchanged

variable {rows : List (List (String × Value))} {source : String} {body other : Value}

theorem shared_of (h : Interchanged (rows.map .object) source body other) {names : List String}
    (hrecords : "records" ∉ names) (hsource : "source" ∉ names) :
    ∀ name ∈ names, body.field? name = other.field? name := fun name hname =>
  h.shared name (by rintro rfl; exact hrecords hname) (by rintro rfl; exact hsource hname)

theorem isObject_of_field {v w : Value} {name : String} (h : v.field? name = some w) :
    Field.isObject v = true := by
  cases v with
  | object fields => rfl
  | _ => cases h

theorem objects_of_rows (rows : List (List (String × Value))) :
    Field.objects (.list (rows.map .object)) = some (rows.map .object) := by
  have hall : (rows.map Value.object).all Field.isObject = true := by
    rw [List.all_map]
    exact List.all_eq_true.mpr fun _ _ => rfl
  exact if_pos hall

theorem origin_of_records (h : Interchanged (rows.map .object) source body other) :
    Origin.ofBody body = some ⟨some (rows.map .object), .null⟩ := by
  unfold Origin.ofBody Field.orElse Field.find?
  rw [List.findSome?_singleton, List.findSome?_singleton, h.records, h.unsourced]
  have hrecords : Field.optionalObjects (.list (rows.map .object)) =
      some (some (rows.map .object)) := congrArg (Option.map some) (objects_of_rows rows)
  dsimp only
  rw [hrecords]
  rfl

theorem origin_of_source (h : Interchanged (rows.map .object) source body other) :
    Origin.ofBody other = some ⟨none, .text source⟩ := by
  unfold Origin.ofBody Field.orElse Field.find?
  rw [List.findSome?_singleton, List.findSome?_singleton, h.source, h.unrecorded]
  rfl

theorem range_eq (h : Interchanged (rows.map .object) source body other) :
    rangeOf body = rangeOf other := Field.orElse_agree (h.shared_of (by decide) (by decide))

-- Both bodies are read alike but for the origin of the records, or neither can be read.
theorem tilesRequest (h : Interchanged (rows.map .object) source body other) :
    (∀ r, TilesRequest.ofBody body = some r → r.origin = ⟨some (rows.map .object), .null⟩) ∧
    TilesRequest.ofBody other =
      (TilesRequest.ofBody body).map fun r => { r with origin := ⟨none, .text source⟩ } := by
  have htiles : objectsAt body ["tiles"] = objectsAt other ["tiles"] :=
    Field.orElse_agree (h.shared_of (by decide) (by decide))
  have hmetrics : objectsAt body ["metricTiles", "metric_tiles"] =
      objectsAt other ["metricTiles", "metric_tiles"] :=
    Field.orElse_agree (h.shared_of (by decide) (by decide))
  unfold TilesRequest.ofBody
  rw [isObject_of_field h.records, isObject_of_field h.source, h.origin_of_records,
    h.origin_of_source, ← htiles, ← hmetrics, ← h.range_eq]
  cases objectsAt body ["tiles"] <;> cases objectsAt body ["metricTiles", "metric_tiles"] <;>
    cases rangeOf body <;> exact ⟨fun r hr => by cases hr <;> rfl, rfl⟩

theorem boardRequest (h : Interchanged (rows.map .object) source body other) :
    (∀ r, BoardRequest.ofBody body = some r → r.origin = ⟨some (rows.map .object), .null⟩) ∧
    BoardRequest.ofBody other =
      (BoardRequest.ofBody body).map fun r => { r with origin := ⟨none, .text source⟩ } := by
  have hconfig : Field.orElse body ["config"] BoardRequest.noTiles BoardRequest.configOf =
      Field.orElse other ["config"] BoardRequest.noTiles BoardRequest.configOf :=
    Field.orElse_agree (h.shared_of (by decide) (by decide))
  have hmetrics : Field.orElse body ["metrics"] (.object []) Field.objectOfObjects =
      Field.orElse other ["metrics"] (.object []) Field.objectOfObjects :=
    Field.orElse_agree (h.shared_of (by decide) (by decide))
  unfold BoardRequest.ofBody
  rw [isObject_of_field h.records, isObject_of_field h.source, h.origin_of_records,
    h.origin_of_source, ← hconfig, ← hmetrics, ← h.range_eq]
  cases Field.orElse body ["config"] BoardRequest.noTiles BoardRequest.configOf <;>
    cases Field.orElse body ["metrics"] (.object []) Field.objectOfObjects <;>
    cases rangeOf body <;> exact ⟨fun r hr => by cases hr <;> rfl, rfl⟩

theorem recordsRequest (h : Interchanged (rows.map .object) source body other) :
    (∀ r, RecordsRequest.ofBody body = some r → r.origin = ⟨some (rows.map .object), .null⟩) ∧
    RecordsRequest.ofBody other =
      (RecordsRequest.ofBody body).map fun r => { r with origin := ⟨none, .text source⟩ } := by
  have hfilters : objectsAt body ["filters"] = objectsAt other ["filters"] :=
    Field.orElse_agree (h.shared_of (by decide) (by decide))
  have hclick : Field.orElse body ["clickFilter", "click_filter"] .null Field.optionalObject =
      Field.orElse other ["clickFilter", "click_filter"] .null Field.optionalObject :=
    Field.orElse_agree (h.shared_of (by decide) (by decide))
  have huseRange : Field.orElse body ["useRange", "use_range"] true Field.switch =
      Field.orElse other ["useRange", "use_range"] true Field.switch :=
    Field.orElse_agree (h.shared_of (by decide) (by decide))
  have hlimit : Field.orElse body ["limit"] RecordsRequest.defaultLimit Field.whole =
      Field.orElse other ["limit"] RecordsRequest.defaultLimit Field.whole :=
    Field.orElse_agree (h.shared_of (by decide) (by decide))
  unfold RecordsRequest.ofBody
  rw [isObject_of_field h.records, isObject_of_field h.source, h.origin_of_records,
    h.origin_of_source, ← hfilters, ← hclick, ← h.range_eq, ← huseRange, ← hlimit]
  cases objectsAt body ["filters"] <;>
    cases Field.orElse body ["clickFilter", "click_filter"] .null Field.optionalObject <;>
    cases rangeOf body <;>
    cases Field.orElse body ["useRange", "use_range"] true Field.switch <;>
    cases Field.orElse body ["limit"] RecordsRequest.defaultLimit Field.whole <;>
    exact ⟨fun r hr => by cases hr <;> rfl, rfl⟩

end Interchanged

end Service

end Tileboard
