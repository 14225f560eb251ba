import Tileboard.Proofs.Service.Interchange
import Tileboard.Proofs.Source.Written

namespace Tileboard

namespace Service

theorem source_ne_empty {d : Directory} {source : String} {names : List String}
    (hlocate : d.locate source = .ok names) : source.isEmpty = false := by
  cases hempty : source.isEmpty with
  | false => rfl
  | true =>
      obtain rfl : source = "" := String.isEmpty_iff.mp hempty
      have hnul : '\x00' ∉ "".toList := by decide
      have hplace : Path.resolve d.place (Path.ofText "") = d.place := d.place.reverse_reverse
      have hbelow := ((Directory.locate_eq_ok_iff hnul).mp hlocate).1
      rw [hplace, Path.below?_eq_some_iff] at hbelow
      exact absurd (List.self_eq_append_right.mp hbelow.1) hbelow.2

structure Documented (d : Directory) (source : String) (rows : List (List (String × Value))) :
    Prop where
  file : ∃ names s stamp, d.locate source = .ok names ∧ d.file? names = some (.text s, stamp) ∧
    Text.lower (Path.suffixOf (Directory.lastName names)) = ".json" ∧
    Json.readAs? Document.dialect s = some (.list (rows.map .object))
  tabular : Document.Tabular rows

-- Records as they are written into a file.
theorem documented_of_written {d : Directory} {source : String} {names : List String} {stamp : Nat}
    {rows : List (List (String × Value))} (hlocate : d.locate source = .ok names)
    (hfile : d.file? names = some (.text (Json.write (.list (rows.map .object))), stamp))
    (hsuffix : Text.lower (Path.suffixOf (Directory.lastName names)) = ".json")
    (hnames : ∀ fields ∈ rows, (fields.map Prod.fst).Nodup)
    (hcells : ∀ fields ∈ rows, ∀ field ∈ fields, Document.isKept field.2 = true)
    (hnamed : Table.fieldNames rows = [] → rows = [])
    (hlabels : Label.settle (Table.fieldNames rows) = Table.fieldNames rows) :
    Documented d source rows where
  file := ⟨names, _, stamp, hlocate, hfile, hsuffix, Document.read_written hnames hcells⟩
  tabular := ⟨fun fields hfields _ _ hmem => of_decide_eq_true (hcells fields hfields _ hmem),
    hnamed, hlabels⟩

section Sources

variable {h : Host} {m : Memory} {rows : List (List (String × Value))} {source : String}

theorem present_of_documented (hsource : Documented h.directory source rows) :
    h.present ⟨none, .text source⟩ = .ok ((rows.map (Document.restored rows)).map .object) := by
  obtain ⟨names, s, stamp, hlocate, hfile, hsuffix, hread⟩ := hsource.file
  obtain ⟨t, ht, hrecords⟩ := Document.records_of_read hsource.tabular hread
  have htable : Directory.tableOf (Directory.lastName names) (.text s) = .ok t := by
    unfold Directory.tableOf
    rw [hsuffix]
    exact ht
  change (if source.isEmpty then .ok [] else (h.directory.load source).result) = _
  rw [source_ne_empty hlocate, Directory.load_of_table hlocate hfile htable, hrecords,
    List.map_map]
  rfl

theorem nodup_of_documented {d : Directory} (hsource : Documented d source rows)
    {fields : List (String × Value)} (hfields : fields ∈ rows) :
    (fields.map Prod.fst).Nodup := by
  obtain ⟨-, s, -, -, -, -, hread⟩ := hsource.file
  have hwell := Value.wellFormed_list_iff.mp (Json.readAs?_wellFormed Document.plain_dialect hread)
  exact (Value.wellFormed_object_iff.mp (hwell _ (List.mem_map_of_mem hfields))).1

-- A record, and the same with all of the fields that occur in any of them.
def PaddedRow (rows : List (List (String × Value))) (row other : Value) : Prop :=
  ∃ fields ∈ rows, row = .object fields ∧ other = .object (Document.padded rows fields)

-- The rows that the two requests are about, one by one.
theorem forall₂_restored (hexact : Document.Exact rows) : List.Forall₂ (PaddedRow rows)
    (rows.map .object) ((rows.map (Document.restored rows)).map .object) := by
  rw [List.map_map, List.forall₂_map_left_iff, List.forall₂_map_right_iff]
  exact List.forall₂_same.mpr fun fields hfields =>
    ⟨fields, hfields, rfl, congrArg Value.object (Document.restored_of_exact hexact hfields)⟩

theorem PaddedRow.sameCells {row other : Value} (hrow : PaddedRow rows row other) :
    row.SameCells other := by
  obtain ⟨fields, hfields, rfl, rfl⟩ := hrow
  exact Value.sameCells_object_iff.mpr fun name => (Document.lookup_padded hfields name).symm

theorem wordingFor_of_ok {origin : Origin} {rows : Traced (List Value)} {records : List Value}
    (hrows : rows.result = .ok records) : h.wordingFor origin rows = h.wording none := by
  rw [Host.wordingFor, hrows]

-- Two requests that are read alike but for the origin are answered alike if the work on their
-- records comes to the like.
theorem response_interchanged {α : Type} {read : Value → Option α} {origin : α → Origin}
    {work : α → List Value → Traced Value}
    {respond : (Fault → String) → Except Fault Value → Response} {change : α → α}
    {P : Response → Response → Prop} {m' : Memory} {body other : Value}
    {loaded : List Value} (hread : read other = (read body).map change)
    (horigin : ∀ r, read body = some r → origin r = ⟨some (rows.map .object), .null⟩)
    (hchange : ∀ r, origin (change r) = ⟨none, .text source⟩)
    (hloaded : (h.records m' ⟨none, .text source⟩).2.result = .ok loaded)
    (hinvalid : P .invalid .invalid)
    (hwork : ∀ r, P (respond (h.wording none) (work r (rows.map .object)).result)
      (respond (h.wording none) (work (change r) loaded).result)) :
    P (h.serve m (some body) read origin work respond).response
      (h.serve m' (some other) read origin work respond).response := by
  have hbind : ∀ (x : Traced (List Value)) f, (x.bind f).result = x.result >>= fun a =>
      (f a : Traced Value).result := Traced.result_bind
  cases hbody : read body with
  | none =>
      rw [hbody] at hread
      rw [response_of_unread h m _ _ _ hbody, response_of_unread h m' _ _ _ hread]
      exact hinvalid
  | some r =>
      rw [hbody] at hread
      rw [response_of_read h m _ _ _ hbody, response_of_read h m' _ _ _ hread, horigin r hbody,
        hchange, hbind, hbind, wordingFor_of_ok hloaded, hloaded]
      exact hwork r

end Sources

-- Answers that are the same, or the same but that in the second each record has all of the fields
-- that occur in any of them.
def PaddedAnswer (rows : List (List (String × Value))) (a b : Response) : Prop :=
  a = b ∨ ∃ (kept : List (List (String × Value))) (limit : Int), (∀ fields ∈ kept, fields ∈ rows) ∧
    a = ⟨200, some (page (kept.map .object) limit)⟩ ∧
    b = ⟨200, some (page (kept.map fun fields => .object (Document.padded rows fields)) limit)⟩

section Answers

variable {rows : List (List (String × Value))}

theorem exists_of_paddedRows {kept others : List Value}
    (h : List.Forall₂ (PaddedRow rows) kept others) :
    ∃ fieldLists : List (List (String × Value)), (∀ fields ∈ fieldLists, fields ∈ rows) ∧
      kept = fieldLists.map .object ∧
      others = fieldLists.map fun fields => .object (Document.padded rows fields) := by
  induction h with
  | nil => exact ⟨[], by simp, rfl, rfl⟩
  | cons hrow _ ih =>
      obtain ⟨fields, hfields, rfl, rfl⟩ := hrow
      obtain ⟨fieldLists, hall, rfl, rfl⟩ := ih
      exact ⟨fields :: fieldLists, List.forall_mem_cons.mpr ⟨hfields, hall⟩, rfl, rfl⟩

theorem paddedAnswer_of_related {wording : Fault → String} {limit : Int} {x y : Traced Value}
    (hrelated : Traced.Related (fun v u => ∃ kept keptOthers,
        List.Forall₂ (PaddedRow rows) kept keptOthers ∧
        v = .object [("total", .int kept.length), ("records", .list (paged kept limit))] ∧
        u = .object [("total", .int keptOthers.length),
          ("records", .list (paged keptOthers limit))]) x y) :
    PaddedAnswer rows (.ofResult wording x.result) (.ofResult wording y.result) := by
  cases hrelated with
  | error notes e => exact .inl rfl
  | ok notes hkept =>
      obtain ⟨kept, keptOthers, hkept, rfl, rfl⟩ := hkept
      obtain ⟨fieldLists, hall, rfl, rfl⟩ := exists_of_paddedRows hkept
      refine .inr ⟨fieldLists, limit, hall, ?_, ?_⟩
      · exact congrArg (fun v => (⟨200, some v⟩ : Response)) (sent_page _ _)
      · exact congrArg (fun v => (⟨200, some v⟩ : Response)) (sent_page _ _)

-- Where each record has the same fields in the same order, the answers are the same.
theorem PaddedAnswer.eq {a b : Response} (h : PaddedAnswer rows a b)
    (hnodup : ∀ fields ∈ rows, (fields.map Prod.fst).Nodup)
    (hnames : ∀ fields ∈ rows, fields.map Prod.fst = Table.fieldNames rows) : a = b := by
  rcases h with rfl | ⟨kept, limit, hall, rfl, rfl⟩
  · rfl
  · have hsame : (kept.map fun fields => Value.object (Document.padded rows fields)) =
        kept.map .object := List.map_congr_left fun fields hfields => by
      rw [Document.padded_of_names (hnodup fields (hall fields hfields))
        (hnames fields (hall fields hfields))]
    rw [hsame]

end Answers

section Requests

variable {h : Host} {m m' : Memory} {rows : List (List (String × Value))} {source : String}
  {body other : Value} {path : String}

-- A source that gives the records of a request.
theorem answer_eq_of_loaded (hbodies : Interchanged (rows.map .object) source body other)
    (hloaded : (h.records m' ⟨none, .text source⟩).2.result = .ok (rows.map .object)) {route : Route}
    (hroute : Route.ofPath? path = some route)
    (hkind : route ∈ [.tiles .full, .tiles .simple, .board, .records]) :
    (h.answer m ⟨"POST", path, some body⟩).response =
      (h.answer m' ⟨"POST", path, some other⟩).response := by
  cases route with
  | tiles pass =>
      rw [answer_of_route h m hroute rfl, answer_of_route h m' hroute rfl]
      exact response_interchanged hbodies.tilesRequest.2 hbodies.tilesRequest.1 (fun _ => rfl)
        hloaded rfl fun _ => rfl
  | board =>
      rw [answer_of_route h m hroute rfl, answer_of_route h m' hroute rfl]
      exact response_interchanged hbodies.boardRequest.2 hbodies.boardRequest.1 (fun _ => rfl)
        hloaded rfl fun _ => rfl
  | records =>
      rw [answer_of_route h m hroute rfl, answer_of_route h m' hroute rfl]
      exact response_interchanged hbodies.recordsRequest.2 hbodies.recordsRequest.1 (fun _ => rfl)
        hloaded rfl fun _ => rfl
  | operators => exact absurd hkind (by decide)
  | sources => exact absurd hkind (by decide)
  | overview => exact absurd hkind (by decide)

-- A source that gives records with the cells of those of a request.
theorem tiles_answer_eq {loaded : List Value}
    (hbodies : Interchanged (rows.map .object) source body other)
    (hloaded : (h.records m' ⟨none, .text source⟩).2.result = .ok loaded)
    (hsame : List.Forall₂ Value.SameCells (rows.map .object) loaded) {route : Route}
    (hroute : Route.ofPath? path = some route)
    (hkind : route ∈ [.tiles .full, .tiles .simple, .board]) :
    (h.answer m ⟨"POST", path, some body⟩).response =
      (h.answer m' ⟨"POST", path, some other⟩).response := by
  cases route with
  | tiles pass =>
      rw [answer_of_route h m hroute rfl, answer_of_route h m' hroute rfl]
      refine response_interchanged hbodies.tilesRequest.2 hbodies.tilesRequest.1 (fun _ => rfl)
        hloaded rfl fun r => ?_
      rw [tiles_eq hsame]
      rfl
  | board =>
      rw [answer_of_route h m hroute rfl, answer_of_route h m' hroute rfl]
      refine response_interchanged hbodies.boardRequest.2 hbodies.boardRequest.1 (fun _ => rfl)
        hloaded rfl fun r => ?_
      rw [board_eq hsame]
      rfl
  | records => exact absurd hkind (by decide)
  | operators => exact absurd hkind (by decide)
  | sources => exact absurd hkind (by decide)
  | overview => exact absurd hkind (by decide)

theorem records_answer_padded {loaded : List Value}
    (hbodies : Interchanged (rows.map .object) source body other)
    (hloaded : (h.records m' ⟨none, .text source⟩).2.result = .ok loaded)
    (hpadded : List.Forall₂ (PaddedRow rows) (rows.map .object) loaded)
    (hroute : Route.ofPath? path = some .records) :
    PaddedAnswer rows (h.answer m ⟨"POST", path, some body⟩).response
      (h.answer m' ⟨"POST", path, some other⟩).response := by
  rw [answer_of_route h m hroute rfl, answer_of_route h m' hroute rfl]
  exact response_interchanged hbodies.recordsRequest.2 hbodies.recordsRequest.1 (fun _ => rfl)
    hloaded (.inl rfl) fun r =>
      paddedAnswer_of_related (filtered_related (fun _ _ hrow => hrow.sameCells) hpadded)

end Requests

-- Records in a request, and a JSON file of records that a request names as its source. The source
-- stands for the restored records, whose cells are those in the file just if the document is exact:
-- if no whole number is in a column that stores binary64 numbers, and nothing is NaN. A column of
-- whole numbers without a gap is no such column. In an exact document tiles and boards are answered
-- alike whether the records are sent or named, and of the records the same are answered, with null
-- for the fields that a record has not: none, if each record has all of them.
theorem source_answers_as_records {h : Host} {m m' : Memory} (hm : Memory.Reached m' h.directory)
    {rows : List (List (String × Value))} {source : String}
    (hsource : Documented h.directory source rows) :
    (∀ body other, Interchanged ((rows.map (Document.restored rows)).map .object) source body other →
      ∀ path route, Route.ofPath? path = some route →
        route ∈ [.tiles .full, .tiles .simple, .board, .records] →
        (h.answer m ⟨"POST", path, some body⟩).response =
          (h.answer m' ⟨"POST", path, some other⟩).response) ∧
    ((∀ fields ∈ rows, Value.SameCells (.object fields) (.object (Document.restored rows fields))) ↔
      Document.Exact rows) ∧
    ((∀ name, Document.Steady rows name) →
      (∀ fields ∈ rows, ∀ name, fields.lookup name ≠ some (.real .nan)) → Document.Exact rows) ∧
    (Document.Exact rows → ∀ body other, Interchanged (rows.map .object) source body other →
      (∀ path route, Route.ofPath? path = some route →
        route ∈ [.tiles .full, .tiles .simple, .board] →
        (h.answer m ⟨"POST", path, some body⟩).response =
          (h.answer m' ⟨"POST", path, some other⟩).response) ∧
      ∀ path, Route.ofPath? path = some .records →
        PaddedAnswer rows (h.answer m ⟨"POST", path, some body⟩).response
          (h.answer m' ⟨"POST", path, some other⟩).response ∧
        ((∀ fields ∈ rows, fields.map Prod.fst = Table.fieldNames rows) →
          (h.answer m ⟨"POST", path, some body⟩).response =
            (h.answer m' ⟨"POST", path, some other⟩).response)) ∧
    ∀ fields ∈ rows, Table.fieldNames rows ⊆ fields.map Prod.fst →
      (Document.padded rows fields).Perm fields := by
  have hloaded : (h.records m' ⟨none, .text source⟩).2.result =
      .ok ((rows.map (Document.restored rows)).map .object) := by
    rw [records_result hm]
    exact present_of_documented hsource
  refine ⟨fun body other hbodies path route hroute hkind =>
    answer_eq_of_loaded hbodies hloaded hroute hkind, ?_, Document.exact_of_steady,
    fun hexact body other hbodies => ?_,
    fun fields hfields => Document.padded_perm hfields (nodup_of_documented hsource hfields)⟩
  · rw [← Document.restored_cells_iff]
    refine forall₂_congr fun fields _ => Value.sameCells_object_iff.trans ?_
    exact forall_congr' fun name => eq_comm
  · have hpadded := forall₂_restored hexact
    refine ⟨fun path route hroute hkind => tiles_answer_eq hbodies hloaded
      (hpadded.imp fun _ _ hrow => hrow.sameCells) hroute hkind, fun path hroute => ?_⟩
    have hanswer : PaddedAnswer rows (h.answer m ⟨"POST", path, some body⟩).response
        (h.answer m' ⟨"POST", path, some other⟩).response :=
      records_answer_padded hbodies hloaded hpadded hroute
    exact ⟨hanswer, hanswer.eq fun _ hfields => nodup_of_documented hsource hfields⟩

def fileHost (rows : List (List (String × Value))) : Host :=
  ⟨⟨false, "day", none⟩, ⟨["srv"],
    [(["visits.json"], .file (.text (Json.write (.list (rows.map .object)))) 1)]⟩,
    BarChart.inTurn, fun _ _ => ""⟩

-- A body that asks for the visits whose count is written in one way, and for how many they are.
def matching (pattern : String) (origin : String × Value) : Value :=
  let filter := .object [("column", .text "count"), ("matches", .text pattern)]
  .object [origin, ("filters", .list [filter]),
    ("tiles", .list [.object [("title", .text "Visits"), ("filter", filter)]])]

def sent (rows : List (List (String × Value))) : String × Value :=
  ("records", .list (rows.map .object))

def named : String × Value := ("source", .text "visits.json")

theorem interchanged_matching (pattern : String) (rows : List (List (String × Value))) :
    Interchanged (rows.map .object) "visits.json" (matching pattern (sent rows))
      (matching pattern named) where
  records := rfl
  unsourced := rfl
  source := rfl
  unrecorded := rfl
  shared name hrecords hsource := by
    simp [matching, sent, named, Value.field?, List.lookup_cons, beq_false_of_ne hrecords,
      beq_false_of_ne hsource]

def visits : List (List (String × Value)) :=
  [[("site", .text "north"), ("count", .int 1)], [("count", .int 2), ("site", .text "south")]]

theorem documented_visits : Documented (fileHost visits).directory "visits.json" visits := by
  have hlocate : (fileHost visits).directory.locate "visits.json" = .ok ["visits.json"] := rfl
  exact documented_of_written hlocate rfl (by decide +kernel) (by decide) (by decide) nofun
    (by decide +kernel)

theorem steady_visits (name : String) : Document.Steady visits name := by
  by_cases hcount : name = "count"
  · subst hcount
    exact .inr (.inl (List.forall_mem_cons.mpr ⟨⟨1, rfl⟩, List.forall_mem_singleton.mpr ⟨2, rfl⟩⟩))
  · refine .inl fun fields hfields n hn => hcount ?_
    have hmem := mem_of_lookup hn
    simp only [visits, List.mem_cons, List.not_mem_nil, or_false] at hfields
    rcases hfields with rfl | rfl <;> simp [Value.int] at hmem <;> exact hmem.1

theorem number_visits {fields : List (String × Value)} (hfields : fields ∈ visits) (name : String) :
    fields.lookup name ≠ some (.real .nan) := by
  intro hnan
  have hkept : ∀ fields ∈ visits, ∀ field ∈ fields, Document.isKept field.2 = true := by decide
  cases hkept fields hfields _ (mem_of_lookup hnan)

theorem visits_alike :
    ((fileHost visits).answer .empty
        ⟨"POST", "/tiles", some (matching "^1$" (sent visits))⟩).response =
      ((fileHost visits).answer .empty ⟨"POST", "/tiles", some (matching "^1$" named)⟩).response ∧
    PaddedAnswer visits
      ((fileHost visits).answer .empty
        ⟨"POST", "/records/filter", some (matching "^1$" (sent visits))⟩).response
      ((fileHost visits).answer .empty
        ⟨"POST", "/records/filter", some (matching "^1$" named)⟩).response := by
  have hreached : Memory.Reached .empty (fileHost visits).directory := Memory.reached_start _
  obtain ⟨-, -, hexact, halike, -⟩ := source_answers_as_records hreached documented_visits
  obtain ⟨htiles, hrecords⟩ := halike (hexact steady_visits fun _ => number_visits) _ _
    (interchanged_matching "^1$" visits)
  exact ⟨htiles "/tiles" (.tiles .full) (by decide +kernel) (by decide),
    (hrecords "/records/filter" (by decide +kernel)).1⟩

-- With a gap in a column its whole numbers are stored as binary64 numbers, which are written in
-- another way.
def gaps : List (List (String × Value)) := [[("count", .int 1)], []]

def total (reply : Reply) : Option Int :=
  reply.response.body.bind fun v => (v.field? "total").bind Field.whole

theorem gaps_apart :
    total ((fileHost gaps).answer .empty
      ⟨"POST", "/records/filter", some (matching "^1$" (sent gaps))⟩) = some 1 ∧
    total ((fileHost gaps).answer .empty
      ⟨"POST", "/records/filter", some (matching "^1$" named)⟩) = some 0 := by
  have hlocate : (fileHost gaps).directory.locate "visits.json" = .ok ["visits.json"] := rfl
  have hsource : Documented (fileHost gaps).directory "visits.json" gaps :=
    documented_of_written hlocate rfl (by decide +kernel) (by decide) (by decide) nofun
      (by decide +kernel)
  have hloaded : ((fileHost gaps).records .empty ⟨none, .text "visits.json"⟩).2.result =
      .ok ((gaps.map (Document.restored gaps)).map .object) := by
    rw [records_result (Memory.reached_start _)]
    exact present_of_documented hsource
  have hroute : Route.ofPath? "/records/filter" = some .records := by decide +kernel
  have hsame : ((fileHost gaps).answer .empty ⟨"POST", "/records/filter",
        some (matching "^1$" (sent (gaps.map (Document.restored gaps))))⟩).response =
      ((fileHost gaps).answer .empty
        ⟨"POST", "/records/filter", some (matching "^1$" named)⟩).response :=
    answer_eq_of_loaded (interchanged_matching "^1$" _) hloaded hroute (by decide)
  refine ⟨by decide +kernel, ?_⟩
  rw [total, ← hsame]
  decide +kernel

end Service
end Tileboard
