import Tileboard.Proofs.Service.Reading

namespace Tileboard.Service

section Answers

variable {mode : Mode} {tiles metrics : List Value} {w : Windows Value}

open Board

theorem groupResults_onlyTiles {results : List Value} :
    (groupResults .full mode (onlyTiles tiles) (onlyTiles metrics) w "tiles").result = .ok results ↔
      (Pass.full.run mode (.list metrics) w (.list tiles)).result = .ok results := by
  have hgroup : groupResults .full mode (onlyTiles tiles) (onlyTiles metrics) w "tiles" = (do
      let ts ← Tile.listOfValue (.list tiles)
      let subtitles ← Subtitles.ofValue (.list metrics)
      Pass.full.tiles mode subtitles w ts) := rfl
  rw [hgroup, Pass.run]
  simp only [Traced.lift_bind_eq_ok_iff]
  constructor
  · rintro ⟨ts, hts, subtitles, hsubtitles, h⟩
    exact ⟨subtitles, hsubtitles, ts, hts, h⟩
  · rintro ⟨subtitles, hsubtitles, ts, hts, h⟩
    exact ⟨ts, hts, subtitles, hsubtitles, h⟩

theorem results_onlyTiles {lists : List (List Value)} :
    List.Forall₂ (fun group results =>
      (groupResults .full mode (onlyTiles tiles) (onlyTiles metrics) w group).result = .ok results)
      groups lists ↔
    ∃ results, (Pass.full.run mode (.list metrics) w (.list tiles)).result = .ok results ∧
      lists = [results, [], []] := by
  have hsummary : (groupResults .full mode (onlyTiles tiles) (onlyTiles metrics) w
      "summary").result = .ok [] := rfl
  have htrends : (groupResults .full mode (onlyTiles tiles) (onlyTiles metrics) w
      "trends").result = .ok [] := rfl
  constructor
  · intro h
    obtain _ | ⟨hresults, _ | ⟨hsecond, _ | ⟨hthird, ⟨⟩⟩⟩⟩ := h
    cases hsummary.symm.trans hsecond
    cases htrends.symm.trans hthird
    exact ⟨_, groupResults_onlyTiles.mp hresults, rfl⟩
  · rintro ⟨results, hresults, rfl⟩
    exact .cons (groupResults_onlyTiles.mpr hresults) (.cons hsummary (.cons htrends .nil))

theorem addCharts_succeeds_iff {sort : BarChart.Sorter} {results : List Value} :
    (∃ charts, addCharts sort [] results = .ok charts) ↔
      ∀ r ∈ results, ∃ entry, entryOf sort r = .ok entry := by
  rw [← mapM_succeeds_iff]
  constructor
  · rintro ⟨charts, h⟩
    obtain ⟨entries, hentries, -⟩ := addCharts_eq_ok_iff.mp h
    exact ⟨entries, hentries⟩
  · rintro ⟨entries, hentries⟩
    exact ⟨_, addCharts_eq_ok_iff.mpr ⟨entries, hentries, rfl⟩⟩

section Work

variable {h : Host} {origin : Origin} {range : Range} {rows : Traced (List Value)} {v : Value}

theorem tiles_eq_ok_iff :
    (rows.bind (h.tiles .full ⟨origin, tiles, metrics, range⟩)).result = .ok v ↔
      ∃ records w results, rows.result = .ok records ∧
        windows h.settings records range.start range.finish = .ok w ∧
        (Pass.full.run h.mode (.list metrics) w (.list tiles)).result = .ok results ∧
        v = .object [("windows", w.counts), ("tiles", .list results)] := by
  constructor
  · intro hv
    obtain ⟨records, hrecords, hv⟩ := Traced.bind_result_eq_ok_iff.mp hv
    obtain ⟨w, hw, hv⟩ := Traced.lift_bind_eq_ok_iff.mp hv
    obtain ⟨results, hresults, hv⟩ := Traced.bind_result_eq_ok_iff.mp hv
    cases hv
    exact ⟨records, w, results, hrecords, hw, hresults, rfl⟩
  · rintro ⟨records, w, results, hrecords, hw, hresults, rfl⟩
    exact Traced.bind_result_eq_ok_iff.mpr ⟨records, hrecords, Traced.lift_bind_eq_ok_iff.mpr
      ⟨w, hw, Traced.bind_result_eq_ok_iff.mpr ⟨results, hresults, rfl⟩⟩⟩

theorem board_eq_ok_iff :
    (rows.bind (h.board ⟨origin, onlyTiles tiles, onlyTiles metrics, range⟩)).result = .ok v ↔
      ∃ records w results charts, rows.result = .ok records ∧
        windows h.settings records range.start range.finish = .ok w ∧
        (Pass.full.run h.mode (.list metrics) w (.list tiles)).result = .ok results ∧
        addCharts h.sort [] results = .ok charts ∧
        v = payload h.settings range.start range.finish w
          ⟨charts, [("tiles", .list results), ("summary", .list []), ("trends", .list [])]⟩ := by
  have hflat : ∀ results : List Value, [results, [], []].flatten = results := by simp
  constructor
  · intro hv
    obtain ⟨records, hrecords, hv⟩ := Traced.bind_result_eq_ok_iff.mp hv
    obtain ⟨w, lists, charts, hw, hlists, hcharts, rfl⟩ := compute_eq_ok_iff.mp hv
    obtain ⟨results, hresults, rfl⟩ := results_onlyTiles.mp hlists
    rw [hflat] at hcharts
    exact ⟨records, w, results, charts, hrecords, hw, hresults, hcharts, rfl⟩
  · rintro ⟨records, w, results, charts, hrecords, hw, hresults, hcharts, rfl⟩
    refine Traced.bind_result_eq_ok_iff.mpr ⟨records, hrecords, compute_eq_ok_iff.mpr
      ⟨w, [results, [], []], charts, hw, results_onlyTiles.mpr ⟨results, hresults, rfl⟩, ?_, rfl⟩⟩
    rw [hflat]
    exact hcharts

-- A board whose tiles are answered comes to the same windows and results, if there are charts.
theorem board_of_tiles
    (hv : (rows.bind (h.tiles .full ⟨origin, tiles, metrics, range⟩)).result = .ok v) :
    ∃ w results, v = .object [("windows", w.counts), ("tiles", .list results)] ∧
      (Pass.full.run h.mode (.list metrics) w (.list tiles)).result = .ok results ∧
      ∀ u, (rows.bind (h.board ⟨origin, onlyTiles tiles, onlyTiles metrics, range⟩)).result =
          .ok u ↔ ∃ charts, addCharts h.sort [] results = .ok charts ∧
        u = payload h.settings range.start range.finish w
          ⟨charts, [("tiles", .list results), ("summary", .list []), ("trends", .list [])]⟩ := by
  obtain ⟨records, w, results, hrecords, hw, hresults, rfl⟩ := tiles_eq_ok_iff.mp hv
  refine ⟨w, results, rfl, hresults, fun u => ?_⟩
  rw [board_eq_ok_iff]
  constructor
  · rintro ⟨records', w', results', charts, hrecords', hw', hresults', hcharts, rfl⟩
    cases hrecords.symm.trans hrecords'
    cases hw.symm.trans hw'
    cases hresults.symm.trans hresults'
    exact ⟨charts, hcharts, rfl⟩
  · rintro ⟨charts, hcharts, rfl⟩
    exact ⟨records, w, results, charts, hrecords, hw, hresults, hcharts, rfl⟩

theorem tiles_of_board
    (hv : (rows.bind (h.board ⟨origin, onlyTiles tiles, onlyTiles metrics, range⟩)).result =
      .ok v) : ∃ u, (rows.bind (h.tiles .full ⟨origin, tiles, metrics, range⟩)).result = .ok u := by
  obtain ⟨records, w, results, charts, hrecords, hw, hresults, -, -⟩ := board_eq_ok_iff.mp hv
  exact ⟨_, tiles_eq_ok_iff.mpr ⟨records, w, results, hrecords, hw, hresults, rfl⟩⟩

end Work

end Answers

section Serving

variable {α : Type} (h : Host) (m : Memory) {body : Value} {read : Value → Option α}
  (origin : α → Origin) (work : α → List Value → Traced Value)
  (respond : (Fault → String) → Except Fault Value → Response)

theorem response_of_unread (hread : read body = none) :
    (h.serve m (some body) read origin work respond).response = .invalid := by
  unfold Host.serve
  rw [Option.bind_some, hread]
  rfl

theorem response_of_read {request : α} (hread : read body = some request) :
    (h.serve m (some body) read origin work respond).response =
      respond (h.wordingFor (origin request) (h.records m (origin request)).2)
        ((h.records m (origin request)).2.bind (work request)).result := by
  unfold Host.serve
  rw [Option.bind_some, hread]

end Serving

theorem answer_of_route (h : Host) (m : Memory) {path : String} {body : Option Value} {route : Route}
    (hroute : Route.ofPath? path = some route) (hmethod : route.method = "POST") :
    h.answer m ⟨"POST", path, body⟩ = h.route m body route := by
  unfold Host.answer
  dsimp only
  rw [hroute]
  exact if_pos hmethod.symm

-- The answers to the two requests.
def tilesAnswer (h : Host) (m : Memory) (tiles metrics : List Value)
    (shared : List (String × Value)) : Response :=
  (h.answer m ⟨"POST", "/tiles", some (tilesBody tiles metrics shared)⟩).response

def boardAnswer (h : Host) (m : Memory) (tiles metrics : List Value)
    (shared : List (String × Value)) : Response :=
  (h.answer m ⟨"POST", "/dashboard", some (boardBody tiles metrics shared)⟩).response

section Agreement

variable (h : Host) (m : Memory) (tiles metrics : List Value) (shared : List (String × Value))

-- Both requests are refused, or both are worked on over the same records.
theorem answers_of_bodies :
    (tilesAnswer h m tiles metrics shared = .invalid ∧
      boardAnswer h m tiles metrics shared = .invalid) ∨
    ∃ origin range wording,
      tilesAnswer h m tiles metrics shared = .ofResult wording
        ((h.records m origin).2.bind (h.tiles .full ⟨origin, tiles, metrics, range⟩)).result ∧
      boardAnswer h m tiles metrics shared = .ofResult wording ((h.records m origin).2.bind
        (h.board ⟨origin, onlyTiles tiles, onlyTiles metrics, range⟩)).result := by
  have htiles : Route.ofPath? "/tiles" = some (.tiles .full) := by decide +kernel
  have hboard : Route.ofPath? "/dashboard" = some .board := by decide +kernel
  rw [tilesAnswer, boardAnswer, answer_of_route h m htiles rfl, answer_of_route h m hboard rfl,
    Host.route, Host.route]
  rcases ofBody_agree with ⟨hnone, hnone'⟩ | ⟨origin, range, hsome, hsome'⟩
  · rw [response_of_unread h m _ _ _ hnone, response_of_unread h m _ _ _ hnone']
    exact .inl ⟨rfl, rfl⟩
  · rw [response_of_read h m _ _ _ hsome, response_of_read h m _ _ _ hsome']
    exact .inr ⟨origin, range, _, rfl, rfl⟩

-- The results of drawable tiles can be drawn.
theorem entries_of_drawable {mode : Mode} {w : Windows Value} {results : List Value}
    (hresults : (Pass.full.run mode (.list metrics) w (.list tiles)).result = .ok results)
    (hdrawable : ∀ v ∈ tiles, ∀ t, Tile.ofValue v = .ok t → Board.Drawable t) :
    ∀ r ∈ results, ∃ entry, Board.entryOf h.sort r = .ok entry := by
  intro r hr
  obtain ⟨subtitles, ts, -, hts, hall⟩ := Pass.run_eq_ok hresults
  obtain ⟨t, ht, htile⟩ := exists_left_of_forall₂ hall hr
  rw [Tile.listOfValue_list] at hts
  obtain ⟨v, hv, hread⟩ := exists_left_of_forall₂ (mapM_eq_ok hts) ht
  exact Board.entryOf_succeeds htile (hdrawable v hv t hread)

-- A board is answered only if its tiles are, and with them just if something can be drawn of each
-- result. Then the answers have the same windows and the same results. So it always is where each
-- tile with groups has a key and a title, and no other has tiles in its description.
theorem tiles_and_board_agree :
    ((boardAnswer h m tiles metrics shared).status = 200 →
      (tilesAnswer h m tiles metrics shared).status = 200) ∧
    ((tilesAnswer h m tiles metrics shared).status = 200 → ∃ body results,
      (tilesAnswer h m tiles metrics shared).body = some body ∧
      body.field "tiles" = .list (Response.sentItems results) ∧
      ((boardAnswer h m tiles metrics shared).status = 200 ↔
        ∀ r ∈ results, ∃ entry, Board.entryOf h.sort r = .ok entry) ∧
      ((boardAnswer h m tiles metrics shared).status = 200 → ∃ other,
        (boardAnswer h m tiles metrics shared).body = some other ∧
        other.field "windows" = body.field "windows" ∧
        other.field "tiles" = body.field "tiles")) ∧
    ((∀ v ∈ tiles, ∀ t, Tile.ofValue v = .ok t → Board.Drawable t) →
      ((boardAnswer h m tiles metrics shared).status = 200 ↔
        (tilesAnswer h m tiles metrics shared).status = 200)) := by
  rcases answers_of_bodies h m tiles metrics shared with ⟨htiles, hboard⟩ |
    ⟨origin, range, wording, htiles, hboard⟩
  · rw [htiles, hboard]
    have hinvalid : ¬ Response.invalid.status = 200 := by decide
    exact ⟨fun hstatus => hstatus, fun hstatus => absurd hstatus hinvalid, fun _ => Iff.rfl⟩
  rw [htiles, hboard, Response.status_ofResult_iff, Response.status_ofResult_iff]
  have hwindows : "windows".startsWith Response.hiddenMark = false := by decide +kernel
  have htilesName : "tiles".startsWith Response.hiddenMark = false := by decide +kernel
  refine ⟨?_, ?_, fun hdrawable => ⟨?_, ?_⟩⟩
  · rintro ⟨u, hu⟩
    exact tiles_of_board hu
  · rintro ⟨v, hv⟩
    obtain ⟨w, results, rfl, -, hboard⟩ := board_of_tiles hv
    rw [hv]
    refine ⟨_, results, rfl, ?_, ?_, ?_⟩
    · rw [Response.field_sent htilesName]
      rfl
    · rw [← addCharts_succeeds_iff]
      constructor
      · rintro ⟨u, hu⟩
        exact ((hboard u).mp hu).imp fun _ h => h.1
      · rintro ⟨charts, hcharts⟩
        exact ⟨_, (hboard _).mpr ⟨charts, hcharts, rfl⟩⟩
    · rintro ⟨u, hu⟩
      obtain ⟨charts, -, rfl⟩ := (hboard u).mp hu
      rw [hu]
      refine ⟨_, rfl, ?_, ?_⟩
      · rw [Response.field_sent hwindows, Response.field_sent hwindows]
        rfl
      · rw [Response.field_sent htilesName, Response.field_sent htilesName]
        rfl
  · rintro ⟨u, hu⟩
    exact tiles_of_board hu
  · rintro ⟨v, hv⟩
    obtain ⟨w, results, rfl, hresults, hboard⟩ := board_of_tiles hv
    obtain ⟨charts, hcharts⟩ :=
      addCharts_succeeds_iff.mpr (entries_of_drawable h _ _ hresults hdrawable)
    exact ⟨_, (hboard _).mpr ⟨charts, hcharts, rfl⟩⟩

end Agreement

def plainHost : Host := ⟨⟨false, "day", none⟩, ⟨["srv"], []⟩, BarChart.inTurn, fun _ _ => ""⟩

def siteTile (more : List (String × Value)) : Value :=
  .object ([("title", .text "Cost"), ("metric", .text "sum"), ("field", .text "cost"),
    ("column", .text "site"), ("component", .text "ChartBar")] ++ more)

def siteRecords : List (String × Value) :=
  [("records", .list [.object [("site", .text "north"), ("cost", .int 3)]])]

theorem keyed_agree :
    (tilesAnswer plainHost .empty [siteTile [("key", .text "a")]] [] siteRecords).status = 200 ∧
    ∃ body other,
      (tilesAnswer plainHost .empty [siteTile [("key", .text "a")]] [] siteRecords).body =
        some body ∧
      (boardAnswer plainHost .empty [siteTile [("key", .text "a")]] [] siteRecords).body =
        some other ∧
      other.field "windows" = body.field "windows" ∧ other.field "tiles" = body.field "tiles" := by
  have hstatus : (tilesAnswer plainHost .empty [siteTile [("key", .text "a")]] []
      siteRecords).status = 200 := by decide +kernel
  obtain ⟨-, hagree, hdrawable⟩ := tiles_and_board_agree plainHost .empty
    [siteTile [("key", .text "a")]] [] siteRecords
  obtain ⟨body, results, hbody, -, -, hother⟩ := hagree hstatus
  have hboard := (hdrawable (by
    intro v hv t ht
    rw [List.mem_singleton.mp hv] at ht
    have hread : Tile.ofValue (siteTile [("key", .text "a")]) = .ok _ := rfl
    cases hread.symm.trans ht
    exact ⟨fun _ => rfl, fun _ => ⟨⟨_, rfl, rfl⟩, rfl⟩⟩)).mpr hstatus
  obtain ⟨other, hsame⟩ := hother hboard
  exact ⟨hstatus, body, other, hbody, hsame⟩

-- Without a key the tile is answered on its own, and fails on a board.
theorem keyless_apart :
    (tilesAnswer plainHost .empty [siteTile []] [] siteRecords).status = 200 ∧
    (boardAnswer plainHost .empty [siteTile []] [] siteRecords).status = 500 := by
  decide +kernel

end Tileboard.Service
