import Tileboard.Board
import Tileboard.Proofs.Tile.Result

namespace Tileboard.Board

open BarChart (Sorter)

variable {sort : Sorter}

-- What is drawn of a result: its key and the chart of the tiles that it shows.
def entryOf (sort : Sorter) (r : Value) : Except Fault (Option (Value × Value)) := do
  match ← BarChart.ofTiles sort (r.field "tiles") (r.field "title") (isHorizontal r) with
  | some chart =>
      match r.field? "key" with
      | some key => if key.canBeKey then return some (key, chart) else throw (.unhashable key)
      | none => throw (.missingKey "key")
  | none => return none

-- Puts charts to those there are, one after the other.
def putCharts (charts : Charts) (entries : List (Value × Value)) : Charts :=
  entries.foldl (fun charts entry => putChart charts entry.1 entry.2) charts

theorem addCharts_cons (charts : Charts) (r : Value) (rest : List Value) :
    addCharts sort charts (r :: rest) =
      entryOf sort r >>= fun entry => addCharts sort (putCharts charts entry.toList) rest := by
  unfold entryOf
  rw [addCharts]
  cases BarChart.ofTiles sort (r.field "tiles") (r.field "title") (isHorizontal r) with
  | error fault => rfl
  | ok drawn =>
      cases drawn with
      | none => rfl
      | some chart =>
          cases r.field? "key" with
          | none => rfl
          | some key =>
              dsimp only [ok_bind]
              cases key.canBeKey <;> rfl

theorem addCharts_eq (charts : Charts) (results : List Value) :
    addCharts sort charts results =
      (results.mapM (entryOf sort)).map fun entries => putCharts charts entries.reduceOption := by
  induction results generalizing charts with
  | nil => rfl
  | cons r rest ih =>
      rw [addCharts_cons, List.mapM_cons]
      cases entryOf sort r with
      | error fault => rfl
      | ok entry =>
          rw [ok_bind, ok_bind, ih]
          cases rest.mapM (entryOf sort) with
          | error fault => rfl
          | ok entries =>
              cases entry with
              | none => rfl
              | some entry => rfl

theorem addCharts_eq_ok_iff {charts charts' : Charts} {results : List Value} :
    addCharts sort charts results = .ok charts' ↔
      ∃ entries, results.mapM (entryOf sort) = .ok entries ∧
        charts' = putCharts charts entries.reduceOption := by
  rw [addCharts_eq, map_eq_ok_iff]
  simp only [eq_comm]

theorem addCharts_append (charts : Charts) (results more : List Value) :
    addCharts sort charts (results ++ more) =
      addCharts sort charts results >>= fun charts => addCharts sort charts more := by
  induction results generalizing charts with
  | nil => rfl
  | cons r rest ih =>
      rw [List.cons_append, addCharts_cons, addCharts_cons]
      cases entryOf sort r with
      | error fault => rfl
      | ok entry => exact ih _

section Groups

variable {pass : Pass} {mode : Mode} {config metrics : Value} {w : Windows Value}

theorem partOf_eq_ok {part : Value} {name : String} (h : partOf config name = .ok part) :
    part = config.field name := by
  unfold partOf at h
  split at h <;> cases h
  rfl

theorem groupResults_eq_ok {group : String} {results : List Value}
    (h : (groupResults pass mode config metrics w group).result = .ok results) :
    ∃ ts subtitles, Tile.listOfValue (config.field group) = .ok ts ∧
      metricsOf metrics group = .ok subtitles ∧
      List.Forall₂ (fun t r => (pass.tile mode subtitles w t).result = .ok r) ts results := by
  unfold groupResults at h
  obtain ⟨part, hpart, h⟩ := Traced.lift_bind_eq_ok_iff.mp h
  obtain rfl : part = config.field group := partOf_eq_ok hpart
  obtain ⟨ts, hts, h⟩ := Traced.lift_bind_eq_ok_iff.mp h
  obtain ⟨subtitles, hsubtitles, h⟩ := Traced.lift_bind_eq_ok_iff.mp h
  exact ⟨ts, subtitles, hts, hsubtitles, Traced.mapM_result_eq_ok h⟩

theorem add_eq_ok_iff {p q : Progress} {group : String} {tiles : List Value} :
    p.add sort group tiles = .ok q ↔ ∃ charts, addCharts sort p.charts tiles = .ok charts ∧
      q = ⟨charts, p.results ++ [(group, .list tiles)]⟩ := by
  unfold Progress.add
  rw [bind_eq_ok_iff]
  constructor
  · rintro ⟨charts, hcharts, h⟩
    cases h
    exact ⟨charts, hcharts, rfl⟩
  · rintro ⟨charts, hcharts, rfl⟩
    exact ⟨charts, hcharts, rfl⟩

-- Induction on the groups: each of them adds its results under its name, and their charts.
theorem foldlM_eq_ok_iff {names : List String} {p q : Progress} :
    (names.foldlM (fun (p : Progress) group => do
      p.add sort group (← groupResults pass mode config metrics w group)) p).result = .ok q ↔
    ∃ lists charts, List.Forall₂ (fun group results =>
        (groupResults pass mode config metrics w group).result = .ok results) names lists ∧
      addCharts sort p.charts lists.flatten = .ok charts ∧
      q = ⟨charts, p.results ++ names.zip (lists.map Value.list)⟩ := by
  induction names generalizing p with
  | nil =>
      constructor
      · intro h
        cases h
        exact ⟨[], _, .nil, rfl, by simp⟩
      · rintro ⟨lists, charts, hlists, hcharts, rfl⟩
        cases hlists
        cases hcharts
        simp
  | cons group rest ih =>
      rw [List.foldlM_cons, Traced.bind_result_eq_ok_iff]
      constructor
      · rintro ⟨middle, hmiddle, h⟩
        obtain ⟨results, hresults, hadd⟩ := Traced.bind_result_eq_ok_iff.mp hmiddle
        obtain ⟨charts, hcharts, rfl⟩ := add_eq_ok_iff.mp hadd
        obtain ⟨lists, charts', hlists, hcharts', rfl⟩ := ih.mp h
        refine ⟨results :: lists, charts', .cons hresults hlists, ?_, by simp⟩
        rw [List.flatten_cons, addCharts_append, hcharts]
        exact hcharts'
      · rintro ⟨_, charts', hlists, hcharts', rfl⟩
        obtain _ | ⟨hresults, hlists⟩ := hlists
        rw [List.flatten_cons, addCharts_append] at hcharts'
        obtain ⟨charts, hcharts, hcharts'⟩ := bind_eq_ok_iff.mp hcharts'
        refine ⟨_, Traced.bind_result_eq_ok_iff.mpr ⟨_, hresults, add_eq_ok_iff.mpr
          ⟨charts, hcharts, rfl⟩⟩, ih.mpr ⟨_, charts', hlists, hcharts', ?_⟩⟩
        simp

-- A board is computed just if its windows are, the results of each group, and the charts.
theorem compute_eq_ok_iff {settings : Settings} {start finish : Value} {records : List Value}
    {answer : Value} :
    (compute sort pass settings config metrics records start finish).result = .ok answer ↔
    ∃ w lists charts, windows settings records start finish = .ok w ∧
      List.Forall₂ (fun group results =>
        (groupResults pass (.ofStrict settings.strict) config metrics w group).result =
          .ok results) groups lists ∧
      addCharts sort [] lists.flatten = .ok charts ∧
      answer = payload settings start finish w ⟨charts, groups.zip (lists.map Value.list)⟩ := by
  unfold compute
  rw [Traced.lift_bind_eq_ok_iff]
  constructor
  · rintro ⟨w, hw, h⟩
    obtain ⟨p, hp, h⟩ := Traced.bind_result_eq_ok_iff.mp h
    obtain ⟨lists, charts, hlists, hcharts, rfl⟩ := foldlM_eq_ok_iff.mp hp
    cases h
    exact ⟨w, lists, charts, hw, hlists, hcharts, rfl⟩
  · rintro ⟨w, lists, charts, hw, hlists, hcharts, rfl⟩
    exact ⟨w, hw, Traced.bind_result_eq_ok_iff.mpr ⟨_, foldlM_eq_ok_iff.mpr
      ⟨lists, charts, hlists, hcharts, rfl⟩, rfl⟩⟩

end Groups

end Tileboard.Board
