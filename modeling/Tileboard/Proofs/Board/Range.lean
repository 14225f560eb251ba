import Tileboard.Board
import Tileboard.Proofs.Board.Sorting
import Tileboard.Proofs.Board.Result
import Tileboard.Proofs.Tile.Result
import Tileboard.Proofs.Window.Insertion

namespace Tileboard

namespace Pass

theorem rowsFor_of_bound {t : Tile Filter} (h : t.noRangeFilter = false) (window all : List Value) :
    rowsFor t window all = window := by
  rw [rowsFor, h]
  rfl

theorem rowsFor_of_free {t : Tile Filter} (h : t.noRangeFilter = true) (window all : List Value) :
    rowsFor t window all = all := by
  rw [rowsFor, h]
  rfl

theorem tile_congr {pass : Pass} {mode : Mode} {subtitles : Subtitles} {t : Tile Filter}
    {w other : Windows Value}
    (hactive : rowsFor t other.current other.all = rowsFor t w.current w.all)
    (hprevious : rowsFor t other.previous other.all = rowsFor t w.previous w.all) :
    pass.tile mode subtitles other t = pass.tile mode subtitles w t := by
  unfold tile result
  dsimp only
  rw [hactive, hprevious]

end Pass

namespace Board

open BarChart (Sorter inTurn)

variable {sort : Sorter}

theorem exists_lookup_zip {R : String → List Value → Prop} {names : List String}
    {lists : List (List Value)} (h : List.Forall₂ R names lists) {name : String}
    (hname : name ∈ names) :
    ∃ results, (names.zip (lists.map Value.list)).lookup name = some (.list results) ∧
      R name results := by
  induction h with
  | nil => cases hname
  | @cons first results rest lists hfirst _ ih =>
      by_cases heq : name = first
      · subst heq
        exact ⟨results, by simp, hfirst⟩
      · obtain ⟨others, hlookup, hothers⟩ := ih ((List.mem_cons.mp hname).resolve_left heq)
        exact ⟨others, by simp [List.lookup_cons, beq_false_of_ne heq, hlookup], hothers⟩

theorem field_payload_group {settings : Settings} {start finish : Value} {w : Windows Value}
    {p : Progress} {group : String} (hgroup : group ∈ groups) :
    (payload settings start finish w p).field group = (p.results.lookup group).getD .null := by
  have hapart : ∀ name ∈ groups, name ≠ "range" ∧ name ≠ "windows" ∧ name ≠ "charts" := by decide
  obtain ⟨hrange, hwindows, hcharts⟩ := hapart group hgroup
  simp [payload, Value.field, Value.field?, List.lookup_cons, beq_false_of_ne hrange,
    beq_false_of_ne hwindows, beq_false_of_ne hcharts]

-- A board that is computed: the counts of its windows, and under the name of each group the results
-- of its tiles.
theorem compute_eq_ok {pass : Pass} {settings : Settings} {config metrics start finish : Value}
    {records : List Value} {payload : Value}
    (h : (compute sort pass settings config metrics records start finish).result = .ok payload) :
    ∃ w, windows settings records start finish = .ok w ∧ payload.field "windows" = w.counts ∧
      ∀ group ∈ groups, ∃ results, payload.field group = .list results ∧
        (groupResults pass (.ofStrict settings.strict) config metrics w group).result =
          .ok results := by
  obtain ⟨w, lists, charts, hw, hlists, -, rfl⟩ := compute_eq_ok_iff.mp h
  refine ⟨w, hw, rfl, fun group hgroup => ?_⟩
  obtain ⟨results, hlookup, hresults⟩ := exists_lookup_zip hlists hgroup
  refine ⟨results, ?_, hresults⟩
  rw [field_payload_group hgroup, hlookup]
  rfl

def resultAt (payload : Value) (group : String) (i : Nat) : Option Value :=
  match payload.field group with
  | .list results => results[i]?
  | _ => none

section Comparison

variable {pass : Pass} {settings : Settings} {config metrics start finish : Value}
  {records : List Value} {payload : Value}

theorem exists_tiles
    (h : (compute sort pass settings config metrics records start finish).result = .ok payload)
    {group : String} (hgroup : group ∈ groups) :
    ∃ w ts subtitles, windows settings records start finish = .ok w ∧
      Tile.listOfValue (config.field group) = .ok ts ∧ metricsOf metrics group = .ok subtitles ∧
      ∀ (i : Nat) t, ts[i]? = some t → ∃ r, resultAt payload group i = some r ∧
        (pass.tile (.ofStrict settings.strict) subtitles w t).result = .ok r := by
  obtain ⟨w, hw, -, hresults⟩ := compute_eq_ok h
  obtain ⟨results, hfield, hresults⟩ := hresults group hgroup
  obtain ⟨ts, subtitles, hts, hsubtitles, hforall⟩ := groupResults_eq_ok hresults
  refine ⟨w, ts, subtitles, hw, hts, hsubtitles, fun i t ht => ?_⟩
  obtain ⟨hi, rfl⟩ := List.getElem?_eq_some_iff.mp ht
  have hi' : i < results.length := hforall.length_eq ▸ hi
  refine ⟨results[i], ?_, hforall.get hi hi'⟩
  rw [resultAt, hfield]
  exact List.getElem?_eq_getElem hi'

theorem results_of_same_rows {otherStart otherFinish otherPayload : Value} {others : List Value}
    (h : (compute sort pass settings config metrics records start finish).result = .ok payload)
    (hother : (compute sort pass settings config metrics others otherStart otherFinish).result =
      .ok otherPayload) {P : Tile Filter → Prop}
    (hrows : ∀ w other, windows settings records start finish = .ok w →
      windows settings others otherStart otherFinish = .ok other → ∀ t, P t →
        Pass.rowsFor t other.current other.all = Pass.rowsFor t w.current w.all ∧
        Pass.rowsFor t other.previous other.all = Pass.rowsFor t w.previous w.all)
    {group : String} (hgroup : group ∈ groups) :
    ∃ ts, Tile.listOfValue (config.field group) = .ok ts ∧
      ∀ (i : Nat) t, ts[i]? = some t → P t → ∃ r, resultAt payload group i = some r ∧
        resultAt otherPayload group i = some r := by
  obtain ⟨w, ts, subtitles, hw, hts, hsubtitles, hresults⟩ := exists_tiles h hgroup
  obtain ⟨w', ts', subtitles', hw', hts', hsubtitles', hresults'⟩ := exists_tiles hother hgroup
  rw [hts, Except.ok.injEq] at hts'
  rw [hsubtitles, Except.ok.injEq] at hsubtitles'
  subst hts' hsubtitles'
  refine ⟨ts, hts, fun i t ht hP => ?_⟩
  obtain ⟨r, hr, htile⟩ := hresults i t ht
  obtain ⟨r', hr', htile'⟩ := hresults' i t ht
  obtain ⟨hactive, hprevious⟩ := hrows w w' hw hw' t hP
  rw [Pass.tile_congr hactive hprevious, htile, Except.ok.injEq] at htile'
  subst htile'
  exact ⟨r, hr, hr'⟩

end Comparison

theorem windows_of_range {settings : Settings} {start finish : Value} {p : Period}
    (hgiven : start.holds = true ∧ finish.holds = true)
    (hstart : start.instant = .ok (some p.first)) (hfinish : finish.instant = .ok (some p.last))
    (records : List Value) : windows settings records start finish =
      Windows.ofPeriod (Windows.timeIn (.text settings.dateColumn)) (some p) records := by
  unfold windows
  rw [if_pos (by simp [hgiven]), Windows.select_eq_ofPeriod records hstart hfinish]

theorem all_of_windows {settings : Settings} {records : List Value} {start finish : Value}
    {w : Windows Value} (h : windows settings records start finish = .ok w) : w.all = records := by
  unfold windows at h
  by_cases hgiven : (start.holds && finish.holds) = true
  · rw [if_pos hgiven] at h
    obtain ⟨period, -, h⟩ := bind_eq_ok_iff.mp h
    exact Windows.all_eq h
  · rw [if_neg hgiven] at h
    cases h
    rfl

-- A tile bound to a range sees its windows only: rows put in anywhere that neither the range nor
-- the period before it contains change neither the counts of the two windows nor the result of such
-- a tile. A tile without a range sees all records, and shows the same whatever the range.
theorem range_bounds_results (sort : Sorter) (pass : Pass) (settings : Settings)
    (config metrics : Value) {start finish : Value} {p : Period}
    (hgiven : start.holds = true ∧ finish.holds = true)
    (hstart : start.instant = .ok (some p.first))
    (hfinish : finish.instant = .ok (some p.last)) :
    (∀ records others payload otherPayload,
      Inserted (Windows.Unseen (Windows.timeIn (.text settings.dateColumn)) p) records others →
      (compute sort pass settings config metrics records start finish).result = .ok payload →
      (compute sort pass settings config metrics others start finish).result = .ok otherPayload →
      (∀ name ∈ ["current", "previous"], (otherPayload.field "windows").field name =
        (payload.field "windows").field name) ∧
      ∀ group ∈ groups, ∃ ts, Tile.listOfValue (config.field group) = .ok ts ∧
        ∀ (i : Nat) t, ts[i]? = some t → t.noRangeFilter = false →
          ∃ r, resultAt payload group i = some r ∧ resultAt otherPayload group i = some r) ∧
    (∀ records otherStart otherFinish payload otherPayload,
      (compute sort pass settings config metrics records start finish).result = .ok payload →
      (compute sort pass settings config metrics records otherStart otherFinish).result =
        .ok otherPayload →
      ∀ group ∈ groups, ∃ ts, Tile.listOfValue (config.field group) = .ok ts ∧
        ∀ (i : Nat) t, ts[i]? = some t → t.noRangeFilter = true →
          ∃ r, resultAt payload group i = some r ∧ resultAt otherPayload group i = some r) := by
  constructor
  · intro records others payload otherPayload hinserted h hother
    have hsame : ∀ w other, windows settings records start finish = .ok w →
        windows settings others start finish = .ok other →
        other.current = w.current ∧ other.previous = w.previous := by
      intro w other hw hw'
      rw [windows_of_range hgiven hstart hfinish] at hw hw'
      exact Windows.windows_of_inserted hinserted hw hw'
    refine ⟨?_, fun group hgroup => ?_⟩
    · obtain ⟨w, hw, hcounts, -⟩ := compute_eq_ok h
      obtain ⟨other, hw', hcounts', -⟩ := compute_eq_ok hother
      obtain ⟨hcurrent, hprevious⟩ := hsame w other hw hw'
      rw [hcounts, hcounts', Windows.counts, Windows.counts, hcurrent, hprevious]
      simp [Value.field, Value.field?, List.lookup_cons]
    · refine results_of_same_rows h hother (fun w other hw hw' t ht => ?_) hgroup
      obtain ⟨hcurrent, hprevious⟩ := hsame w other hw hw'
      simp only [Pass.rowsFor_of_bound ht]
      exact ⟨hcurrent, hprevious⟩
  · intro records otherStart otherFinish payload otherPayload h hother group hgroup
    refine results_of_same_rows h hother (fun w other hw hw' t ht => ?_) hgroup
    simp only [Pass.rowsFor_of_free ht, all_of_windows hw, all_of_windows hw', and_self]

-- A tile that counts the rows of the range with a day, and one that counts all rows with a day.
def counted (key : String) (more : List (String × Value)) : Value :=
  .object ([("key", .text key),
    ("filter", .object [("column", .text "day"), ("isNotNull", .bool true)])] ++ more)

def mixedConfig : Value :=
  .object [("tiles", .list [counted "dated" [], counted "ever" [("noRangeFilter", .bool true)]])]

def mixedSettings : Settings := ⟨false, "day", none⟩

open Windows (atHour onDay secondDay)

-- Rows with a day that is no date, a day long after, and no day at all.
theorem inserted_unseen : Inserted (Windows.Unseen (Windows.timeIn (.text "day")) secondDay)
    [atHour 5, atHour 30] [onDay "soon", atHour 5, atHour 200, atHour 30, .object []] := by
  have hnone : Value.scalarInstant? (.text "soon") = none := by decide +kernel
  have hsoon : Windows.timeIn (.text "day") (onDay "soon") = .ok none := congrArg Except.ok hnone
  have hnever : Windows.timeIn (.text "day") (.object []) = .ok none := rfl
  have hlate : Windows.timeIn (.text "day") (atHour 200) =
      .ok (some ⟨720000000000000, by decide⟩) := by cbv
  have hprevious : secondDay.previous = .ok (some ⟨⟨0, by decide⟩, secondDay.first⟩) := by cbv
  refine .insert (Windows.unseen_of_none hsoon) (.keep _ (.insert ⟨_, hlate, fun u hu => ?_⟩
    (.keep _ (.insert (Windows.unseen_of_none hnever) .nil))))
  cases hu
  refine ⟨by decide, fun q hq => ?_⟩
  rw [hprevious] at hq
  cases hq
  decide

theorem mixed_results : ∃ payload inserted shifted,
    (compute inTurn .full mixedSettings mixedConfig .null [atHour 5, atHour 30]
      (.text "1970-01-02") (.text "1970-01-03")).result = .ok payload ∧
    (compute inTurn .full mixedSettings mixedConfig .null
      [onDay "soon", atHour 5, atHour 200, atHour 30, .object []]
      (.text "1970-01-02") (.text "1970-01-03")).result = .ok inserted ∧
    (compute inTurn .full mixedSettings mixedConfig .null [atHour 5, atHour 30]
      (.text "1970-01-05") (.text "1970-01-09")).result = .ok shifted ∧
    (∃ r, resultAt payload "tiles" 0 = some r ∧ resultAt inserted "tiles" 0 = some r) ∧
    ∃ r, resultAt payload "tiles" 1 = some r ∧ resultAt shifted "tiles" 1 = some r := by
  have hstart : (Value.text "1970-01-02").instant = .ok (some secondDay.first) := by cbv
  have hfinish : (Value.text "1970-01-03").instant = .ok (some secondDay.last) := by cbv
  obtain ⟨hbound, hfree⟩ := range_bounds_results inTurn .full mixedSettings mixedConfig .null
    (by decide) hstart hfinish
  obtain ⟨payload, hpayload⟩ := eq_ok_of_isOk (x := (compute inTurn .full mixedSettings
    mixedConfig .null [atHour 5, atHour 30] (.text "1970-01-02")
    (.text "1970-01-03")).result) (by decide +kernel)
  obtain ⟨inserted, hinserted⟩ := eq_ok_of_isOk (x := (compute inTurn .full mixedSettings
    mixedConfig .null [onDay "soon", atHour 5, atHour 200, atHour 30, .object []] (.text "1970-01-02")
    (.text "1970-01-03")).result) (by decide +kernel)
  obtain ⟨shifted, hshifted⟩ := eq_ok_of_isOk (x := (compute inTurn .full mixedSettings
    mixedConfig .null [atHour 5, atHour 30] (.text "1970-01-05")
    (.text "1970-01-09")).result) (by decide +kernel)
  obtain ⟨-, hresults⟩ := hbound _ _ _ _ inserted_unseen hpayload hinserted
  obtain ⟨ts, hts, hresults⟩ := hresults "tiles" (by decide)
  obtain ⟨ts', hts', hresults'⟩ := hfree _ _ _ _ _ hpayload hshifted "tiles" (by decide)
  cases hts
  cases hts'
  exact ⟨payload, inserted, shifted, hpayload, hinserted, hshifted, hresults 0 _ rfl rfl,
    hresults' 1 _ rfl rfl⟩

end Board

end Tileboard
