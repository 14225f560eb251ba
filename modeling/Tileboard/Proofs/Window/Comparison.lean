import Tileboard.Proofs.Measure.Outcome
import Tileboard.Proofs.Tile.Result
import Tileboard.Proofs.Window.Selection

namespace Tileboard

namespace Windows

variable {α : Type} {time : α → Except Fault (Option Instant)}

theorem current_eq_within {period : Option Period} {rows : List α} {w : Windows α}
    (h : ofPeriod time period rows = .ok w) :
    w.current = within period (rows.map fun row => (row, timeOf time row)) := by
  cases period with
  | none =>
      cases h
      rw [within_none]
  | some p =>
      obtain ⟨q, -, rfl⟩ := ofPeriod_eq_ok h
      rw [within_some]

theorem all_eq {period : Option Period} {rows : List α} {w : Windows α}
    (h : ofPeriod time period rows = .ok w) : w.all = rows := by
  cases period with
  | none => cases h; rfl
  | some p =>
      obtain ⟨q, -, rfl⟩ := ofPeriod_eq_ok h
      rfl

theorem current_eq_previous {start finish earlierStart earlierFinish : Value}
    {before : Option Period} {rows : List α} {w shifted : Windows α}
    (hselect : select time start finish rows = .ok w)
    (hbefore : Period.beforeValues start finish = .ok before)
    (hends : Period.ofValues earlierStart earlierFinish = .ok before)
    (hshifted : select time earlierStart earlierFinish rows = .ok shifted) :
    shifted.current = w.previous ∧ shifted.all = w.all := by
  obtain ⟨ends, he, hshifted⟩ := bind_eq_ok_iff.mp hshifted
  rw [hends] at he
  cases he
  obtain ⟨period, hp, hw⟩ := bind_eq_ok_iff.mp hselect
  refine ⟨?_, by rw [all_eq hshifted, all_eq hw]⟩
  rw [current_eq_within hshifted]
  obtain ⟨other, ho, hb⟩ := bind_eq_ok_iff.mp hbefore
  rw [hp] at ho
  cases ho
  cases period with
  | none =>
      cases hb
      cases hw
      rw [within_none]
  | some p =>
      obtain ⟨q, hq, rfl⟩ := ofPeriod_eq_ok hw
      change p.previous = .ok before at hb
      rw [hb] at hq
      cases hq
      rfl

end Windows

namespace Plan

-- Plans that measure both windows in the same way.
def Compares {F : Type} : Plan F → Prop
  | .count .. => True
  | .aggregate .. => True
  | _ => False

theorem compares_of_prepare {F : Type} {f : F → Traced Matcher} {plan : Plan F}
    {ready : Plan Matcher} (hplan : plan.Compares) (h : (plan.prepare f).result = .ok ready) :
    ready.Compares := by
  cases plan with
  | count filter distinctColumn shareOfBase =>
      obtain ⟨m, -, h⟩ := Traced.bind_result_eq_ok_iff.mp h
      cases h
      trivial
  | aggregate filter field metric compare =>
      obtain ⟨m, -, h⟩ := Traced.bind_result_eq_ok_iff.mp h
      cases h
      trivial
  | _ => cases hplan

-- What is measured of the window before does not depend on which of the two windows it
-- is given as.
theorem previous_eq_value {plan : Plan Matcher} {rows before others : List Value}
    {o shifted : Outcome} (hplan : plan.Compares)
    (h : (plan.run rows before).result = .ok o)
    (hshifted : (plan.run before others).result = .ok shifted) :
    o.previous = shifted.value := by
  cases plan with
  | count matcher distinctColumn shareOfBase =>
      obtain ⟨_, k, -, hk, -, hprevious, -⟩ := Measure.count_eq_ok h
      obtain ⟨n, _, hn, -, hvalue, -⟩ := Measure.count_eq_ok hshifted
      rw [hk] at hn
      cases hn
      rw [hprevious, hvalue]
  | aggregate matcher field metric compare =>
      obtain ⟨_, y, -, hy, -, hprevious, -⟩ := Measure.aggregate_eq_ok h
      obtain ⟨x, _, hx, -, hvalue, -⟩ := Measure.aggregate_eq_ok hshifted
      rw [hy] at hx
      cases hx
      rw [hprevious, hvalue]
  | _ => cases hplan

end Plan

namespace Pass

theorem previous_eq_value_of_tile {mode : Mode} {subtitles : Subtitles}
    {w shifted : Windows Value} {t : Tile Filter} {plan : Plan Filter} {r s : Value}
    (hcurrent : shifted.current = w.previous) (hall : shifted.all = w.all)
    (hplan : Plan.full t = .ok plan) (hcompares : plan.Compares)
    (hr : (Pass.full.tile mode subtitles w t).result = .ok r)
    (hs : (Pass.full.tile mode subtitles shifted t).result = .ok s) :
    r.field "previous" = s.field "value" := by
  obtain ⟨p, ready, o, hp, hready, ho, hr⟩ := tile_eq_ok hr
  obtain ⟨p', ready', o', hp', hready', ho', hs⟩ := tile_eq_ok hs
  have hfull : Pass.full.plan t = .ok plan := hplan
  rw [hfull] at hp hp'
  cases hp
  cases hp'
  rw [hready] at hready'
  cases hready'
  have hrows : rowsFor t shifted.current shifted.all = rowsFor t w.previous w.all := by
    rw [hcurrent, hall]
  rw [hrows] at ho'
  rw [(field_of_assemble hr).2, (field_of_assemble hs).1]
  change o.previous = o'.value
  exact Plan.previous_eq_value (Plan.compares_of_prepare hcompares hready) ho ho'

theorem previous_eq_value_of_run {mode : Mode} {metrics descriptions : Value}
    {w shifted : Windows Value} {tiles : List (Tile Filter)} {results others : List Value}
    (hcurrent : shifted.current = w.previous) (hall : shifted.all = w.all)
    (htiles : Tile.listOfValue descriptions = .ok tiles)
    (hr : (Pass.full.run mode metrics w descriptions).result = .ok results)
    (hs : (Pass.full.run mode metrics shifted descriptions).result = .ok others)
    {i : Nat} {t : Tile Filter} {plan : Plan Filter} (ht : tiles[i]? = some t)
    (hplan : Plan.full t = .ok plan) (hcompares : plan.Compares) :
    ∃ r s, results[i]? = some r ∧ others[i]? = some s ∧ r.field "previous" = s.field "value" := by
  obtain ⟨subtitles, ts, hsub, hts, hresults⟩ := run_eq_ok hr
  obtain ⟨subtitles', ts', hsub', hts', hothers⟩ := run_eq_ok hs
  rw [htiles] at hts hts'
  cases hts
  cases hts'
  rw [hsub] at hsub'
  cases hsub'
  obtain ⟨hlt, hget⟩ := List.getElem?_eq_some_iff.mp ht
  have hlt₁ : i < results.length := hresults.length_eq ▸ hlt
  have hlt₂ : i < others.length := hothers.length_eq ▸ hlt
  refine ⟨results[i], others[i], List.getElem?_eq_getElem hlt₁, List.getElem?_eq_getElem hlt₂, ?_⟩
  have hr := hresults.get hlt hlt₁
  have hs := hothers.get hlt hlt₂
  simp only [List.get_eq_getElem, hget] at hr hs
  exact previous_eq_value_of_tile hcurrent hall hplan hcompares hr hs

end Pass

namespace Windows

-- Whenever both selections come to windows, the period before has as its own window
-- what the period has as its previous one. So the value that a count or a metric shows
-- as the one before is what it shows as its value for the period before.
theorem shifted_shows_previous
    {dateColumn start finish earlierStart earlierFinish metrics descriptions : Value}
    {before : Option Period} {rows : List Value} {w shifted : Windows Value} {mode : Mode}
    (hselect : select (timeIn dateColumn) start finish rows = .ok w)
    (hbefore : Period.beforeValues start finish = .ok before)
    (hends : Period.ofValues earlierStart earlierFinish = .ok before)
    (hshifted : select (timeIn dateColumn) earlierStart earlierFinish rows = .ok shifted) :
    shifted.current = w.previous ∧
    ∀ (tiles : List (Tile Filter)) (results others : List Value),
      Tile.listOfValue descriptions = .ok tiles →
      (Pass.full.run mode metrics w descriptions).result = .ok results →
      (Pass.full.run mode metrics shifted descriptions).result = .ok others →
      ∀ (i : Nat) t plan, tiles[i]? = some t → Plan.full t = .ok plan → plan.Compares →
        ∃ r s, results[i]? = some r ∧ others[i]? = some s ∧
          r.field "previous" = s.field "value" := by
  obtain ⟨hcurrent, hall⟩ := current_eq_previous hselect hbefore hends hshifted
  refine ⟨hcurrent, ?_⟩
  intro tiles results others htiles hr hs i t plan ht hplan hcompares
  exact Pass.previous_eq_value_of_run hcurrent hall htiles hr hs ht hplan hcompares

def datedDescription : List (String × Value) :=
  [("key", .text "dated"), ("filter", .object [("column", .text "day"), ("isNotNull", .bool true)])]

def hasDay : Filter := .leaf (.text "day") (some (.isNull true)) (.bool true)

def datedTile : Tile Filter where
  key := "dated"
  title := ""
  subtitle := .null
  matchKey := .null
  filter := some hasDay
  percentage := none
  average := none
  metric := .null
  field := .null
  column := .null
  component := .null
  distinct := false
  distinctColumn := .null
  preCalculated := false
  value := .null
  clickFilter := .null
  clickable := .null
  noRangeFilter := false
  filterType := .null
  thresholds := none
  description := datedDescription

def fourHours : List Value := [atHour 5, atHour 30, atHour 24, atHour 49]

def ofSecondDay : Windows Value := ⟨[atHour 30, atHour 24], [atHour 5, atHour 24], fourHours⟩

def ofFirstDay : Windows Value := ⟨[atHour 5, atHour 24], [], fourHours⟩

theorem firstDay_shows_previous :
    ∃ results others : List Value,
      (Pass.full.run .permissive .null ofSecondDay (.list [.object datedDescription])).result =
        .ok results ∧
      (Pass.full.run .permissive .null ofFirstDay (.list [.object datedDescription])).result =
        .ok others ∧
      ∃ r s, results[0]? = some r ∧ others[0]? = some s ∧
        r.field "previous" = s.field "value" := by
  have hstart : (Value.text "1970-01-02").instant = .ok (some secondDay.first) := by cbv
  have hfinish : (Value.text "1970-01-03").instant = .ok (some secondDay.last) := by cbv
  have hselect : select (timeIn (.text "day")) (.text "1970-01-02") (.text "1970-01-03") fourHours =
      .ok ofSecondDay := by
    rw [select_eq_ofPeriod _ hstart hfinish]
    rfl
  have hbefore : Period.beforeValues (.text "1970-01-02") (.text "1970-01-03") =
      .ok (some ⟨⟨0, by decide⟩, secondDay.first⟩) := by cbv
  have hends : Period.ofValues (.int 0) (.text "1970-01-02") =
      .ok (some ⟨⟨0, by decide⟩, secondDay.first⟩) := by cbv
  have hshifted : select (timeIn (.text "day")) (.int 0) (.text "1970-01-02") fourHours =
      .ok ofFirstDay := by
    unfold select
    rw [hends]
    rfl
  obtain ⟨results, hr⟩ : ∃ results, (Pass.full.run .permissive .null ofSecondDay
      (.list [.object datedDescription])).result = .ok results :=
    eq_ok_of_isOk (by decide +kernel)
  obtain ⟨others, hs⟩ : ∃ others, (Pass.full.run .permissive .null ofFirstDay
      (.list [.object datedDescription])).result = .ok others :=
    eq_ok_of_isOk (by decide +kernel)
  have hshows := (shifted_shows_previous hselect hbefore hends hshifted).2
    [datedTile] results others rfl hr hs
  exact ⟨results, others, hr, hs, hshows 0 datedTile (.count hasDay .null false) rfl rfl trivial⟩

end Windows

end Tileboard
