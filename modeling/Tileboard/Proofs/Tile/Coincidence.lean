import Tileboard.Proofs.Filter.Strictness
import Tileboard.Proofs.Tile.Filters
import Tileboard.Proofs.Tile.Result

namespace Tileboard

theorem Metric.ofValue?_eq_none {v : Value} (h : v.holds = false) : Metric.ofValue? v = none := by
  cases v with
  | text s =>
      have hempty : s = "" := by simpa [Value.holds] using h
      subst hempty
      rfl
  | _ => rfl

namespace Traced

-- Two computations that do not come to different results.
def Compatible {α : Type} (x y : Traced α) : Prop :=
  ∀ a b, x.result = .ok a → y.result = .ok b → a = b

theorem Compatible.refl {α : Type} (x : Traced α) : Compatible x x :=
  fun _ _ hx hy => Except.ok.inj (hx.symm.trans hy)

theorem Compatible.bind {α β : Type} {x y : Traced α} {f g : α → Traced β}
    (h : Compatible x y) (hfg : ∀ a, Compatible (f a) (g a)) :
    Compatible (x >>= f) (y >>= g) := by
  intro b c hb hc
  obtain ⟨a, hx, hb⟩ := bind_result_eq_ok_iff.mp hb
  obtain ⟨a', hy, hc⟩ := bind_result_eq_ok_iff.mp hc
  obtain rfl := h a a' hx hy
  exact hfg a b c hb hc

theorem Compatible.map {α β : Type} {x y : Traced α} (h : Compatible x y) (k : α → β) :
    Compatible (k <$> x) (k <$> y) := by
  simp only [map_eq_pure_bind]
  exact h.bind fun _ => .refl _

theorem Compatible.option {α β : Type} {f g : α → Traced β} (h : ∀ a, Compatible (f a) (g a))
    (o : Option α) : Compatible (o.mapM f) (o.mapM g) := by
  cases o with
  | none => exact .refl _
  | some a => exact (h a).map some

end Traced

namespace Tile

section Reading

variable {v : Value} {t : Tile Filter}

-- What the plans of a tile go by, as its description has it.
structure Described (v : Value) (t : Tile Filter) : Prop where
  filter : filterOf (v.field "filter") = .ok t.filter
  percentage : percentageOf (v.field "percentage") = .ok t.percentage
  average : averageOf (v.field "average") = .ok t.average
  metric : t.metric = v.field "metric"
  distinct : t.distinct = (v.field "distinct").holds
  preCalculated : t.preCalculated = (v.field "preCalculated").holds
  value : t.value = v.field "value"
  noRangeFilter : t.noRangeFilter = (v.field "noRangeFilter").holds

theorem described_of_ofValue (h : ofValue v = .ok t) : Described v t := by
  cases v with
  | object fields =>
      obtain ⟨filter, hfilter, h⟩ := bind_eq_ok_iff.mp h
      obtain ⟨percentage, hpercentage, h⟩ := bind_eq_ok_iff.mp h
      obtain ⟨average, haverage, h⟩ := bind_eq_ok_iff.mp h
      obtain ⟨thresholds, -, h⟩ := bind_eq_ok_iff.mp h
      cases h
      exact ⟨hfilter, hpercentage, haverage, rfl, rfl, rfl, rfl, rfl⟩
  | _ => cases h

-- Only null is no filter; of the other two, all that does not hold is none.
theorem Described.filter_isSome (h : Described v t) :
    t.filter.isSome = !(v.field "filter").isNull := by
  have hfilter := h.filter
  unfold filterOf at hfilter
  split at hfilter
  · rename_i hnull
    rw [← Except.ok.inj hfilter, hnull]
    rfl
  · rename_i hnull
    obtain ⟨f, -, hf⟩ := map_eq_ok_iff.mp hfilter
    rw [← hf, Bool.eq_false_iff.mpr hnull]
    rfl

theorem Described.percentage_isSome (h : Described v t) :
    t.percentage.isSome = (v.field "percentage").holds := by
  have hpercentage := h.percentage
  unfold percentageOf at hpercentage
  split at hpercentage
  · rename_i hholds
    obtain ⟨_, -, hpercentage⟩ := bind_eq_ok_iff.mp hpercentage
    obtain ⟨_, -, hpercentage⟩ := bind_eq_ok_iff.mp hpercentage
    obtain ⟨_, -, hpercentage⟩ := bind_eq_ok_iff.mp hpercentage
    obtain ⟨_, -, hpercentage⟩ := bind_eq_ok_iff.mp hpercentage
    rw [← Except.ok.inj hpercentage, hholds]
    rfl
  · rename_i hholds
    rw [← Except.ok.inj hpercentage, Bool.eq_false_iff.mpr hholds]
    rfl

theorem Described.average_isSome (h : Described v t) :
    t.average.isSome = (v.field "average").holds := by
  have haverage := h.average
  unfold averageOf at haverage
  split at haverage
  · rename_i hholds
    obtain ⟨_, -, haverage⟩ := bind_eq_ok_iff.mp haverage
    obtain ⟨_, -, haverage⟩ := bind_eq_ok_iff.mp haverage
    rw [← Except.ok.inj haverage, hholds]
    rfl
  · rename_i hholds
    rw [← Except.ok.inj haverage, Bool.eq_false_iff.mpr hholds]
    rfl

end Reading

end Tile

namespace Plan

section Coinciding

variable {F : Type} {t : Tile F}

-- Without a metric a tile has no groups, and its rows are not aggregated.
theorem full_without_metric (hown : t.preCalculated = false) (hmetric : t.metric.holds = false) :
    full t = .ok (measured t) ∧ metricOf t = none := by
  have hgrouped : t.isGrouped = .ok false := by
    unfold Tile.isGrouped
    rw [hmetric]
    rfl
  constructor
  · rw [full_eq, hown, hgrouped]
    rfl
  · rw [metricOf, Metric.ofValue?_eq_none hmetric, ite_self]

theorem full_eq_simple_of_filter (hown : t.preCalculated = false)
    (hmetric : t.metric.holds = false) (hfilter : t.filter.isSome = true)
    (hpercentage : t.percentage.isSome = false) (haverage : t.average.isSome = false)
    (hdistinct : t.distinct = false) (hrange : t.noRangeFilter = false) :
    full t = .ok (simple t) := by
  obtain ⟨f, hf⟩ := Option.isSome_iff_exists.mp hfilter
  obtain ⟨hfull, hnone⟩ := full_without_metric hown hmetric
  have hcounted : countedOf t = some f := by
    rw [countedOf, haverage, hpercentage, hmetric]
    exact hf
  rw [hfull, measured, hnone, hcounted, simple, hf, hdistinct, hrange]
  rfl

theorem full_eq_simple_of_percentage (hown : t.preCalculated = false)
    (hmetric : t.metric.holds = false) (hfilter : t.filter.isSome = false)
    (hpercentage : t.percentage.isSome = true) : full t = .ok (simple t) := by
  obtain ⟨⟨numerator, denominator⟩, hshare⟩ := Option.isSome_iff_exists.mp hpercentage
  have hf : t.filter = none := by simpa using hfilter
  obtain ⟨hfull, hnone⟩ := full_without_metric hown hmetric
  rw [hfull, measured, hnone, countedOf, hf, ite_self, simple, hf, hshare]

theorem full_eq_simple_of_number (hmetric : t.metric.holds = false)
    (hfilter : t.filter.isSome = false) (hpercentage : t.percentage.isSome = false)
    (haverage : t.average.isSome = false) (hvalue : t.value.isNumber = true) :
    full t = .ok (.fixed t.value) ∧ simple t = .fixed t.value := by
  have hf : t.filter = none := by simpa using hfilter
  have hp : t.percentage = none := by simpa using hpercentage
  have ha : t.average = none := by simpa using haverage
  have hnumber : numberOrZero t.value = t.value := by rw [numberOrZero, if_pos hvalue]
  have hnull : t.value.isNull = false := by
    cases hv : t.value with
    | number n => rfl
    | _ => simp [hv, Value.isNumber] at hvalue
  constructor
  · cases hown : t.preCalculated with
    | true =>
        unfold full
        rw [if_pos hown, hnumber]
        rfl
    | false =>
        obtain ⟨hfull, hnone⟩ := full_without_metric hown hmetric
        rw [hfull, measured, hnone, countedOf, hf, ite_self, hp, ha, hnumber]
  · simp only [simple, hf, hp, ha, hnull, Bool.false_eq_true, if_false]

end Coinciding

-- Plans whose filters are made ready in two ways come to the same, where each filter does.
theorem prepare_compatible {F G : Type} {f g : F → Traced G}
    (h : ∀ a, (f a).Compatible (g a)) (plan : Plan F) :
    (plan.prepare f).Compatible (plan.prepare g) := by
  rw [prepare_eq, prepare_eq]
  cases plan with
  | group filter column field metric filterType => exact (Traced.Compatible.option h filter).map _
  | aggregate filter field metric compare => exact (Traced.Compatible.option h filter).map _
  | count filter distinctColumn shareOfBase => exact (h filter).map _
  | share numerator denominator => exact (h numerator).bind fun _ => (h denominator).map _
  | duration filter start finish => exact (Traced.Compatible.option h filter).map _
  | _ => exact .refl _

end Plan

namespace Pass

section Coinciding

variable {mode other : Mode} {subtitles : Subtitles} {w : Windows Value} {t : Tile Filter}
  {r s : Value}

-- Where both passes have the plan of the simple one, what they show comes from one outcome.
theorem shown_of_same_plan (hplan : Plan.full t = .ok (Plan.simple t))
    (hr : (Pass.full.tile mode subtitles w t).result = .ok r)
    (hs : (Pass.simple.tile other subtitles w t).result = .ok s) :
    ∃ ready o subtitle trend,
      ((Plan.simple t).prepare (Matcher.ofFilter mode)).result = .ok ready ∧
      (ready.run (rowsFor t w.current w.all) (rowsFor t w.previous w.all)).result = .ok o ∧
      r = .object (Pass.full.shown t o subtitle trend) ∧
      s = .object (Pass.simple.shown t (Pass.simple.shownOutcome t o) subtitle trend) := by
  obtain ⟨plan, ready, o, hfull, hready, ho, hr⟩ := tile_eq_ok hr
  obtain ⟨planOther, readyOther, oOther, hsimple, hreadyOther, hoOther, hs⟩ := tile_eq_ok hs
  obtain rfl : Plan.simple t = plan := Except.ok.inj (hplan.symm.trans hfull)
  obtain rfl : Plan.simple t = planOther := Except.ok.inj hsimple
  obtain rfl := Plan.prepare_compatible (fun f _ _ => Matcher.ofFilter_unique) _ _ _ hready
    hreadyOther
  obtain rfl : o = oOther := Except.ok.inj (ho.symm.trans hoOther)
  obtain ⟨subtitle, trend, hsubtitle, htrend, rfl⟩ := assemble_eq_ok_iff.mp hr
  obtain ⟨subtitleOther, trendOther, hsubtitleOther, htrendOther, rfl⟩ := assemble_eq_ok_iff.mp hs
  obtain rfl : subtitle = subtitleOther :=
    Except.ok.inj (hsubtitle.symm.trans hsubtitleOther)
  -- the outcome that the simple pass shows has the trend of the one that is measured
  have hsame : (Pass.simple.shownOutcome t o).trendText = o.trendText := by
    unfold shownOutcome
    cases t.filter.isSome <;> rfl
  obtain rfl : trend = trendOther :=
    Except.ok.inj (htrend.symm.trans (hsame.symm.trans htrendOther))
  exact ⟨ready, o, subtitle, trend, hready, ho, rfl, rfl⟩

end Coinciding

-- Two results that both have a field, with the same value.
def ShowAlike (name : String) (r s : Value) : Prop :=
  ∃ v, r.field? name = some v ∧ s.field? name = some v

-- What a full and a simple result of one description have to have in common.
structure Coincide (description full simple : Value) : Prop where
  -- A filter is counted in both passes, if nothing else is asked for and the range applies.
  counted : (description.field "filter").isNull = false →
    (∀ name ∈ ["preCalculated", "metric", "percentage", "average", "distinct", "noRangeFilter"],
      (description.field name).holds = false) →
    ∀ name ∈ ["value", "previous", "trend", "direction", "subtitle"], ShowAlike name full simple
  -- So is a percentage shared out, whatever else is there.
  shared : (description.field "percentage").holds = true →
    (description.field "filter").isNull = true →
    (∀ name ∈ ["preCalculated", "metric"], (description.field name).holds = false) →
    ∀ name ∈ ["value", "trend", "direction", "percent", "subtitle"], ShowAlike name full simple
  -- A number of a tile's own is shown as it is.
  fixed : (description.field "value").isNumber = true →
    (description.field "filter").isNull = true →
    (∀ name ∈ ["percentage", "average", "metric"], (description.field name).holds = false) →
    full.field? "value" = some (description.field "value") ∧
      simple.field? "value" = some (description.field "value")

theorem showAlike_of_lookup {F : Type} {t : Tile F} {o simple : Outcome}
    {subtitle trend v : Value} {name : String}
    (h : (results o subtitle trend).lookup name = some v)
    (hsimple : (results simple subtitle trend).lookup name = some v) :
    ShowAlike name (.object (Pass.full.shown t o subtitle trend))
      (.object (Pass.simple.shown t simple subtitle trend)) :=
  ⟨v, field?_shown _ _ _ _ _ h, field?_shown _ _ _ _ _ hsimple⟩

section Described

variable {mode other : Mode} {subtitles : Subtitles} {w : Windows Value} {d r s : Value}
  {t : Tile Filter}

theorem counted_alike (hd : Tile.Described d t)
    (hr : (Pass.full.tile mode subtitles w t).result = .ok r)
    (hs : (Pass.simple.tile other subtitles w t).result = .ok s)
    (hfilter : (d.field "filter").isNull = false)
    (hnone : ∀ name ∈ ["preCalculated", "metric", "percentage", "average", "distinct",
      "noRangeFilter"], (d.field name).holds = false) {name : String}
    (hname : name ∈ ["value", "previous", "trend", "direction", "subtitle"]) :
    ShowAlike name r s := by
  simp only [List.forall_mem_cons, List.not_mem_nil, false_imp_iff, implies_true, and_true]
    at hnone
  obtain ⟨hown, hmetric, hpercentage, haverage, hdistinct, hrange⟩ := hnone
  have hsome : t.filter.isSome = true := by rw [hd.filter_isSome, hfilter]; rfl
  have hplan : Plan.full t = .ok (Plan.simple t) := Plan.full_eq_simple_of_filter
    (hd.preCalculated.trans hown) (hd.metric ▸ hmetric) hsome
    (hd.percentage_isSome.trans hpercentage) (hd.average_isSome.trans haverage)
    (hd.distinct.trans hdistinct) (hd.noRangeFilter.trans hrange)
  obtain ⟨_, o, subtitle, trend, -, -, rfl, rfl⟩ := shown_of_same_plan hplan hr hs
  -- what the simple pass leaves out of a count is its percent, which is not among the names
  have hshown : Pass.simple.shownOutcome t o =
      { o with change := { o.change with percent := none } } := if_pos hsome
  rw [hshown]
  simp only [List.mem_cons, List.not_mem_nil, or_false] at hname
  rcases hname with rfl | rfl | rfl | rfl | rfl <;> exact showAlike_of_lookup rfl rfl

theorem shared_alike (hd : Tile.Described d t)
    (hr : (Pass.full.tile mode subtitles w t).result = .ok r)
    (hs : (Pass.simple.tile other subtitles w t).result = .ok s)
    (hpercentage : (d.field "percentage").holds = true)
    (hfilter : (d.field "filter").isNull = true)
    (hnone : ∀ name ∈ ["preCalculated", "metric"], (d.field name).holds = false) {name : String}
    (hname : name ∈ ["value", "trend", "direction", "percent", "subtitle"]) :
    ShowAlike name r s := by
  simp only [List.forall_mem_cons, List.not_mem_nil, false_imp_iff, implies_true, and_true]
    at hnone
  have hnofilter : t.filter.isSome = false := by rw [hd.filter_isSome, hfilter]; rfl
  have hplan : Plan.full t = .ok (Plan.simple t) := Plan.full_eq_simple_of_percentage
    (hd.preCalculated.trans hnone.1) (hd.metric ▸ hnone.2) hnofilter
    (hd.percentage_isSome.trans hpercentage)
  obtain ⟨_, o, subtitle, trend, -, -, rfl, rfl⟩ := shown_of_same_plan hplan hr hs
  -- what it leaves out of a share is the value before
  have hshown : Pass.simple.shownOutcome t o = { o with previous := .null } :=
    if_neg (by rw [hnofilter]; exact Bool.false_ne_true)
  rw [hshown]
  simp only [List.mem_cons, List.not_mem_nil, or_false] at hname
  rcases hname with rfl | rfl | rfl | rfl | rfl <;> exact showAlike_of_lookup rfl rfl

theorem fixed_alike (hd : Tile.Described d t)
    (hr : (Pass.full.tile mode subtitles w t).result = .ok r)
    (hs : (Pass.simple.tile other subtitles w t).result = .ok s)
    (hvalue : (d.field "value").isNumber = true) (hfilter : (d.field "filter").isNull = true)
    (hnone : ∀ name ∈ ["percentage", "average", "metric"], (d.field name).holds = false) :
    r.field? "value" = some (d.field "value") ∧ s.field? "value" = some (d.field "value") := by
  simp only [List.forall_mem_cons, List.not_mem_nil, false_imp_iff, implies_true, and_true]
    at hnone
  obtain ⟨hpercentage, haverage, hmetric⟩ := hnone
  have hnofilter : t.filter.isSome = false := by rw [hd.filter_isSome, hfilter]; rfl
  obtain ⟨hfull, hsimple⟩ := Plan.full_eq_simple_of_number (hd.metric ▸ hmetric) hnofilter
    (hd.percentage_isSome.trans hpercentage) (hd.average_isSome.trans haverage)
    (hd.value ▸ hvalue)
  obtain ⟨ready, o, subtitle, trend, hready, ho, rfl, rfl⟩ :=
    shown_of_same_plan (hfull.trans (congrArg _ hsimple.symm)) hr hs
  rw [hsimple] at hready
  obtain rfl : Plan.fixed t.value = ready := Except.ok.inj hready
  obtain rfl : Outcome.ofValue t.value (.int 0) = o := Except.ok.inj ho
  have hshown : Pass.simple.shownOutcome t (.ofValue t.value (.int 0)) =
      .ofValue t.value .null := if_neg (by rw [hnofilter]; exact Bool.false_ne_true)
  rw [hshown, ← hd.value]
  exact ⟨field?_shown _ _ _ _ _ rfl, field?_shown _ _ _ _ _ rfl⟩

theorem coincide_of_tiles (ht : Tile.ofValue d = .ok t)
    (hr : (Pass.full.tile mode subtitles w t).result = .ok r)
    (hs : (Pass.simple.tile other subtitles w t).result = .ok s) : Coincide d r s :=
  have hd := Tile.described_of_ofValue ht
  { counted := fun hfilter hnone _ hname => counted_alike hd hr hs hfilter hnone hname
    shared := fun hpercentage hfilter hnone _ hname =>
      shared_alike hd hr hs hpercentage hfilter hnone hname
    fixed := fixed_alike hd hr hs }

end Described

-- Wherever both passes come to an end, over the same windows and with the same metrics, their
-- results coincide as far as their kinds of tiles do; in which mode each of them reads its
-- filters makes no difference.
theorem passes_coincide {mode other : Mode} {metrics : Value} {descriptions : List Value}
    {w : Windows Value} {full simple : List Value}
    (hfull : (Pass.full.run mode metrics w (.list descriptions)).result = .ok full)
    (hsimple : (Pass.simple.run other metrics w (.list descriptions)).result = .ok simple) :
    full.length = descriptions.length ∧ simple.length = descriptions.length ∧
      ∀ (i : Nat) d r s, descriptions[i]? = some d → full[i]? = some r → simple[i]? = some s →
        Coincide d r s := by
  obtain ⟨subtitles, ts, hsubtitles, hts, hfull⟩ := run_eq_ok hfull
  obtain ⟨subtitlesOther, tsOther, hsubtitlesOther, htsOther, hsimple⟩ := run_eq_ok hsimple
  obtain rfl : subtitles = subtitlesOther :=
    Except.ok.inj (hsubtitles.symm.trans hsubtitlesOther)
  obtain rfl : ts = tsOther := Except.ok.inj (hts.symm.trans htsOther)
  rw [Tile.listOfValue_list] at hts
  have hread := mapM_eq_ok hts
  refine ⟨hfull.length_eq.symm.trans hread.length_eq.symm,
    hsimple.length_eq.symm.trans hread.length_eq.symm, fun i d r s hd hr hs => ?_⟩
  obtain ⟨hi, rfl⟩ := List.getElem?_eq_some_iff.mp hd
  obtain ⟨hir, rfl⟩ := List.getElem?_eq_some_iff.mp hr
  obtain ⟨his, rfl⟩ := List.getElem?_eq_some_iff.mp hs
  have hit : i < ts.length := hread.length_eq ▸ hi
  exact coincide_of_tiles (hread.get hi hit) (hfull.get hit hir) (hsimple.get hit his)

-- A count with fields that are there but ask nothing, a share, and a number of its own.
def threeKinds : List Value :=
  [.object [("key", .text "late"), ("metric", .text ""), ("average", .object []),
      ("filter", .object [("column", .text "status"), ("equals", .text "late")])],
    .object [("key", .text "part"), ("filter", .null), ("percentage", .object
      [("numerator", .object [("column", .text "status"), ("equals", .text "late")]),
        ("denominator", .object [("and", .list [])])])],
    .object [("key", .text "goal"), ("preCalculated", .bool true), ("value", .int 7)]]

def deliveries : Windows Value :=
  ⟨[.object [("status", .text "Late")], .object [("status", .text "sent")]],
    [.object [("status", .text "late")]], []⟩

theorem threeKinds_coincide :
    ∃ full simple, (Pass.full.run .permissive .null deliveries (.list threeKinds)).result =
        .ok full ∧
      (Pass.simple.run .strict .null deliveries (.list threeKinds)).result = .ok simple ∧
      full.length = 3 ∧ simple.length = 3 ∧
      ∀ (i : Nat) d r s, threeKinds[i]? = some d → full[i]? = some r → simple[i]? = some s →
        Coincide d r s := by
  obtain ⟨full, hfull⟩ := eq_ok_of_isOk (show (Pass.full.run .permissive .null deliveries
    (.list threeKinds)).result.isOk = true by decide +kernel)
  obtain ⟨simple, hsimple⟩ := eq_ok_of_isOk (show (Pass.simple.run .strict .null deliveries
    (.list threeKinds)).result.isOk = true by decide +kernel)
  exact ⟨full, simple, hfull, hsimple, passes_coincide hfull hsimple⟩

end Pass

end Tileboard
