import Tileboard.Tile.Pass
import Tileboard.Proofs.Computation

namespace Tileboard

variable {F G H : Type}

namespace Tile

def map (g : F → G) (t : Tile F) : Tile G :=
  { t with filter := t.filter.map g, percentage := t.percentage.map (Prod.map g g) }

-- Filters are visited in the order of the fields, those that are there.
theorem mapFilters_eq {m : Type → Type} [Monad m] [LawfulMonad m] (f : F → m G) (t : Tile F) :
    t.mapFilters f = (do
      let filter ← t.filter.mapM f
      let percentage ← t.percentage.mapM fun share => do
        let numerator ← f share.1
        let denominator ← f share.2
        pure (numerator, denominator)
      pure { t with filter, percentage }) := by
  unfold mapFilters
  rcases t.filter with _ | a <;> rcases t.percentage with _ | ⟨b, c⟩ <;>
    simp only [Option.mapM_none, Option.mapM_some, pure_bind, map_eq_pure_bind, bind_assoc]

theorem map_map (g : F → G) (h : G → H) (t : Tile F) : (t.map g).map h = t.map (h ∘ g) := by
  simp only [map, Option.map_map, Prod.map_comp_map]

end Tile

namespace Plan

def map (g : F → G) : Plan F → Plan G
  | .fixed value => .fixed value
  | .group filter column field metric filterType =>
      .group (filter.map g) column field metric filterType
  | .aggregate filter field metric compare => .aggregate (filter.map g) field metric compare
  | .count filter distinctColumn shareOfBase => .count (g filter) distinctColumn shareOfBase
  | .share numerator denominator => .share (g numerator) (g denominator)
  | .duration filter start finish => .duration (filter.map g) start finish
  | .days start finish => .days start finish

-- The metric that a tile is aggregated by, and the filter that it counts with.
def metricOf (t : Tile F) : Option Metric :=
  if t.field.holds then Metric.ofValue? t.metric else none

def countedOf (t : Tile F) : Option F :=
  if t.average.isSome || t.percentage.isSome || t.metric.holds then none else t.filter

def measured (t : Tile F) : Plan F :=
  match metricOf t, countedOf t, t.percentage, t.average with
  | some m, _, _, _ => .aggregate t.filter t.field m (!t.noRangeFilter)
  | none, some f, _, _ => .count f (if t.distinct then t.distinctColumn else .null) t.noRangeFilter
  | none, none, some (numerator, denominator), _ => .share numerator denominator
  | none, none, none, some (start, finish) => .duration t.filter start finish
  | none, none, none, none => .fixed (numberOrZero t.value)

theorem full_eq (t : Tile F) : full t =
    if t.preCalculated then .ok (.fixed (numberOrZero t.value))
    else t.isGrouped.map fun grouped =>
      if grouped then .group t.filter t.column t.field (Metric.ofValue? t.metric) t.filterType
      else measured t := by
  unfold full
  rcases t.isGrouped with e | grouped
  · rfl
  cases grouped with
  | true => rfl
  | false =>
      refine if_congr Iff.rfl rfl ?_
      simp only [ok_bind, Bool.false_eq_true, if_false, Except.map, measured, metricOf, countedOf]
      generalize (if t.field.holds then Metric.ofValue? t.metric else none) = metric
      generalize (if t.average.isSome || t.percentage.isSome || t.metric.holds then none
        else t.filter) = counted
      rcases metric with _ | m
      · rcases counted with _ | f
        · rcases t.percentage with _ | share
          · rcases t.average with _ | dates <;> rfl
          · rfl
        · rfl
      · rfl

theorem countedOf_map (g : F → G) (t : Tile F) : countedOf (t.map g) = (countedOf t).map g := by
  simp only [countedOf, Tile.map, Option.isSome_map]
  split <;> rfl

theorem measured_map (g : F → G) (t : Tile F) : measured (t.map g) = (measured t).map g := by
  have hmetric : metricOf (t.map g) = metricOf t := rfl
  unfold measured
  rw [hmetric, countedOf_map]
  cases metricOf t with
  | some m => rfl
  | none =>
      cases countedOf t with
      | some f => rfl
      | none =>
          unfold Tile.map
          rcases t.percentage with _ | share
          · rcases t.average with _ | dates <;> rfl
          · rfl

theorem full_map (g : F → G) (t : Tile F) : full (t.map g) = (full t).map (Plan.map g) := by
  have hgrouped : (t.map g).isGrouped = t.isGrouped := rfl
  have hown : (t.map g).preCalculated = t.preCalculated := rfl
  rw [full_eq, full_eq, hgrouped, hown]
  cases t.preCalculated with
  | true => rfl
  | false =>
      rcases t.isGrouped with e | grouped
      · rfl
      cases grouped with
      | true => rfl
      | false => exact congrArg Except.ok (measured_map g t)

theorem simple_map (g : F → G) (t : Tile F) : simple (t.map g) = (simple t).map g := by
  unfold simple Tile.map
  rcases t.filter with _ | f <;> rcases t.percentage with _ | ⟨a, b⟩ <;>
    rcases t.average with _ | ⟨c, d⟩ <;> rfl

theorem prepare_eq {m : Type → Type} [Monad m] [LawfulMonad m] (f : F → m G) (plan : Plan F) :
    plan.prepare f = match plan with
      | .fixed value => pure (.fixed value)
      | .group filter column field metric filterType =>
          (Plan.group · column field metric filterType) <$> filter.mapM f
      | .aggregate filter field metric compare =>
          (Plan.aggregate · field metric compare) <$> filter.mapM f
      | .count filter distinctColumn shareOfBase =>
          (Plan.count · distinctColumn shareOfBase) <$> f filter
      | .share numerator denominator => do
          let top ← f numerator
          Plan.share top <$> f denominator
      | .duration filter start finish => (Plan.duration · start finish) <$> filter.mapM f
      | .days start finish => pure (.days start finish) := by
  simp only [map_eq_pure_bind]
  cases plan with
  | group filter column field metric filterType => cases filter <;> simp [prepare]
  | aggregate filter field metric compare => cases filter <;> simp [prepare]
  | duration filter start finish => cases filter <;> simp [prepare]
  | _ => rfl

theorem prepare_map {m : Type → Type} [Monad m] (plan : Plan F) (g : F → G) (f : G → m H) :
    (plan.map g).prepare f = plan.prepare fun a => f (g a) := by
  cases plan with
  | group filter column field metric filterType => cases filter <;> rfl
  | aggregate filter field metric compare => cases filter <;> rfl
  | duration filter start finish => cases filter <;> rfl
  | _ => rfl

-- Making filters ready comes to the same whether or not notes are taken.
theorem prepare_result (plan : Plan F) (f : F → Traced G) :
    (plan.prepare f).result = plan.prepare fun a => (f a).result := by
  have hoptional : ∀ o : Option F, (o.mapM f).result = o.mapM fun a => (f a).result := fun o =>
    match o with
    | none => rfl
    | some a => Traced.result_map some (f a)
  rw [prepare_eq, prepare_eq]
  cases plan with
  | group filter column field metric filterType =>
      exact (Traced.result_map _ _).trans (congrArg _ (hoptional filter))
  | aggregate filter field metric compare =>
      exact (Traced.result_map _ _).trans (congrArg _ (hoptional filter))
  | count filter distinctColumn shareOfBase => exact Traced.result_map _ _
  | share numerator denominator =>
      simp only [Traced.result_bind, Traced.result_map]
  | duration filter start finish =>
      exact (Traced.result_map _ _).trans (congrArg _ (hoptional filter))
  | _ => rfl

end Plan

namespace Pass

theorem plan_map (pass : Pass) (g : F → G) (t : Tile F) :
    pass.plan (t.map g) = (pass.plan t).map (Plan.map g) := by
  cases pass with
  | full => exact Plan.full_map g t
  | simple => exact congrArg Except.ok (Plan.simple_map g t)

theorem result_map (pass : Pass) (subtitles : Subtitles) (windows : Windows Value) (g : F → G)
    (t : Tile F) (plan : Plan Matcher) :
    pass.result subtitles windows (t.map g) plan = pass.result subtitles windows t plan := by
  have houtcome : pass.shownOutcome (t.map g) = pass.shownOutcome t := by
    funext o
    simp only [shownOutcome, Tile.map, Option.isSome_map]
  have hclick : pass.clickFilter (t.map g) = pass.clickFilter t := by
    simp only [clickFilter, Tile.map, Option.isSome_map]
  unfold result
  rw [houtcome]
  unfold assemble
  rw [hclick]
  rfl

end Pass

end Tileboard
