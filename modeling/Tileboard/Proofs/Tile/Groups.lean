import Tileboard.Proofs.Measure.Grouping
import Tileboard.Proofs.Measure.Outcome
import Tileboard.Proofs.Tile.Result

namespace Tileboard

namespace Tile

-- A tile that is measured group by group: it asks for groups and has no value of its own.
def Grouped {F : Type} (t : Tile F) : Prop := t.preCalculated = false ∧ t.isGrouped = .ok true

end Tile

namespace Plan

def isGroup {F : Type} : Plan F → Bool
  | .group .. => true
  | _ => false

theorem full_isGroup_iff {F : Type} {t : Tile F} {plan : Plan F} (h : full t = .ok plan) :
    plan.isGroup = true ↔ t.Grouped := by
  unfold full at h
  unfold Tile.Grouped
  cases hfixed : t.preCalculated with
  | true =>
      rw [hfixed] at h
      cases h
      exact iff_of_false nofun (by simp)
  | false =>
      rw [hfixed] at h
      obtain ⟨grouped, hgrouped, h⟩ := bind_eq_ok_iff.mp h
      rw [hgrouped]
      cases grouped with
      | true =>
          cases h
          exact iff_of_true rfl ⟨rfl, rfl⟩
      | false =>
          refine iff_of_false ?_ (by simp)
          rw [if_neg Bool.false_ne_true] at h
          dsimp only at h
          split at h <;> cases h <;> nofun

theorem isGroup_of_prepare {F G : Type} {f : F → Traced G} {plan : Plan F} {ready : Plan G}
    (h : (plan.prepare f).result = .ok ready) : ready.isGroup = plan.isGroup := by
  cases plan with
  | fixed value | days start finish =>
      cases h
      rfl
  | group filter column field metric filterType =>
      obtain ⟨_, -, h⟩ := Traced.bind_result_eq_ok_iff.mp h
      cases h
      rfl
  | aggregate filter field metric compare =>
      obtain ⟨_, -, h⟩ := Traced.bind_result_eq_ok_iff.mp h
      cases h
      rfl
  | count filter distinctColumn shareOfBase =>
      obtain ⟨_, -, h⟩ := Traced.bind_result_eq_ok_iff.mp h
      cases h
      rfl
  | share numerator denominator =>
      obtain ⟨_, -, h⟩ := Traced.bind_result_eq_ok_iff.mp h
      obtain ⟨_, -, h⟩ := Traced.bind_result_eq_ok_iff.mp h
      cases h
      rfl
  | duration filter start finish =>
      obtain ⟨_, -, h⟩ := Traced.bind_result_eq_ok_iff.mp h
      cases h
      rfl

theorem groups_of_run {plan : Plan Matcher} {active previous : List Value} {o : Outcome}
    (h : (plan.run active previous).result = .ok o) : o.groups.isSome = plan.isGroup := by
  cases plan with
  | fixed value =>
      cases h
      rfl
  | group matcher column field metric filterType =>
      obtain ⟨groups, -, h⟩ := Traced.bind_result_eq_ok_iff.mp h
      obtain ⟨tiles, -, h⟩ := Traced.bind_result_eq_ok_iff.mp h
      cases h
      rfl
  | aggregate matcher field metric compare =>
      obtain ⟨_, _, -, -, -, -, hgroups⟩ := Measure.aggregate_eq_ok h
      rw [hgroups]
      rfl
  | count matcher distinctColumn shareOfBase =>
      obtain ⟨_, _, -, -, -, -, hgroups⟩ := Measure.count_eq_ok h
      rw [hgroups]
      rfl
  | share numerator denominator => rw [Measure.share_groups h]; rfl
  | duration matcher start finish => rw [Measure.meanDuration_groups h]; rfl
  | days start finish => rw [Measure.meanDays_groups h]; rfl

-- The tiles of groups are made of their keys and of what the metric makes of their numbers.
theorem tile_of_run {plan : Plan Matcher} {active previous tiles : List Value} {o : Outcome}
    (h : (plan.run active previous).result = .ok o) (htiles : o.groups = some tiles) {s : Value}
    (hs : s ∈ tiles) : ∃ column filterType key metric numbers value,
      Metric.aggregate metric numbers = .ok value ∧
        s = Measure.groupTile column filterType key value := by
  have hgroup := groups_of_run h
  rw [htiles] at hgroup
  cases plan with
  | group matcher column field metric filterType =>
      obtain ⟨tiles', kept, htiles', -, -, hall⟩ := Measure.grouped_eq_ok h
      rw [htiles] at htiles'
      cases htiles'
      obtain ⟨key, numbers, value, -, hvalue, rfl⟩ := hall s hs
      exact ⟨column, filterType, key, metric, numbers, value, hvalue, rfl⟩
  | _ => cases hgroup

end Plan

namespace Pass

section Results

variable {mode : Mode} {w : Windows Value} {t : Tile Filter}

def measured (pass : Pass) (mode : Mode) (w : Windows Value) (t : Tile Filter) : Traced Outcome := do
  let plan ← (← pass.plan t).prepare (Matcher.ofFilter mode)
  plan.run (rowsFor t w.current w.all) (rowsFor t w.previous w.all)

-- The tiles of the groups of a tile, if it has groups.
def subTiles (mode : Mode) (w : Windows Value) (t : Tile Filter) :
    Except Fault (Option (List Value)) :=
  (full.measured mode w t).result.map Outcome.groups

theorem subTiles_isSome_iff {own : Option (List Value)} (h : subTiles mode w t = .ok own) :
    own.isSome = true ↔ t.Grouped := by
  obtain ⟨o, ho, rfl⟩ := map_eq_ok_iff.mp h
  obtain ⟨plan, hplan, ho⟩ := Traced.lift_bind_eq_ok_iff.mp ho
  obtain ⟨ready, hready, ho⟩ := Traced.bind_result_eq_ok_iff.mp ho
  rw [Plan.groups_of_run ho, Plan.isGroup_of_prepare hready, Plan.full_isGroup_iff hplan]

theorem subTile_of_mem {tiles : List Value} (h : subTiles mode w t = .ok (some tiles)) {s : Value}
    (hs : s ∈ tiles) : ∃ column filterType key metric numbers value,
      Metric.aggregate metric numbers = .ok value ∧
        s = Measure.groupTile column filterType key value := by
  obtain ⟨o, ho, htiles⟩ := map_eq_ok_iff.mp h
  obtain ⟨plan, -, ho⟩ := Traced.lift_bind_eq_ok_iff.mp ho
  obtain ⟨ready, -, ho⟩ := Traced.bind_result_eq_ok_iff.mp ho
  exact Plan.tile_of_run ho htiles hs

-- What a result shows as its tiles: those of its groups, or what its description has there.
def shownTiles (t : Tile Filter) (own : Option (List Value)) : Value :=
  match own with
  | some tiles => .list tiles
  | none => (Value.object t.description).field "tiles"

theorem shown_of_result {subtitles : Subtitles} {r : Value}
    (h : (full.tile mode subtitles w t).result = .ok r) :
    ∃ own, subTiles mode w t = .ok own ∧ r.field "tiles" = shownTiles t own ∧
      ∀ name ∈ ["key", "title", "component"], r.field? name = t.description.lookup name := by
  obtain ⟨plan, ready, o, hplan, hready, ho, hassemble⟩ := tile_eq_ok h
  have hmeasured : (full.measured mode w t).result = .ok o :=
    Traced.lift_bind_eq_ok_iff.mpr ⟨plan, hplan, Traced.bind_result_eq_ok_iff.mpr ⟨ready, hready, ho⟩⟩
  change full.assemble subtitles t o = .ok r at hassemble
  obtain ⟨subtitle, trend, -, -, rfl⟩ := assemble_eq_ok_iff.mp hassemble
  refine ⟨o.groups, map_eq_ok_iff.mpr ⟨o, hmeasured, rfl⟩, ?_, fun name hname => ?_⟩
  · change ((shown full t o subtitle trend).lookup "tiles").getD .null = _
    unfold shown
    cases o.groups with
    | none =>
        rw [List.append_nil, lookup_putAll_of_notMem _ (by simp)]
        rfl
    | some tiles =>
        rw [lookup_putAll _ _ List.not_mem_nil]
        rfl
  · refine lookup_putAll_of_notMem _ ?_
    simp only [List.mem_cons, List.not_mem_nil, or_false] at hname
    rcases hname with rfl | rfl | rfl <;> cases o.groups <;> simp

end Results

end Pass

end Tileboard
