import Tileboard.Board
import Tileboard.Proofs.Board.Sorting
import Tileboard.Proofs.Column.Window

namespace Tileboard

open Value

namespace Pass

section Tiles

variable {pass : Pass} {mode : Mode} {columns : List Value} {w other : Windows Value}

theorem rowsFor_related {F : Type} {t : Tile F} {R : Value → Value → Prop}
    {window windowOther all allOther : List Value} (hwindow : List.Forall₂ R window windowOther)
    (hall : List.Forall₂ R all allOther) :
    List.Forall₂ R (rowsFor t window all) (rowsFor t windowOther allOther) := by
  unfold rowsFor
  by_cases hrange : t.noRangeFilter = true
  · rw [if_pos hrange, if_pos hrange]
    exact hall
  · rw [if_neg hrange, if_neg hrange]
    exact hwindow

theorem columns_plan {t : Tile Filter} {plan : Plan Filter} (h : pass.plan t = .ok plan) :
    plan.columns Filter.columns ⊆ t.columns := by
  cases pass with
  | full => exact Plan.columns_full h
  | simple =>
      cases h
      exact Plan.columns_simple t

theorem tile_eq {subtitles : Subtitles} {t : Tile Filter}
    (h : w.Related (AgreesOn columns) other) (ht : t.columns ⊆ columns) :
    pass.tile mode subtitles w t = pass.tile mode subtitles other t := by
  unfold tile
  refine Traced.bind_congr_of_ok fun plan hplan => ?_
  refine Traced.bind_congr_of_ok fun ready hready => ?_
  have hsub : ready.columns Matcher.columns ⊆ columns :=
    List.Subset.trans (Plan.columns_prepare hready) (List.Subset.trans (columns_plan hplan) ht)
  unfold result
  dsimp only
  rw [Plan.run_eq hsub (rowsFor_related h.current h.all) (rowsFor_related h.previous h.all)]

theorem tiles_eq {subtitles : Subtitles} {ts : List (Tile Filter)}
    (h : w.Related (AgreesOn columns) other) (hts : ∀ t ∈ ts, t.columns ⊆ columns) :
    pass.tiles mode subtitles w ts = pass.tiles mode subtitles other ts := by
  unfold tiles
  exact mapM_eq_of_forall₂ (List.forall₂_same.mpr fun t ht => tile_eq h (hts t ht))

theorem run_eq {metrics descriptions : Value} (h : w.Related (AgreesOn columns) other)
    (hmentioned : Tile.mentioned descriptions ⊆ columns) :
    pass.run mode metrics w descriptions = pass.run mode metrics other descriptions := by
  unfold run
  refine Traced.bind_congr_of_ok fun subtitles _ => ?_
  refine Traced.bind_congr_of_ok fun ts hts => ?_
  exact tiles_eq h fun t ht => List.Subset.trans (Tile.columns_subset_mentioned hts ht) hmentioned

end Tiles

end Pass

namespace Board

def columns (settings : Settings) (config : Value) : List Value :=
  .text settings.dateColumn :: groups.flatMap fun group => Tile.mentioned (config.field group)

theorem windows_related {settings : Settings} {columns rows others : List Value}
    {start finish : Value} (h : List.Forall₂ (AgreesOn columns) rows others)
    (hdate : .text settings.dateColumn ∈ columns) :
    SameUpTo (Windows.Related (AgreesOn columns)) (windows settings rows start finish)
      (windows settings others start finish) := by
  unfold windows
  by_cases hperiod : (start.holds && finish.holds) = true
  · rw [if_pos hperiod, if_pos hperiod]
    exact Windows.select_related h fun row other hrow => Windows.timeIn_eq hrow hdate
  · rw [if_neg hperiod, if_neg hperiod]
    exact .ok (Windows.unbounded_related h)

theorem groupResults_eq {pass : Pass} {mode : Mode} {config metrics : Value} {group : String}
    {columns : List Value} {w other : Windows Value} (h : w.Related (AgreesOn columns) other)
    (hmentioned : Tile.mentioned (config.field group) ⊆ columns) :
    groupResults pass mode config metrics w group =
      groupResults pass mode config metrics other group := by
  unfold groupResults
  refine Traced.bind_congr_of_ok fun part hpart => ?_
  refine Traced.bind_congr_of_ok fun ts hts => ?_
  refine Traced.bind_congr_of_ok fun subtitles _ => ?_
  have hfield : part = config.field group := by
    change partOf config group = .ok part at hpart
    unfold partOf at hpart
    split at hpart <;> cases hpart
    rfl
  subst hfield
  exact Pass.tiles_eq h fun t ht =>
    List.Subset.trans (Tile.columns_subset_mentioned hts ht) hmentioned

theorem compute_eq {sort : BarChart.Sorter} {pass : Pass} {settings : Settings}
    {config metrics start finish : Value} {records others : List Value}
    (h : List.Forall₂ (AgreesOn (columns settings config)) records others) :
    compute sort pass settings config metrics records start finish =
      compute sort pass settings config metrics others start finish := by
  have hdate : .text settings.dateColumn ∈ columns settings config := List.mem_cons_self
  unfold compute
  refine (Traced.Related.lift (windows_related h hdate)).bind_eq fun w other hw => ?_
  have hfold : ∀ p : Progress, ∀ group ∈ groups,
      (groupResults pass (.ofStrict settings.strict) config metrics w group >>= fun ts =>
        (liftM (p.add sort group ts) : Traced Progress)) =
      groupResults pass (.ofStrict settings.strict) config metrics other group >>= fun ts =>
        liftM (p.add sort group ts) := by
    intro p group hgroup
    have hmentioned : Tile.mentioned (config.field group) ⊆ columns settings config := by
      intro c hc
      exact List.mem_cons_of_mem _ (List.mem_flatMap.mpr ⟨group, hgroup, hc⟩)
    rw [groupResults_eq hw hmentioned]
  rw [foldlM_congr hfold]
  refine Traced.bind_congr_of_ok fun p _ => ?_
  rw [payload, payload, Windows.counts_eq hw]

-- Records that agree, place by place, on the columns mentioned give the same board and the
-- same notes, and so do rows of the three windows for a list of tiles. Null cells that are
-- taken out and other columns that are put in thus change nothing.
theorem mentioned_columns_decide (sort : BarChart.Sorter) (pass : Pass) (mode : Mode)
    (settings : Settings) (config metrics start finish descriptions : Value) :
    (∀ records others, List.Forall₂ (AgreesOn (columns settings config)) records others →
      compute sort pass settings config metrics records start finish =
        compute sort pass settings config metrics others start finish) ∧
    (∀ w other, w.Related (AgreesOn (Tile.mentioned descriptions)) other →
      pass.run mode metrics w descriptions = pass.run mode metrics other descriptions) ∧
    (∀ records others,
      List.Forall₂ (Relation.ReflTransGen (Edit (columns settings config))) records others →
      compute sort pass settings config metrics records start finish =
        compute sort pass settings config metrics others start finish) ∧
    (∀ w other, w.Related (Relation.ReflTransGen (Edit (Tile.mentioned descriptions))) other →
      pass.run mode metrics w descriptions = pass.run mode metrics other descriptions) := by
  refine ⟨fun _ _ h => compute_eq h, fun _ _ h => Pass.run_eq h (List.Subset.refl _), ?_, ?_⟩
  · intro records others h
    exact compute_eq (h.imp fun _ _ => agreesOn_of_edits)
  · intro w other h
    exact Pass.run_eq (h.imp fun _ _ => agreesOn_of_edits) (List.Subset.refl _)

def datedConfig : Value :=
  .object [("tiles", .list [.object [("key", .text "dated"),
    ("filter", .object [("column", .text "day"), ("isNotNull", .bool true)])]])]

def daySettings : Settings := ⟨false, "day", none⟩

theorem columns_datedConfig : columns daySettings datedConfig =
    [.text "day", .text "day", .null, .null, .null] := by
  rfl

-- Another column next to the day, and a day that is null or not there.
theorem day_decides :
    (compute BarChart.inTurn .full daySettings datedConfig .null
      [.object [("day", .int 5)], .object []] .null .null).result.isOk = true ∧
    compute BarChart.inTurn .full daySettings datedConfig .null
      [.object [("day", .int 5), ("note", .text "late")], .object [("day", .null)]] .null .null =
    compute BarChart.inTurn .full daySettings datedConfig .null
      [.object [("day", .int 5)], .object []] .null .null := by
  refine ⟨by decide +kernel, ?_⟩
  have hagree : ∀ fields others : List (String × Value),
      (fields.lookup "day").getD .null = (others.lookup "day").getD .null →
      AgreesOn (columns daySettings datedConfig) (.object fields) (.object others) := by
    intro fields others hday
    rw [columns_datedConfig]
    refine agreesOn_of_lookup fun name hname => ?_
    obtain rfl : name = "day" := by simpa using hname
    exact hday
  exact (mentioned_columns_decide BarChart.inTurn .full .permissive daySettings datedConfig .null
    .null .null .null).1 _ _ (.cons (hagree _ _ rfl) (.cons (hagree _ _ rfl) .nil))

end Board

end Tileboard
