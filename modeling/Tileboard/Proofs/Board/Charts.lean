import Mathlib
import Tileboard.Proofs.Board.Result
import Tileboard.Proofs.Board.Sorting
import Tileboard.Proofs.Tile.Groups

namespace Tileboard.Board

open BarChart (Sorter inTurn)

variable {sort : Sorter}

section Maps

theorem putChart_of_new {charts : Charts} {key chart : Value}
    (h : ∀ entry ∈ charts, entry.1.equal key = false) :
    putChart charts key chart = charts ++ [(key, chart)] := by
  induction charts with
  | nil => rfl
  | cons entry rest ih =>
      rw [List.forall_mem_cons] at h
      rw [putChart, h.1, if_neg Bool.false_ne_true, ih h.2]
      rfl

theorem putField_of_new {fields : List (String × Value)} {name : String} {v : Value}
    (h : ∀ field ∈ fields, field.1 ≠ name) : putField fields name v = fields ++ [(name, v)] := by
  induction fields with
  | nil => rfl
  | cons field rest ih =>
      rw [List.forall_mem_cons] at h
      rw [putField, if_neg h.1, ih h.2]
      rfl

-- Where what is apart from all there is gets put at the end, things that are apart from each other
-- all are.
theorem foldl_of_apart {α β : Type} {f : List β → α → List β} {g : α → β} {R : β → β → Prop}
    (hf : ∀ xs a, (∀ x ∈ xs, R x (g a)) → f xs a = xs ++ [g a]) {xs : List β} {as : List α}
    (hxs : ∀ x ∈ xs, ∀ a ∈ as, R x (g a)) (h : as.Pairwise fun a b => R (g a) (g b)) :
    as.foldl f xs = xs ++ as.map g := by
  induction as generalizing xs with
  | nil => exact (List.append_nil xs).symm
  | cons a rest ih =>
      rw [List.pairwise_cons] at h
      have hnext : ∀ x ∈ xs ++ [g a], ∀ b ∈ rest, R x (g b) := by
        intro x hx b hb
        rcases List.mem_append.mp hx with hx | hx
        · exact hxs x hx b (List.mem_cons_of_mem _ hb)
        · rw [List.mem_singleton.mp hx]
          exact h.1 b hb
      rw [List.foldl_cons, hf xs a fun x hx => hxs x hx a List.mem_cons_self, ih hnext h.2,
        List.append_assoc]
      rfl

theorem namedCharts_of_apart {entries : List (Value × Value)}
    (h : entries.Pairwise fun a b => a.1.equal b.1 = false ∧ chartName a.1 ≠ chartName b.1) :
    namedCharts (putCharts [] entries) = entries.map fun entry => (chartName entry.1, entry.2) := by
  have hput : putCharts [] entries = [] ++ entries.map id :=
    foldl_of_apart (R := fun a b => a.1.equal b.1 = false) (fun _ _ => putChart_of_new)
      (by simp) (h.imp And.left)
  have hnamed : namedCharts entries =
      [] ++ entries.map fun entry => (chartName entry.1, entry.2) :=
    foldl_of_apart (R := fun a b => a.1 ≠ b.1) (fun _ _ => putField_of_new) (by simp)
      (h.imp And.right)
  rw [hput, List.map_id, List.nil_append, hnamed, List.nil_append]

end Maps

def tilesOf (config : Value) : Except Fault (List (Tile Filter)) := do
  return (← groups.mapM fun group => Tile.listOfValue (config.field group)).flatten

-- The chart of some tiles with the title and in the direction that a description asks for.
def chartOf (sort : Sorter) (description : List (String × Value)) (tiles : Value) :
    Except Fault (Option Value) :=
  BarChart.ofTiles sort tiles ((Value.object description).field "title")
    (isHorizontal (.object description))

-- What is drawn of a tile: of the tiles that its result shows, if it shows any.
def Drawn (sort : Sorter) (mode : Mode) (w : Windows Value) (t : Tile Filter)
    (entry : Option (Value × Value)) : Prop :=
  ∃ own, Pass.subTiles mode w t = .ok own ∧
    match entry with
    | none => (Pass.shownTiles t own).holds = false
    | some (key, chart) => (Pass.shownTiles t own).holds = true ∧
        t.description.lookup "key" = some key ∧
        chartOf sort t.description (Pass.shownTiles t own) = .ok (some chart)

-- The chart of a tile of its own groups, if it has any.
def OwnChart (sort : Sorter) (mode : Mode) (w : Windows Value) (t : Tile Filter)
    (entry : Option (Value × Value)) : Prop :=
  ∃ own, Pass.subTiles mode w t = .ok own ∧ (own.isSome = true ↔ t.Grouped) ∧
    match entry with
    | none => own.getD [] = []
    | some (key, chart) => own.getD [] ≠ [] ∧ t.description.lookup "key" = some key ∧
        chartOf sort t.description (.list (own.getD [])) = .ok (some chart)

theorem isSome_of_ofTiles {tiles title : Value} {horizontal : Bool} {chart : Option Value}
    (h : BarChart.ofTiles sort tiles title horizontal = .ok chart) : chart.isSome = tiles.holds := by
  unfold BarChart.ofTiles at h
  split at h
  · rename_i hholds
    obtain ⟨_, -, h⟩ := bind_eq_ok_iff.mp h
    obtain ⟨_, -, h⟩ := bind_eq_ok_iff.mp h
    split at h
    · cases h
      exact hholds.symm
    · cases h
  · rename_i hholds
    cases h
    exact (Bool.eq_false_iff.mpr hholds).symm

section Entries

variable {mode : Mode} {w : Windows Value} {t : Tile Filter}

theorem entryOf_eq_ok {r : Value} {entry : Option (Value × Value)}
    (h : entryOf sort r = .ok entry) :
    match entry with
    | none => BarChart.ofTiles sort (r.field "tiles") (r.field "title") (isHorizontal r) = .ok none
    | some (key, chart) => r.field? "key" = some key ∧
        BarChart.ofTiles sort (r.field "tiles") (r.field "title") (isHorizontal r) =
          .ok (some chart) := by
  obtain ⟨chart, hchart, h⟩ := bind_eq_ok_iff.mp h
  cases chart with
  | none =>
      cases h
      exact hchart
  | some chart =>
      dsimp only at h
      split at h
      · rename_i key hkey
        split at h
        · cases h
          exact ⟨hkey, hchart⟩
        · cases h
      · cases h

theorem drawn_of_result {subtitles : Subtitles} {r : Value} {entry : Option (Value × Value)}
    (hresult : (Pass.full.tile mode subtitles w t).result = .ok r)
    (hentry : entryOf sort r = .ok entry) :
    Drawn sort mode w t entry := by
  obtain ⟨own, hown, htiles, hfields⟩ := Pass.shown_of_result hresult
  have hchart : BarChart.ofTiles sort (r.field "tiles") (r.field "title") (isHorizontal r) =
      chartOf sort t.description (Pass.shownTiles t own) := by
    have hfield : ∀ name ∈ ["title", "component"],
        r.field name = (Value.object t.description).field name := fun name hname => by
      rw [Value.field, hfields name (List.mem_cons_of_mem _ hname)]
      rfl
    rw [chartOf, htiles, hfield "title" (by decide), isHorizontal, isHorizontal,
      hfield "component" (by decide)]
  have h := entryOf_eq_ok hentry
  rw [hchart] at h
  refine ⟨own, hown, ?_⟩
  cases entry with
  | none => exact (isSome_of_ofTiles h).symm
  | some entry =>
      obtain ⟨hkey, h⟩ := h
      rw [hfields "key" (by decide)] at hkey
      exact ⟨(isSome_of_ofTiles h).symm, hkey, h⟩

-- Where nothing but groups is shown as tiles, what is drawn are the groups.
theorem Drawn.ownChart {entry : Option (Value × Value)} (h : Drawn sort mode w t entry)
    (hecho : ¬ t.Grouped → ((Value.object t.description).field "tiles").holds = false) :
    OwnChart sort mode w t entry := by
  obtain ⟨own, hown, h⟩ := h
  have hgrouped := Pass.subTiles_isSome_iff hown
  refine ⟨own, hown, hgrouped, ?_⟩
  cases own with
  | none =>
      have hnot := hecho (mt hgrouped.mpr (by simp))
      cases entry with
      | none => rfl
      | some entry => exact absurd (h.1.symm.trans hnot) (by decide)
  | some tiles =>
      cases entry with
      | none => simpa [Pass.shownTiles, Value.holds] using h
      | some entry =>
          refine ⟨?_, h.2⟩
          simpa [Pass.shownTiles, Value.holds] using h.1

end Entries

section Results

variable {mode : Mode} {config metrics : Value} {w : Windows Value}

theorem tilesOf_of_results {lists : List (List Value)}
    (h : List.Forall₂ (fun group results =>
      (groupResults .full mode config metrics w group).result = .ok results) groups lists) :
    ∃ ts, tilesOf config = .ok ts ∧ List.Forall₂ (fun t r => ∃ subtitles,
      (Pass.full.tile mode subtitles w t).result = .ok r) ts lists.flatten := by
  obtain ⟨tss, htss, hresults⟩ := exists_between (R := fun group ts =>
      Tile.listOfValue (config.field group) = .ok ts)
    (S := List.Forall₂ fun t r => ∃ subtitles, (Pass.full.tile mode subtitles w t).result = .ok r)
    (h.imp fun group results hgroup => by
      obtain ⟨ts, subtitles, hts, -, hresults⟩ := groupResults_eq_ok hgroup
      exact ⟨ts, hts, hresults.imp fun t r hr => ⟨subtitles, hr⟩⟩)
  refine ⟨tss.flatten, ?_, List.rel_flatten hresults⟩
  rw [tilesOf, mapM_of_forall₂ htss]
  rfl

end Results

-- The charts of a board are those of the tiles that its results show, put one after the other under
-- the keys of the tiles. Where nothing but groups is shown as tiles, and the keys of what is drawn
-- differ, there is one chart for each tile with groups, its own, and no other.
theorem charts_of_shown_tiles {settings : Settings} {config metrics start finish : Value}
    {records : List Value} {answer : Value}
    (h : (compute sort .full settings config metrics records start finish).result = .ok answer) :
    ∃ w ts drawn, windows settings records start finish = .ok w ∧ tilesOf config = .ok ts ∧
      List.Forall₂ (Drawn sort (.ofStrict settings.strict) w) ts drawn ∧
      answer.field "charts" = .object (namedCharts (putCharts [] drawn.reduceOption)) ∧
      ((∀ t ∈ ts, ¬ t.Grouped → ((Value.object t.description).field "tiles").holds = false) →
        (drawn.reduceOption.Pairwise fun a b =>
          a.1.equal b.1 = false ∧ chartName a.1 ≠ chartName b.1) →
        List.Forall₂ (OwnChart sort (.ofStrict settings.strict) w) ts drawn ∧
        answer.field "charts" =
          .object (drawn.reduceOption.map fun entry => (chartName entry.1, entry.2))) := by
  obtain ⟨w, lists, charts, hw, hlists, hcharts, rfl⟩ := compute_eq_ok_iff.mp h
  obtain ⟨ts, hts, hresults⟩ := tilesOf_of_results hlists
  obtain ⟨drawn, hdrawn, rfl⟩ := addCharts_eq_ok_iff.mp hcharts
  have htiles : List.Forall₂ (Drawn sort (.ofStrict settings.strict) w) ts drawn :=
    forall₂_comp (fun t r entry ⟨_, hr⟩ hentry => drawn_of_result hr hentry) hresults
      (mapM_eq_ok hdrawn)
  refine ⟨w, ts, drawn, hw, hts, htiles, rfl, fun hecho hapart => ⟨?_, ?_⟩⟩
  · exact List.forall₂_iff_get.mpr ⟨htiles.length_eq, fun i hi hi' =>
      (htiles.get hi hi').ownChart (hecho _ (List.get_mem ts ⟨i, hi⟩))⟩
  · change Value.object (namedCharts _) = _
    rw [namedCharts_of_apart hapart]

def plainSettings : Settings := ⟨false, "day", none⟩

def bySite (key field : String) : Value :=
  .object [("key", .text key), ("title", .text key), ("metric", .text "sum"),
    ("field", .text field), ("column", .text "site"), ("component", .text "ChartBar")]

def siteRows : List Value :=
  [.object [("site", .text "north"), ("cost", .int 3), ("size", .int 1)],
    .object [("site", .text "south"), ("cost", .int 2), ("size", .int 4)]]

def sitesConfig (first second : String) : Value :=
  .object [("tiles", .list [bySite first "cost"]), ("trends", .list [bySite second "size"])]

def namesOf : Value → List String
  | .object fields => fields.map (·.1)
  | _ => []

theorem sites_drawn : ∃ answer w ts drawn,
    (compute inTurn .full plainSettings (sitesConfig "cost" "size") .null siteRows .null
      .null).result = .ok answer ∧
    List.Forall₂ (OwnChart inTurn (.ofStrict plainSettings.strict) w) ts drawn ∧
    answer.field "charts" =
      .object (drawn.reduceOption.map fun entry => (chartName entry.1, entry.2)) ∧
    (drawn.reduceOption.map fun entry => chartName entry.1) = ["cost", "size"] := by
  obtain ⟨answer, hanswer⟩ := eq_ok_of_isOk (x := (compute inTurn .full plainSettings
    (sitesConfig "cost" "size") .null siteRows .null .null).result) (by decide +kernel)
  have hnames : ((compute inTurn .full plainSettings (sitesConfig "cost" "size") .null siteRows .null
      .null).result.toOption.map fun answer => namesOf (answer.field "charts")) =
        some ["cost", "size"] := by decide +kernel
  obtain ⟨w, ts, drawn, -, hts, hdrawn, -, hown⟩ := charts_of_shown_tiles hanswer
  obtain ⟨first, second, htiles, hfirst, hsecond⟩ : ∃ first second,
      tilesOf (sitesConfig "cost" "size") = .ok [first, second] ∧
        Value.object first.description = bySite "cost" "cost" ∧
        Value.object second.description = bySite "size" "size" := ⟨_, _, by rfl, by rfl, by rfl⟩
  cases hts.symm.trans htiles
  have hecho : ∀ t ∈ [first, second], ¬ t.Grouped →
      ((Value.object t.description).field "tiles").holds = false := by
    intro t ht _
    simp only [List.mem_cons, List.not_mem_nil, or_false] at ht
    rcases ht with rfl | rfl
    · rw [hfirst]
      rfl
    · rw [hsecond]
      rfl
  -- what is drawn of a tile has the key of its description
  have hkey : ∀ (t : Tile Filter) entry key,
      Drawn inTurn (.ofStrict plainSettings.strict) w t entry →
      (Value.object t.description).field? "key" = some key → ∀ e ∈ entry, e.1 = key := by
    rintro t _ key ⟨own, -, h⟩ hkey e rfl
    exact Option.some.inj (h.2.1.symm.trans hkey)
  have hapart : drawn.reduceOption.Pairwise fun a b =>
      a.1.equal b.1 = false ∧ chartName a.1 ≠ chartName b.1 := by
    obtain _ | ⟨h₁, _ | ⟨h₂, ⟨⟩⟩⟩ := hdrawn
    rename_i e₁ e₂
    have hk₁ := hkey first e₁ (.text "cost") h₁ (by rw [hfirst]; rfl)
    have hk₂ := hkey second e₂ (.text "size") h₂ (by rw [hsecond]; rfl)
    cases e₁ with
    | none => cases e₂ <;> simp [List.reduceOption]
    | some e₁ =>
        cases e₂ with
        | none => simp [List.reduceOption]
        | some e₂ =>
            change List.Pairwise _ [e₁, e₂]
            rw [List.pairwise_pair, hk₁ e₁ rfl, hk₂ e₂ rfl]
            exact ⟨rfl, by decide⟩
  obtain ⟨hown, hshown⟩ := hown hecho hapart
  refine ⟨answer, w, _, drawn, hanswer, hown, hshown, ?_⟩
  rw [hanswer] at hnames
  have hnames : namesOf (answer.field "charts") = ["cost", "size"] := Option.some.inj hnames
  rw [hshown] at hnames
  rw [← hnames]
  simp [namesOf]

-- A tile that is not measured by groups, with tiles in its description.
def echoing : Value :=
  .object [("key", .text "a"), ("value", .int 5),
    ("tiles", .list [.object [("title", .text "x"), ("value", .int 1)]])]

-- It is drawn all the same. Of two tiles with groups under one key there is one chart.
theorem foreign_charts_drawn :
    (∃ answer ts chart, (compute inTurn .full plainSettings
        (.object [("tiles", .list [echoing])]) .null [] .null .null).result = .ok answer ∧
      Tile.listOfValue (.list [echoing]) = .ok ts ∧
      (∀ t ∈ ts, ¬ t.Grouped) ∧ answer.field "charts" = .object [("a", chart)]) ∧
    ((tilesOf (sitesConfig "site" "site")).toOption.map fun ts => ts.map fun t =>
      (Pass.subTiles (.ofStrict plainSettings.strict) (Windows.unbounded siteRows) t).toOption.join.map
        List.length) = some [some 2, some 2] ∧
    ((compute inTurn .full plainSettings (sitesConfig "site" "site") .null siteRows .null
      .null).result.toOption.map fun answer => namesOf (answer.field "charts")) =
        some ["site"] := by
  refine ⟨⟨_, _, _, by rfl, by rfl, ?_, by rfl⟩, by decide +kernel, by decide +kernel⟩
  intro t ht h
  rw [List.mem_singleton.mp ht] at h
  have hfalse : Except.ok (ε := Fault) false = .ok true := h.2
  cases hfalse

end Tileboard.Board
