import Mathlib
import Tileboard.Proofs.Tile.Coincidence

namespace Tileboard

namespace Pass

-- The click filter that a pass makes of a match key and a key.
def madeClick (pass : Pass) (matchKey : Value) (key : String) : Value :=
  match pass with
  | .full => .object [("column", matchKey), ("contains", .text key)]
  | .simple => .object [("type", matchKey), ("value", .text key)]

section Making

variable {F : Type} {t : Tile F}

theorem holds_madeClick (pass : Pass) (matchKey : Value) (key : String) :
    (pass.madeClick matchKey key).holds = true := by
  cases pass <;> rfl

theorem holds_of_isNull {v : Value} (h : v.isNull = true) : v.holds = false := by
  cases v with
  | null => rfl
  | _ => cases h

-- A tile with a filter and a match key.
def makesClick (t : Tile F) : Bool := t.filter.isSome && t.matchKey.holds

theorem clickFilter_of_holds (pass : Pass) (h : t.clickFilter.holds = true) :
    pass.clickFilter t = t.clickFilter := by
  have hsome : t.clickFilter.isNull = false := by
    rw [Bool.eq_false_iff]
    intro hnull
    rw [holds_of_isNull hnull] at h
    cases h
  cases pass <;> simp [clickFilter, h, hsome]

theorem clickFilter_of_not_makes (pass : Pass) (h : makesClick t = false) :
    pass.clickFilter t = t.clickFilter := by
  unfold makesClick at h
  cases pass <;> simp only [clickFilter, h, Bool.and_false, Bool.false_eq_true, if_false]

theorem clickFilter_of_null (pass : Pass) (hmakes : makesClick t = true)
    (hnull : t.clickFilter.isNull = true) :
    pass.clickFilter t = pass.madeClick t.matchKey t.key := by
  unfold makesClick at hmakes
  cases pass <;> simp [clickFilter, madeClick, hmakes, hnull, holds_of_isNull hnull]

-- Where an empty click filter is configured the passes part.
theorem clickFilter_of_empty (hmakes : makesClick t = true) (hsome : t.clickFilter.isNull = false)
    (hempty : t.clickFilter.holds = false) : Pass.full.clickFilter t = t.clickFilter ∧
      Pass.simple.clickFilter t = Pass.simple.madeClick t.matchKey t.key := by
  unfold makesClick at hmakes
  simp [clickFilter, madeClick, hmakes, hsome, hempty]

def clickableWith (t : Tile F) (click : Value) : Value :=
  if t.clickable.isNull then .bool click.holds else t.clickable

theorem field?_shown_click (pass : Pass) (t : Tile F) (o : Outcome) (subtitle trend : Value) :
    (Value.object (pass.shown t o subtitle trend)).field? "clickFilter" =
        some (pass.clickFilter t) ∧
      (Value.object (pass.shown t o subtitle trend)).field? "clickable" =
        some (clickableWith t (pass.clickFilter t)) := by
  constructor
  · exact lookup_putAll _ [_, _, _, _, _, _] (by cases o.groups <;> simp)
  · exact lookup_putAll _ [_, _, _, _, _, _, _] (by cases o.groups <;> simp)

end Making

def ShowsClick (result click : Value) : Prop := result.field? "clickFilter" = some click

theorem click_of_tile {pass : Pass} {mode : Mode} {subtitles : Subtitles} {w : Windows Value}
    {t : Tile Filter} {r : Value} (h : (pass.tile mode subtitles w t).result = .ok r) :
    ShowsClick r (pass.clickFilter t) ∧
      r.field? "clickable" = some (clickableWith t (pass.clickFilter t)) := by
  obtain ⟨_, _, o, -, -, -, hr⟩ := tile_eq_ok h
  obtain ⟨subtitle, trend, -, -, rfl⟩ := assemble_eq_ok_iff.mp hr
  exact field?_shown_click pass t _ subtitle trend

end Pass

namespace Tile

-- What the click filter of a tile goes by, as its description has it.
structure Clicked (v : Value) (t : Tile Filter) : Prop where
  filter : t.filter.isSome = !(v.field "filter").isNull
  key : t.key = textField v "key"
  matchKey : t.matchKey = v.field "matchKey"
  clickFilter : t.clickFilter = v.field "clickFilter"
  clickable : t.clickable = v.field "clickable"

theorem clicked_of_ofValue {v : Value} {t : Tile Filter} (h : ofValue v = .ok t) :
    Clicked v t := by
  have hfilter := (described_of_ofValue h).filter_isSome
  cases v with
  | object fields =>
      obtain ⟨filter, -, h⟩ := bind_eq_ok_iff.mp h
      obtain ⟨percentage, -, h⟩ := bind_eq_ok_iff.mp h
      obtain ⟨average, -, h⟩ := bind_eq_ok_iff.mp h
      obtain ⟨thresholds, -, h⟩ := bind_eq_ok_iff.mp h
      cases h
      exact ⟨hfilter, rfl, rfl, rfl, rfl⟩
  | _ => cases h

end Tile

namespace Pass

-- A description from which a click filter can be made.
def MakesClick (d : Value) : Prop :=
  (d.field "filter").isNull = false ∧ (d.field "matchKey").holds = true

def HasEmptyClick (d : Value) : Prop :=
  MakesClick d ∧ (d.field "clickFilter").isNull = false ∧ (d.field "clickFilter").holds = false

-- The click filter that a pass makes for a description.
def madeFor (pass : Pass) (d : Value) : Value :=
  pass.madeClick (d.field "matchKey") (Tile.textField d "key")

-- A full and a simple result of one description that treat clicks alike.
structure ClickAlike (d full simple : Value) : Prop where
  flag : ShowAlike "clickable" full simple
  -- Both show the one that is configured, or each the one it makes, or both none.
  source : ((d.field "clickFilter").isNull = false ∧
        ShowsClick full (d.field "clickFilter") ∧ ShowsClick simple (d.field "clickFilter")) ∨
      (MakesClick d ∧ ShowsClick full (Pass.full.madeFor d) ∧
        ShowsClick simple (Pass.simple.madeFor d)) ∨
      (ShowsClick full .null ∧ ShowsClick simple .null)
  kept : (d.field "clickFilter").isNull = false →
    ShowsClick full (d.field "clickFilter") ∧ ShowsClick simple (d.field "clickFilter")

-- What two results show where an empty click filter is configured: the full one this filter, the
-- simple one another. They differ in whether the tile can be clicked, unless it says so itself.
structure ClickApart (d full simple : Value) : Prop where
  kept : ShowsClick full (d.field "clickFilter")
  replaced : ShowsClick simple (Pass.simple.madeFor d)
  flag : ShowAlike "clickable" full simple ↔ (d.field "clickable").isNull = false

section Results

variable {mode other : Mode} {subtitles others : Subtitles} {w w' : Windows Value}
  {d r s click click' : Value} {t : Tile Filter}

theorem makesClick_iff (h : Tile.Clicked d t) : makesClick t = true ↔ MakesClick d := by
  rw [makesClick, Bool.and_eq_true, h.filter, h.matchKey, Bool.not_eq_true', MakesClick]

theorem madeFor_eq (pass : Pass) (h : Tile.Clicked d t) :
    pass.madeClick t.matchKey t.key = pass.madeFor d := by
  rw [madeFor, h.matchKey, h.key]

-- The flags are the same if the tile says whether it can be clicked, or if both click filters hold
-- something or neither does.
theorem flag_alike_iff (hr : r.field? "clickable" = some (clickableWith t click))
    (hs : s.field? "clickable" = some (clickableWith t click')) :
    ShowAlike "clickable" r s ↔ (t.clickable.isNull = true → click.holds = click'.holds) := by
  have hsame : ShowAlike "clickable" r s ↔ clickableWith t click = clickableWith t click' := by
    simp only [ShowAlike, hr, hs, Option.some.injEq, exists_eq_left']
    exact eq_comm
  rw [hsame, clickableWith, clickableWith]
  cases t.clickable.isNull <;> simp

theorem clickAlike_of_same (hr : ShowsClick r (d.field "clickFilter"))
    (hs : ShowsClick s (d.field "clickFilter")) (hflag : ShowAlike "clickable" r s) :
    ClickAlike d r s := by
  refine ⟨hflag, ?_, fun _ => ⟨hr, hs⟩⟩
  cases hclick : d.field "clickFilter" with
  | null =>
      rw [hclick] at hr hs
      exact .inr (.inr ⟨hr, hs⟩)
  | _ =>
      rw [hclick] at hr hs
      exact .inl ⟨rfl, hr, hs⟩

theorem clickAlike_of_not_empty (hd : Tile.Clicked d t)
    (hr : (Pass.full.tile mode subtitles w t).result = .ok r)
    (hs : (Pass.simple.tile other others w' t).result = .ok s) (h : ¬HasEmptyClick d) :
    ClickAlike d r s := by
  obtain ⟨hrclick, hrflag⟩ := click_of_tile hr
  obtain ⟨hsclick, hsflag⟩ := click_of_tile hs
  have hflag := flag_alike_iff hrflag hsflag
  by_cases hown : makesClick t = false ∨ t.clickFilter.holds = true
  · have hsame : ∀ pass : Pass, pass.clickFilter t = d.field "clickFilter" := by
      intro pass
      rw [← hd.clickFilter]
      exact hown.elim (clickFilter_of_not_makes pass) (clickFilter_of_holds pass)
    rw [hsame, hsame] at hflag
    rw [hsame] at hrclick hsclick
    exact clickAlike_of_same hrclick hsclick (hflag.mpr fun _ => rfl)
  · simp only [not_or, Bool.not_eq_false, Bool.not_eq_true] at hown
    obtain ⟨hmakes, hempty⟩ := hown
    have hmade := (makesClick_iff hd).mp hmakes
    -- the configured one is not only empty, there is none
    have hnull : t.clickFilter.isNull = true := by
      by_contra hsome
      rw [Bool.not_eq_true] at hsome
      exact h ⟨hmade, hd.clickFilter ▸ hsome, hd.clickFilter ▸ hempty⟩
    have hmadeBy : ∀ pass : Pass, pass.clickFilter t = pass.madeFor d := fun pass =>
      (clickFilter_of_null pass hmakes hnull).trans (madeFor_eq pass hd)
    rw [hmadeBy, hmadeBy] at hflag
    rw [hmadeBy] at hrclick hsclick
    refine ⟨hflag.mpr fun _ => ?_, .inr (.inl ⟨hmade, hrclick, hsclick⟩), fun hsome => ?_⟩
    · exact (holds_madeClick _ _ _).trans (holds_madeClick _ _ _).symm
    · rw [← hd.clickFilter, hnull] at hsome
      cases hsome

theorem clickApart_of_empty (hd : Tile.Clicked d t)
    (hr : (Pass.full.tile mode subtitles w t).result = .ok r)
    (hs : (Pass.simple.tile other others w' t).result = .ok s) (h : HasEmptyClick d) :
    ClickApart d r s := by
  obtain ⟨hmade, hsome, hempty⟩ := h
  rw [← hd.clickFilter] at hsome hempty
  obtain ⟨hfull, hsimple⟩ := clickFilter_of_empty ((makesClick_iff hd).mpr hmade) hsome hempty
  obtain ⟨hrclick, hrflag⟩ := click_of_tile hr
  obtain ⟨hsclick, hsflag⟩ := click_of_tile hs
  rw [hfull] at hrclick hrflag
  rw [hsimple] at hsclick hsflag
  refine ⟨hd.clickFilter ▸ hrclick, madeFor_eq _ hd ▸ hsclick, ?_⟩
  rw [flag_alike_iff hrflag hsflag, hempty, holds_madeClick, hd.clickable]
  simp

-- An empty click filter that is replaced is not kept.
theorem not_clickAlike_of_apart (h : HasEmptyClick d) (hapart : ClickApart d r s) :
    ¬ClickAlike d r s := by
  intro halike
  obtain ⟨-, hsome, hempty⟩ := h
  have hsame : d.field "clickFilter" = Pass.simple.madeFor d :=
    Option.some.inj ((halike.kept hsome).2.symm.trans hapart.replaced)
  rw [hsame, madeFor, holds_madeClick] at hempty
  cases hempty

end Results

-- Wherever both passes come to an end, whatever the rows, the metrics and the modes are in which
-- they do, they treat the clicks on a tile alike unless an empty click filter is configured for a
-- tile with a filter and a match key. The simple pass replaces this one, the full pass does not.
theorem clicks_alike_iff {mode other : Mode} {metrics metrics' : Value} {w w' : Windows Value}
    {descriptions full simple : List Value}
    (hfull : (Pass.full.run mode metrics w (.list descriptions)).result = .ok full)
    (hsimple : (Pass.simple.run other metrics' w' (.list descriptions)).result = .ok simple) :
    full.length = descriptions.length ∧ simple.length = descriptions.length ∧
      ∀ (i : Nat) d r s, descriptions[i]? = some d → full[i]? = some r → simple[i]? = some s →
        (ClickAlike d r s ↔ ¬HasEmptyClick d) ∧ (HasEmptyClick d → ClickApart d r s) := by
  obtain ⟨subtitles, ts, -, hts, hfull⟩ := run_eq_ok hfull
  obtain ⟨others, ts', -, hts', hsimple⟩ := run_eq_ok hsimple
  obtain rfl : ts = ts' := Except.ok.inj (hts.symm.trans hts')
  rw [Tile.listOfValue_list] at hts
  have hread := mapM_eq_ok hts
  refine ⟨hfull.length_eq.symm.trans hread.length_eq.symm,
    hsimple.length_eq.symm.trans hread.length_eq.symm, fun i d r s hd hr hs => ?_⟩
  obtain ⟨hi, rfl⟩ := List.getElem?_eq_some_iff.mp hd
  obtain ⟨hir, rfl⟩ := List.getElem?_eq_some_iff.mp hr
  obtain ⟨his, rfl⟩ := List.getElem?_eq_some_iff.mp hs
  have hit : i < ts.length := hread.length_eq ▸ hi
  have hclicked := Tile.clicked_of_ofValue (hread.get hi hit)
  have hapart := clickApart_of_empty hclicked (hfull.get hit hir) (hsimple.get hit his)
  refine ⟨⟨fun halike hempty => not_clickAlike_of_apart hempty (hapart hempty) halike, ?_⟩, hapart⟩
  exact clickAlike_of_not_empty hclicked (hfull.get hit hir) (hsimple.get hit his)

def isSent : Value := .object [("column", .text "status"), ("equals", .text "sent")]

-- The click filter of the first tile is made, that of the second is empty and would not be made.
-- That of the third is empty and is replaced, and the tile says that it cannot be clicked.
def clickTiles : List Value :=
  [.object [("key", .text "SENT"), ("matchKey", .text "status"), ("filter", isSent)],
    .object [("key", .text "sent"), ("filter", isSent), ("clickFilter", .object [])],
    .object [("key", .text "sent"), ("matchKey", .text "status"), ("filter", isSent),
      ("clickFilter", .object []), ("clickable", .bool false)]]

theorem clickTiles_alike :
    ∃ full simple, (Pass.full.run .permissive .null deliveries (.list clickTiles)).result =
        .ok full ∧
      (Pass.simple.run .strict .null deliveries (.list clickTiles)).result = .ok simple ∧
      ∀ (i : Nat) d r s, clickTiles[i]? = some d → full[i]? = some r → simple[i]? = some s →
        (ClickAlike d r s ↔ i ≠ 2) ∧ ShowAlike "clickable" r s := by
  obtain ⟨full, hfull⟩ := eq_ok_of_isOk (show (Pass.full.run .permissive .null deliveries
    (.list clickTiles)).result.isOk = true by decide +kernel)
  obtain ⟨simple, hsimple⟩ := eq_ok_of_isOk (show (Pass.simple.run .strict .null deliveries
    (.list clickTiles)).result.isOk = true by decide +kernel)
  refine ⟨full, simple, hfull, hsimple, fun i d r s hd hr hs => ?_⟩
  obtain ⟨halike, hapart⟩ := (clicks_alike_iff hfull hsimple).2.2 i d r s hd hr hs
  match i, hd with
  | 0, hd =>
      cases hd
      have hsame := halike.mpr fun h => Bool.noConfusion h.2.1
      exact ⟨iff_of_true hsame (by decide), hsame.flag⟩
  | 1, hd =>
      cases hd
      have hsame := halike.mpr fun h => Bool.noConfusion h.1.2
      exact ⟨iff_of_true hsame (by decide), hsame.flag⟩
  | 2, hd =>
      cases hd
      have hempty : HasEmptyClick (.object [("key", .text "sent"), ("matchKey", .text "status"),
          ("filter", isSent), ("clickFilter", .object []), ("clickable", .bool false)]) :=
        ⟨⟨rfl, rfl⟩, rfl, rfl⟩
      exact ⟨iff_of_false (fun hsame => halike.mp hsame hempty) (by decide),
        (hapart hempty).flag.mpr rfl⟩

-- A tile that is counted has an empty click filter. The full pass shows it and a tile that cannot
-- be clicked, the simple one shows another and a tile that can.
theorem emptyClick_replaced : ∃ r s,
    (Pass.full.run .permissive .null ⟨[], [], []⟩ (.list [.object [("key", .text "OPEN"),
      ("matchKey", .text "status"), ("filter", isSent), ("clickFilter", .object [])]])).result =
        .ok [r] ∧
    (Pass.simple.run .permissive .null ⟨[], [], []⟩ (.list [.object [("key", .text "OPEN"),
      ("matchKey", .text "status"), ("filter", isSent), ("clickFilter", .object [])]])).result =
        .ok [s] ∧
    ShowsClick r (.object []) ∧
    ShowsClick s (.object [("type", .text "status"), ("value", .text "OPEN")]) ∧
    r.field? "clickable" = some (.bool false) ∧ s.field? "clickable" = some (.bool true) := by
  exact ⟨_, _, rfl, rfl, rfl, rfl, rfl, rfl⟩

end Pass

end Tileboard
