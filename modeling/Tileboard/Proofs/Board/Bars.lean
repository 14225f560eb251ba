import Mathlib
import Tileboard.Proofs.Board.Sorting
import Tileboard.Proofs.Computation
import Tileboard.Proofs.Table.Storage

namespace Tileboard

namespace Bar

section Lengths

variable {n : Number} {q : Rat}

theorem usable_number (h : n.quantity? = some q) : usable (.number n) = .number n := by
  cases n with
  | int k => rfl
  | real x =>
      cases x with
      | finite => rfl
      | _ => cases h

theorem written_number (h : n.quantity? = some q) : written (.number n) = .number n := by
  cases n with
  | int k => rfl
  | real x =>
      cases x with
      | finite => rfl
      | _ => cases h

end Lengths

end Bar

namespace BarChart

variable {sort : Sorter}

-- The label of a tile and the number that is its value.
def labelOf (tile : Value) : String := (tile.field "title").asText

def numberOf (tile : Value) : Number :=
  match tile.field "value" with
  | .number n => n
  | _ => .int 0

def HasNumber (tile : Value) : Prop :=
  ∃ fields n q, tile = .object fields ∧ tile.field "value" = .number n ∧ n.quantity? = some q

-- The label of a tile and its value.
def pairOf (tile : Value) : String × Rat := (labelOf tile, (numberOf tile).quantity)

-- A tile's number as the column of all of them shows it.
def shownNumber (tiles : List Value) (tile : Value) : Number :=
  Table.shown (tiles.map numberOf) (numberOf tile)

def shownPair (tiles : List Value) (tile : Value) : String × Rat :=
  (labelOf tile, (shownNumber tiles tile).quantity)

def barOf (tiles : List Value) (tile : Value) : Bar :=
  ⟨labelOf tile, .number (shownNumber tiles tile)⟩

section Bars

variable {tiles others : List Value} {tile : Value}

def cellOf (tile : Value) : String × Value := (labelOf tile, tile.field "value")

theorem bars_eq (h : ∀ tile ∈ tiles, ∃ fields, tile = .object fields) :
    bars sort tiles = do
      let lengths ← Table.numeric (tiles.map (·.field "value"))
      return sort (((tiles.map cellOf).zip lengths).map fun (cell, length) =>
        Bar.mk cell.1 (Bar.usable length)) := by
  have hcells : List.Forall₂ (fun tile (cell : String × Value) => (do
      let title ← fieldOf "title" tile
      return (title.asText, ← fieldOf "value" tile)) = Except.ok cell) tiles (tiles.map cellOf) := by
    rw [List.forall₂_map_right_iff, List.forall₂_same]
    intro tile htile
    obtain ⟨fields, rfl⟩ := h tile htile
    rfl
  have hvalues : (tiles.map cellOf).map (fun cell => some cell.2) =
      (tiles.map (·.field "value")).map some := by
    rw [List.map_map, List.map_map]
    rfl
  unfold bars
  rw [mapM_of_forall₂ hcells, ok_bind, hvalues, ← bind_assoc, Table.settle_numeric]

theorem HasNumber.value (h : HasNumber tile) : tile.field "value" = .number (numberOf tile) := by
  obtain ⟨-, n, -, -, hvalue, -⟩ := h
  rw [numberOf, hvalue]

theorem HasNumber.quantity? (h : HasNumber tile) :
    (numberOf tile).quantity? = some (pairOf tile).2 := by
  obtain ⟨-, n, q, -, hvalue, hq⟩ := h
  have hnumber : numberOf tile = n := by rw [numberOf, hvalue]
  rw [pairOf, hnumber, hq, Number.quantity_eq hq]

theorem HasNumber.shown (h : HasNumber tile) (hfits : (numberOf tile).near.isFinite = true)
    (tiles : List Value) :
    (shownNumber tiles tile).quantity? = some (shownPair tiles tile).2 ∧
      ∀ (x : Binary64) r, x.toRat? = some r →
        |(pairOf tile).2 - (shownPair tiles tile).2| ≤ |(pairOf tile).2 - r| := by
  obtain ⟨p, hp, hnearest⟩ := Table.quantity?_shown h.quantity? hfits
  have hpair : (shownPair tiles tile).2 = p := Number.quantity_eq hp
  rw [hpair]
  exact ⟨hp, hnearest⟩

theorem isFinite_barOf (h : HasNumber tile) (hfits : (numberOf tile).near.isFinite = true)
    (tiles : List Value) : (barOf tiles tile).IsFinite :=
  ⟨_, _, rfl, (h.shown hfits tiles).1⟩

theorem bars_of_numbers (h : ∀ tile ∈ tiles, HasNumber tile) :
    bars sort tiles =
      if (tiles.map numberOf).all (·.near.isFinite) then .ok (sort (tiles.map (barOf tiles)))
      else .error .numberTooLarge := by
  have hobjects : ∀ tile ∈ tiles, ∃ fields, tile = .object fields := fun tile htile => by
    obtain ⟨fields, -, -, hfields, -⟩ := h tile htile
    exact ⟨fields, hfields⟩
  have hvalues : tiles.map (·.field "value") = (tiles.map numberOf).map .number := by
    rw [List.map_map]
    exact List.map_congr_left fun tile htile => (h tile htile).value
  have hnumbers : ∀ n ∈ tiles.map numberOf, ∃ q, n.quantity? = some q := by
    intro n hn
    obtain ⟨tile, htile, rfl⟩ := List.mem_map.mp hn
    exact ⟨_, (h tile htile).quantity?⟩
  rw [bars_eq hobjects, hvalues, Table.numeric_numbers hnumbers]
  by_cases hfits : (tiles.map numberOf).all (·.near.isFinite) = true
  · rw [if_pos hfits, if_pos hfits, ok_bind, List.map_map, List.zip_map', List.map_map]
    have hbars : ∀ tile ∈ tiles, Bar.mk (labelOf tile)
        (Bar.usable (.number (shownNumber tiles tile))) = barOf tiles tile := by
      intro tile htile
      have hfit := List.all_eq_true.mp hfits _ (List.mem_map_of_mem htile)
      rw [Bar.usable_number ((h tile htile).shown hfit tiles).1, barOf]
    exact congrArg (Except.ok <| sort ·) (List.map_congr_left hbars)
  · rw [if_neg hfits, if_neg hfits, error_bind]

end Bars

section Charts

-- A row of the data of a chart, if it is a label and a finite number.
def pairAt? (row : Value) : Option (String × Rat) :=
  match row.field "label", row.field "value" with
  | .text label, .number n => n.quantity?.map fun q => (label, q)
  | _, _ => none

-- The data that stands in a chart.
def Inlines (chart : Value) (data : List (String × Rat)) : Prop :=
  ∃ rows, (chart.field "data").field "values" = .list rows ∧ rows.map pairAt? = data.map some

theorem Inlines.unique {chart : Value} {data other : List (String × Rat)} (h : Inlines chart data)
    (h' : Inlines chart other) : data = other := by
  obtain ⟨rows, hrows, hdata⟩ := h
  obtain ⟨rows', hrows', hother⟩ := h'
  cases hrows.symm.trans hrows'
  exact (Option.some_injective _).list_map (hdata.symm.trans hother)

variable {tiles others : List Value} {title : Value}

theorem pairAt?_row {b : Bar} (h : b.IsFinite) : pairAt? b.row = some b.pair := by
  obtain ⟨label, length⟩ := b
  obtain ⟨n, q, hlength, hq⟩ := h
  cases hlength
  have hlabel : (Bar.mk label (.number n)).row.field "label" = .text label := rfl
  have hvalue : (Bar.mk label (.number n)).row.field "value" = Bar.written (.number n) := rfl
  rw [pairAt?, hlabel, hvalue, Bar.written_number hq]
  dsimp only
  rw [hq, Option.map_some, ← Number.quantity_eq hq]
  rfl

theorem inlines_draw {bars : List Bar} (h : ∀ b ∈ bars, b.IsFinite) (title : Value)
    (horizontal : Bool) : Inlines (draw bars title horizontal) (bars.map Bar.pair) := by
  refine ⟨bars.map Bar.row, ?_, ?_⟩
  · cases horizontal <;> rfl
  · rw [List.map_map, List.map_map]
    exact List.map_congr_left fun b hb => pairAt?_row (h b hb)

theorem ofTiles_eq (hne : tiles ≠ []) (htitle : isTitle title = true) (horizontal : Bool) :
    ofTiles sort (.list tiles) title horizontal = do
      return some (draw (← bars sort tiles) title horizontal) := by
  have hholds : (Value.list tiles).holds = true := by
    simpa [Value.holds] using hne
  rw [ofTiles, hholds, if_pos rfl, htitle]
  rfl

-- The data keeps the values just where their column keeps each of them.
theorem shown_perm_iff (h : ∀ tile ∈ tiles, HasNumber tile)
    (hfits : ∀ tile ∈ tiles, (numberOf tile).near.isFinite = true) :
    (tiles.map (shownPair tiles)).Perm (tiles.map pairOf) ↔
      Table.keepsWhole (tiles.map numberOf) = true ∨
        ∀ tile ∈ tiles, ∃ x : Binary64, x.toRat? = some (pairOf tile).2 := by
  constructor
  · intro hperm
    cases hwhole : Table.keepsWhole (tiles.map numberOf) with
    | true => exact .inl rfl
    | false =>
        refine .inr fun tile htile => ?_
        obtain ⟨other, hother, hsame⟩ :=
          List.mem_map.mp (hperm.mem_iff.mpr (List.mem_map_of_mem htile))
        rw [← hsame]
        exact Table.exists_toRat?_of_shown
          ((h other hother).shown (hfits other hother) tiles).1 hwhole
  · intro hkept
    refine List.Perm.of_eq (List.map_congr_left fun tile htile => ?_)
    have hshown := Table.quantity?_shown_of_kept (h tile htile).quantity?
      (hkept.imp_right fun hexact => hexact tile htile)
    exact Prod.ext rfl (Number.quantity_eq hshown)

theorem finite_bars (h : ∀ tile ∈ tiles, HasNumber tile)
    (hfits : (tiles.map numberOf).all (·.near.isFinite) = true) :
    ∀ b ∈ tiles.map (barOf tiles), b.IsFinite := by
  intro b hb
  obtain ⟨tile, htile, rfl⟩ := List.mem_map.mp hb
  exact isFinite_barOf (h tile htile) (List.all_eq_true.mp hfits _ (List.mem_map_of_mem htile)) tiles

theorem shownPair_of_perm (hperm : others.Perm tiles) : shownPair others = shownPair tiles := by
  funext tile
  rw [shownPair, shownPair, shownNumber, shownNumber,
    Table.shown_of_perm (hperm.map numberOf)]

-- What is drawn does not depend on the order of tiles that differ in what they show.
theorem bars_of_perm (hsort : Sorts sort) (h : ∀ tile ∈ tiles, HasNumber tile)
    (hperm : others.Perm tiles)
    (hsame : ∀ a ∈ tiles, ∀ b ∈ tiles, (shownPair tiles a).2 = (shownPair tiles b).2 →
      barOf tiles a = barOf tiles b) : bars sort others = bars sort tiles := by
  have hnumbers : (others.map numberOf).Perm (tiles.map numberOf) := hperm.map numberOf
  have hbar : barOf others = barOf tiles := by
    funext tile
    rw [barOf, barOf, shownNumber, shownNumber, Table.shown_of_perm hnumbers]
  rw [bars_of_numbers h, bars_of_numbers fun tile htile => h tile (hperm.mem_iff.mp htile),
    hnumbers.all_eq, hbar]
  split
  · rename_i hfits
    have hsameBars : ∀ a ∈ tiles.map (barOf tiles), ∀ b ∈ tiles.map (barOf tiles),
        a.pair.2 = b.pair.2 → a = b := by
      simp only [List.forall_mem_map]
      exact hsame
    rw [hsort.eq_of_perm (hperm.map _) (finite_bars h hfits) hsameBars]
  · rfl

-- The data of a chart is what its tiles show, sorted, whichever way the chart lies.
theorem exists_chart (hsort : Sorts sort) (hne : tiles ≠ [])
    (hnumbers : ∀ tile ∈ tiles, HasNumber tile)
    (hfits : ∀ tile ∈ tiles, (numberOf tile).near.isFinite = true) (htitle : isTitle title = true)
    (horizontal : Bool) : ∃ chart, ofTiles sort (.list tiles) title horizontal = .ok (some chart) ∧
      Inlines chart ((sort (tiles.map (barOf tiles))).map Bar.pair) := by
  have hall : (tiles.map numberOf).all (·.near.isFinite) = true := by simpa using hfits
  refine ⟨_, ?_, inlines_draw (hsort.finite (finite_bars hnumbers hall)) title horizontal⟩
  rw [ofTiles_eq hne htitle, bars_of_numbers hnumbers, hall, if_pos rfl, ok_bind]
  rfl

theorem not_drawn (hne : tiles ≠ []) (hnumbers : ∀ tile ∈ tiles, HasNumber tile)
    (hlarge : ∃ tile ∈ tiles, (numberOf tile).near.isFinite = false) (htitle : isTitle title = true)
    (horizontal : Bool) :
    ofTiles sort (.list tiles) title horizontal = .error .numberTooLarge := by
  obtain ⟨tile, htile, hlarge⟩ := hlarge
  have hall : (tiles.map numberOf).all (·.near.isFinite) = false :=
    List.all_eq_false.mpr ⟨_, List.mem_map_of_mem htile, by simp [hlarge]⟩
  rw [ofTiles_eq hne htitle, bars_of_numbers hnumbers, hall, if_neg Bool.false_ne_true, error_bind]

-- Tiles with finite numbers are drawn unless one is past the binary64 numbers. Whichever way the
-- chart lies, its data has each tile once, by what is shown of its number, which is no farther from
-- the number than any binary64 number, and none before one that shows more. Nothing is lost exactly
-- if 64 bits hold all the numbers as whole ones, or each is a binary64 number. In what order the
-- tiles come has no say in what each of them shows, and none in the chart where those that show the
-- same are drawn alike.
theorem tiles_shown_sorted (hsort : Sorts sort) (hne : tiles ≠ [])
    (hnumbers : ∀ tile ∈ tiles, HasNumber tile) (htitle : isTitle title = true) :
    ((∃ tile ∈ tiles, (numberOf tile).near.isFinite = false) → ∀ horizontal,
      ofTiles sort (.list tiles) title horizontal = .error .numberTooLarge) ∧
    ((∀ tile ∈ tiles, (numberOf tile).near.isFinite = true) → ∃ data,
      (∀ horizontal, ∃ chart, ofTiles sort (.list tiles) title horizontal = .ok (some chart) ∧
        Inlines chart data) ∧
      data.Perm (tiles.map (shownPair tiles)) ∧ (data.Pairwise fun a b => b.2 ≤ a.2) ∧
      (∀ tile ∈ tiles, ∀ (x : Binary64) r, x.toRat? = some r →
        |(pairOf tile).2 - (shownPair tiles tile).2| ≤ |(pairOf tile).2 - r|) ∧
      (data.Perm (tiles.map pairOf) ↔ Table.keepsWhole (tiles.map numberOf) = true ∨
        ∀ tile ∈ tiles, ∃ x : Binary64, x.toRat? = some (pairOf tile).2)) ∧
    ∀ others : List Value, others.Perm tiles → shownPair others = shownPair tiles ∧
      ((∀ a ∈ tiles, ∀ b ∈ tiles, (shownPair tiles a).2 = (shownPair tiles b).2 →
        barOf tiles a = barOf tiles b) → ∀ horizontal,
          ofTiles sort (.list others) title horizontal =
            ofTiles sort (.list tiles) title horizontal) := by
  refine ⟨fun hlarge => not_drawn hne hnumbers hlarge htitle, fun hfits => ?_,
    fun others hperm => ⟨shownPair_of_perm hperm, fun hsame horizontal => ?_⟩⟩
  · have hfinite := finite_bars hnumbers (by simpa using hfits)
    have hpairs : (tiles.map (barOf tiles)).map Bar.pair = tiles.map (shownPair tiles) :=
      List.map_map
    have hperm := hpairs ▸ (hsort.perm hfinite).map Bar.pair
    exact ⟨_, exists_chart hsort hne hnumbers hfits htitle, hperm,
      List.pairwise_map.mpr (hsort.pairwise hfinite),
      fun tile htile => ((hnumbers tile htile).shown (hfits tile htile) tiles).2,
      (hperm.congr_left _).trans (shown_perm_iff hnumbers hfits)⟩
  · have hne' : others ≠ [] := fun h => hne (List.nil_perm.mp (h ▸ hperm))
    rw [ofTiles_eq hne' htitle, ofTiles_eq hne htitle, bars_of_perm hsort hnumbers hperm hsame]

end Charts

def twoAndHalf : Binary64 := .finite false 5629499534213120 (-51) (by decide)

def stock : List Value :=
  [.object [("title", .text "pears"), ("value", .int 2)],
    .object [("title", .text "apples"), ("value", .real twoAndHalf)],
    .object [("title", .null), ("value", .int (-3))]]

theorem stock_shown_sorted : ∃ data,
    (∀ horizontal, ∃ chart,
      ofTiles inTurn (.list stock) (.text "Stock") horizontal = .ok (some chart) ∧
        Inlines chart data) ∧
    data = [("apples", 5 / 2), ("pears", 2), ("None", -3)] ∧
    ∀ horizontal, ofTiles inTurn (.list stock.reverse) (.text "Stock") horizontal =
      ofTiles inTurn (.list stock) (.text "Stock") horizontal := by
  have hreal : twoAndHalf.toRat? = some (5 / 2) := by decide +kernel
  have hpairs : stock.map pairOf = [("pears", 2), ("apples", 5 / 2), ("None", -3)] := by
    decide +kernel
  have hnumbers : ∀ tile ∈ stock, HasNumber tile := by
    simp only [stock, List.forall_mem_cons]
    exact ⟨⟨_, _, 2, rfl, rfl, rfl⟩, ⟨_, _, 5 / 2, rfl, rfl, hreal⟩, ⟨_, _, -3, rfl, rfl, rfl⟩,
      by simp⟩
  have hexact : ∀ pair ∈ stock.map pairOf, ∃ x : Binary64, x.toRat? = some pair.2 := by
    rw [hpairs]
    simp only [List.forall_mem_cons]
    exact ⟨⟨.ofInt 2, by decide +kernel⟩, ⟨twoAndHalf, hreal⟩, ⟨.ofInt (-3), by decide +kernel⟩,
      by simp⟩
  have hapart : (stock.map fun tile => (shownPair stock tile).2).Nodup := by decide +kernel
  have htitle : isTitle (.text "Stock") = true := rfl
  obtain ⟨-, hdrawn, horder⟩ := tiles_shown_sorted inTurn_sorts (by decide) hnumbers htitle
  obtain ⟨data, hcharts, -, hsorted, -, hkept⟩ := hdrawn (by decide +kernel)
  have hperm : data.Perm [("apples", 5 / 2), ("pears", 2), ("None", -3)] :=
    (hpairs ▸ hkept.mpr (.inr fun tile htile => hexact _ (List.mem_map_of_mem htile))).trans
      (by decide +kernel)
  refine ⟨data, hcharts, ?_, (horder _ (List.reverse_perm _)).2 fun a ha b hb hsame => ?_⟩
  · refine List.Perm.eq_of_pairwise (fun a b ha hb hab hba => ?_) hsorted (by decide +kernel) hperm
    have hnodup : ([("apples", 5 / 2), ("pears", 2), ("None", -3)].map
        (Prod.snd : String × Rat → Rat)).Nodup := by decide +kernel
    exact List.inj_on_of_nodup_map hnodup (hperm.mem_iff.mp ha) hb (le_antisymm hba hab)
  · exact congrArg _ (List.inj_on_of_nodup_map hapart ha hb hsame)

def half : Binary64 := .finite false 4503599627370496 (-53) (by decide)

-- A whole number of 54 bits beside a number that is not whole.
def wideAndHalf : List Value :=
  [.object [("title", .text "a"), ("value", .int 9007199254740993)],
    .object [("title", .text "b"), ("value", .real half)]]

def tied : List Value :=
  [.object [("title", .text "b"), ("value", .int 1)],
    .object [("title", .text "a"), ("value", .int 1)]]

-- Bars that come in order stay as they are.
theorem exists_chart_in_turn {tiles : List Value} {data : List (String × Rat)} (hne : tiles ≠ [])
    (hnumbers : ∀ tile ∈ tiles, HasNumber tile)
    (hfits : ∀ tile ∈ tiles, (numberOf tile).near.isFinite = true)
    (hshown : tiles.map (shownPair tiles) = data) (hdata : data.Pairwise fun a b => b.2 ≤ a.2) :
    ∃ chart, ofTiles inTurn (.list tiles) .null false = .ok (some chart) ∧ Inlines chart data := by
  have hpairs : (tiles.map (barOf tiles)).map Bar.pair = data :=
    Eq.trans List.map_map hshown
  have hsorted : inTurn (tiles.map (barOf tiles)) = tiles.map (barOf tiles) :=
    List.mergeSort_of_pairwise (by
      simpa only [decide_eq_true_eq] using List.pairwise_map.mp (hpairs ▸ hdata))
  have htitle : isTitle .null = true := rfl
  obtain ⟨chart, hchart, hinlines⟩ := exists_chart inTurn_sorts hne hnumbers hfits htitle false
  rw [hsorted, hpairs] at hinlines
  exact ⟨chart, hchart, hinlines⟩

-- Whole numbers beside others become binary64 numbers, so that one is shown as another. Tiles of
-- one value come as they came, not by their labels.
theorem rounded_and_in_turn :
    (∃ chart, ofTiles inTurn (.list wideAndHalf) .null false = .ok (some chart) ∧
      Inlines chart [("a", 9007199254740992), ("b", 1 / 2)] ∧
      wideAndHalf.map pairOf = [("a", 9007199254740993), ("b", 1 / 2)] ∧
      ∀ data, Inlines chart data → ¬data.Perm (wideAndHalf.map pairOf)) ∧
    ∃ chart other, ofTiles inTurn (.list tied) .null false = .ok (some chart) ∧
      ofTiles inTurn (.list tied.reverse) .null false = .ok (some other) ∧
      Inlines chart [("b", 1), ("a", 1)] ∧ Inlines other [("a", 1), ("b", 1)] ∧
      (tied.map labelOf).Nodup ∧ chart ≠ other := by
  have hhalf : half.toRat? = some (1 / 2) := by decide +kernel
  have hwide : ∀ tile ∈ wideAndHalf, HasNumber tile := by
    simp only [wideAndHalf, List.forall_mem_cons]
    exact ⟨⟨_, _, 9007199254740993, rfl, rfl, rfl⟩, ⟨_, _, 1 / 2, rfl, rfl, hhalf⟩, by simp⟩
  have htied : ∀ tile ∈ tied, HasNumber tile := by
    simp only [tied, List.forall_mem_cons]
    exact ⟨⟨_, _, 1, rfl, rfl, rfl⟩, ⟨_, _, 1, rfl, rfl, rfl⟩, by simp⟩
  have hpairs : wideAndHalf.map pairOf = [("a", 9007199254740993), ("b", 1 / 2)] := by
    decide +kernel
  constructor
  · obtain ⟨chart, hchart, hinlines⟩ := exists_chart_in_turn (by decide) hwide (by decide +kernel)
      (show _ = [("a", 9007199254740992), ("b", 1 / 2)] by decide +kernel) (by decide +kernel)
    refine ⟨chart, hchart, hinlines, hpairs, fun data hdata => ?_⟩
    rw [hpairs, hdata.unique hinlines]
    decide +kernel
  · obtain ⟨chart, hchart, hinlines⟩ := exists_chart_in_turn (by decide) htied (by decide +kernel)
      (show _ = [("b", 1), ("a", 1)] by decide +kernel) (by decide +kernel)
    have hreversed : ∀ tile ∈ tied.reverse, HasNumber tile := fun tile htile =>
      htied tile (List.mem_reverse.mp htile)
    obtain ⟨other, hother, hinlines'⟩ := exists_chart_in_turn (by decide) hreversed (by decide +kernel)
      (show _ = [("a", 1), ("b", 1)] by decide +kernel) (by decide +kernel)
    refine ⟨chart, other, hchart, hother, hinlines, hinlines', by decide, ?_⟩
    rintro rfl
    exact absurd (hinlines.unique hinlines') (by decide +kernel)

end BarChart

end Tileboard
