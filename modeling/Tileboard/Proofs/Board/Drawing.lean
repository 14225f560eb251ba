import Tileboard.Proofs.Board.Bars
import Tileboard.Proofs.Board.Result
import Tileboard.Proofs.Number.Whole
import Tileboard.Proofs.Tile.Groups

namespace Tileboard

-- A metric comes to a whole number only if this is a binary64 number.
theorem Metric.whole_of_aggregate {metric : Option Metric} {numbers : List Binary64} {k : Int}
    (h : Metric.aggregate metric numbers = .ok (.int k)) :
    ∃ x : Binary64, x.toInt? = some k := by
  have hzero : ∃ x : Binary64, x.toInt? = some 0 :=
    ⟨_, Binary64.toInt?_of_toRat? (Binary64.toRat?_zero false)⟩
  cases numbers with
  | nil =>
      cases h
      exact hzero
  | cons first rest =>
      cases metric with
      | none =>
          cases h
          exact hzero
      | some metric =>
          cases metric with
          | sum | least | greatest | median => cases h
          | average =>
              obtain ⟨k, hk, ⟨⟩⟩ := map_eq_ok_iff.mp h
              obtain ⟨rounded, -, hk⟩ := bind_eq_ok_iff.mp hk
              split at hk
              · rename_i hwhole
                cases hk
                obtain ⟨x, -, hx⟩ := Option.bind_eq_some_iff.mp hwhole
                exact ⟨x, hx⟩
              · cases hk

theorem Metric.near_of_aggregate {metric : Option Metric} {numbers : List Binary64} {n : Number}
    (h : Metric.aggregate metric numbers = .ok n) : ∃ x, n.toBinary64? = some x := by
  cases n with
  | int k =>
      obtain ⟨x, hx⟩ := Metric.whole_of_aggregate h
      exact ⟨_, if_pos (Binary64.isFinite_ofInt_toInt? hx)⟩
  | real x => exact ⟨x, rfl⟩

namespace BarChart

variable {sort : Sorter}

theorem bars_succeeds {tiles : List Value} (h : ∀ tile ∈ tiles, ∃ fields n x,
    tile = .object fields ∧ tile.field "value" = .number n ∧ n.toBinary64? = some x) :
    ∃ sorted, bars sort tiles = .ok sorted := by
  have hobjects : ∀ tile ∈ tiles, ∃ fields, tile = .object fields := fun tile htile => by
    obtain ⟨fields, -, -, hfields, -⟩ := h tile htile
    exact ⟨fields, hfields⟩
  have hnear : (tiles.map (·.field "value")).any Table.isTooLarge = false := by
    rw [List.any_map, List.any_eq_false]
    intro tile htile
    obtain ⟨-, n, x, -, hvalue, hx⟩ := h tile htile
    rw [Function.comp_apply, hvalue, Bool.not_eq_true, Table.isTooLarge_eq_false_iff]
    exact ⟨x, hx⟩
  rw [bars_eq hobjects, Table.numeric, hnear]
  exact ⟨_, rfl⟩

theorem ofTiles_succeeds {tiles : List Value} {title : Value} (horizontal : Bool)
    (h : ∀ tile ∈ tiles, ∃ fields n x,
      tile = .object fields ∧ tile.field "value" = .number n ∧ n.toBinary64? = some x)
    (htitle : isTitle title = true) :
    ∃ chart, ofTiles sort (.list tiles) title horizontal = .ok chart := by
  obtain ⟨sorted, hsorted⟩ := @bars_succeeds sort _ h
  rw [ofTiles, htitle]
  split
  · rw [Value.items, ok_bind, hsorted]
    exact ⟨_, rfl⟩
  · exact ⟨_, rfl⟩

end BarChart

namespace Board

variable {sort : BarChart.Sorter}

-- What a description has to offer for its tile to be drawn: nothing where the tile shows no tiles,
-- else a key and a title.
def Drawable (t : Tile Filter) : Prop :=
  (¬ t.Grouped → ((Value.object t.description).field "tiles").holds = false) ∧
    (t.Grouped → (∃ key, t.description.lookup "key" = some key ∧ key.canBeKey = true) ∧
      BarChart.isTitle ((Value.object t.description).field "title") = true)

theorem entryOf_succeeds {mode : Mode} {w : Windows Value} {t : Tile Filter} {subtitles : Subtitles}
    {r : Value} (hresult : (Pass.full.tile mode subtitles w t).result = .ok r) (h : Drawable t) :
    ∃ entry, entryOf sort r = .ok entry := by
  obtain ⟨own, hown, htiles, hfields⟩ := Pass.shown_of_result hresult
  have hgrouped := Pass.subTiles_isSome_iff hown
  have htitle : r.field "title" = (Value.object t.description).field "title" := by
    rw [Value.field, hfields "title" (by decide)]
    rfl
  unfold entryOf
  cases own with
  | none =>
      have hnothing : (r.field "tiles").holds = false := by
        rw [htiles]
        exact h.1 (mt hgrouped.mpr (by simp))
      rw [BarChart.ofTiles, if_neg (by rw [hnothing]; exact Bool.false_ne_true)]
      exact ⟨none, rfl⟩
  | some tiles =>
      obtain ⟨⟨key, hkey, hcan⟩, hline⟩ := h.2 (hgrouped.mp rfl)
      have hnumbers : ∀ s ∈ tiles, ∃ fields n x, s = .object fields ∧
          s.field "value" = .number n ∧ n.toBinary64? = some x := by
        intro s hs
        obtain ⟨column, filterType, key, metric, numbers, value, hvalue, rfl⟩ :=
          Pass.subTile_of_mem hown hs
        obtain ⟨x, hx⟩ := Metric.near_of_aggregate hvalue
        exact ⟨_, value, x, rfl, rfl, hx⟩
      rw [← htitle] at hline
      obtain ⟨chart, hchart⟩ := 
        @BarChart.ofTiles_succeeds sort _ _ (isHorizontal r) hnumbers hline
      rw [htiles, Pass.shownTiles, hchart, ok_bind]
      cases chart with
      | none => exact ⟨none, rfl⟩
      | some chart =>
          dsimp only
          rw [hfields "key" (by decide), hkey]
          dsimp only
          rw [if_pos hcan]
          exact ⟨_, rfl⟩

end Board

end Tileboard
