import Tileboard.Table.Cell
import Tileboard.Proofs.Tile.Result

namespace Tileboard.Table

-- Of columns with one name the last counts.
theorem record_cell (before after : List (String × Cell)) (column : String) (c : Cell)
    (h : column ∉ after.map Prod.fst) :
    (record (before ++ (column, c) :: after)).cell (.text column) = .ok c.plain := by
  have hrecord : record (before ++ (column, c) :: after) = .object (Pass.putAll []
      (before.map (Prod.map id Cell.plain) ++
        (column, c.plain) :: after.map (Prod.map id Cell.plain))) := by
    have hmap : before.map (Prod.map id Cell.plain) ++
        (column, c.plain) :: after.map (Prod.map id Cell.plain) =
        (before ++ (column, c) :: after).map (Prod.map id Cell.plain) := by simp
    rw [hmap, Pass.putAll, List.foldl_map]
    rfl
  have hafter : column ∉ (after.map (Prod.map id Cell.plain)).map Prod.fst := by
    simpa [List.map_map, Function.comp_def] using h
  have hcell : ∀ fields, Value.cell (.object fields) (.text column) =
      .ok ((fields.lookup column).getD .null) := fun _ => rfl
  rw [hrecord, hcell, Pass.lookup_putAll _ _ hafter]
  rfl

end Tileboard.Table
