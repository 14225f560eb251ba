namespace Tileboard

structure Table (α : Type) where
  height : Nat
  columns : List (String × List α)

namespace Table

-- A table without columns is empty, whatever its height.
def isEmpty {α : Type} (t : Table α) : Bool := t.height == 0 || t.columns.isEmpty

def rowsFrom {α : Type} : Nat → List (String × List α) → List (List (String × α))
  | 0, _ => []
  | n + 1, columns =>
      columns.filterMap (fun column => column.2.head?.map fun cell => (column.1, cell)) ::
        rowsFrom n (columns.map fun column => (column.1, column.2.tail))

def rows {α : Type} (t : Table α) : List (List (String × α)) := rowsFrom t.height t.columns

def mapColumns {α β : Type} (f : List α → List β) (t : Table α) : Table β :=
  ⟨t.height, t.columns.map fun column => (column.1, f column.2)⟩

end Table

end Tileboard
