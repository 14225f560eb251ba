namespace Tileboard.Text

-- A class is listed by its boundaries in rising order: the first code point
-- inside, the first one outside again, and so on. A character is inside iff an
-- odd number of boundaries lie at or below it.
def inRanges (boundaries : List Nat) (c : Char) : Bool :=
  (boundaries.takeWhile (· ≤ c.toNat)).length % 2 == 1

end Tileboard.Text
