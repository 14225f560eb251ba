import Tileboard.Text.Ranges

namespace Tileboard.Text

-- The boundaries of white space: the ASCII blanks, the four information
-- separators, and the spaces of the general punctuation and ideographic blocks.
def blankBoundaries : List Nat := [
  9, 14, 28, 33, 133, 134, 160, 161, 5760, 5761, 8192, 8203, 8232, 8234, 8239, 8240, 8287,
  8288, 12288, 12289]

def isBlank (c : Char) : Bool := inRanges blankBoundaries c

end Tileboard.Text
