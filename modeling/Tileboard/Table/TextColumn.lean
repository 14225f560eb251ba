import Tileboard.Table.Cell
import Tileboard.Table.Numeric

namespace Tileboard.Table

-- Texts with a zero in front of other digits are names, not numbers.
def hasLeadingZero (cs : List Char) : Bool :=
  let digits := match cs with
    | '-' :: rest => rest
    | _ => cs
  match digits with
  | '0' :: d :: _ => Text.isDigit d
  | _ => false

def trimmedTexts (cells : List Cell) : List (Option String) :=
  cells.map fun cell => if cell.isPresent then some (Text.trim cell.text) else none

def isNumericText (s : String) : Bool :=
  !hasLeadingZero s.toList && !(Reading.ofText s).isUnreadable

-- A column becomes numeric if it has texts and all of them are numbers.
def numericTexts (cells : List Cell) : List Cell :=
  let texts := trimmedTexts cells
  let present := texts.filterMap id
  if !present.isEmpty && present.all isNumericText then
    (ofReadings (texts.map fun t => (t.map Reading.ofText).getD .unreadable)).map .value
  else cells

end Tileboard.Table
