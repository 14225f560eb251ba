import Tileboard.Value.Equality

namespace Tileboard

inductive Comparison where
  | less
  | lessOrEqual
  | greater
  | greaterOrEqual
  deriving DecidableEq

namespace Comparison

def name : Comparison → String
  | .less => "lt"
  | .lessOrEqual => "lte"
  | .greater => "gt"
  | .greaterOrEqual => "gte"

def all : List Comparison := [.less, .lessOrEqual, .greater, .greaterOrEqual]

def ofName? (s : String) : Option Comparison := all.find? (·.name == s)

def onNumbers (cmp : Comparison) (x y : Number) : Bool :=
  match cmp with
  | .less => x.before y
  | .lessOrEqual => x.before y || x.same y
  | .greater => y.before x
  | .greaterOrEqual => y.before x || x.same y

-- Texts are ordered by the code points of their characters.
def onTexts (cmp : Comparison) (s t : String) : Bool :=
  match cmp with
  | .less => decide (s < t)
  | .lessOrEqual => !decide (t < s)
  | .greater => decide (t < s)
  | .greaterOrEqual => !decide (s < t)

def onLengths (cmp : Comparison) (m n : Nat) : Bool :=
  match cmp with
  | .less => decide (m < n)
  | .lessOrEqual => decide (m ≤ n)
  | .greater => decide (n < m)
  | .greaterOrEqual => decide (n ≤ m)

end Comparison

namespace Value

mutual

-- Numbers and booleans are ordered by quantity, texts by code points, lists by
-- their first pair of unequal items or else by length. Nothing else has an order.
def compare? (cmp : Comparison) : Value → Value → Option Bool
  | .bool a, .bool b => some (cmp.onNumbers (.int (if a then 1 else 0)) (.int (if b then 1 else 0)))
  | .bool a, .number n => some (cmp.onNumbers (.int (if a then 1 else 0)) n)
  | .number n, .bool b => some (cmp.onNumbers n (.int (if b then 1 else 0)))
  | .number m, .number n => some (cmp.onNumbers m n)
  | .text s, .text t => some (cmp.onTexts s t)
  | .list xs, .list ys => compareLists? cmp xs ys
  | _, _ => none

def compareLists? (cmp : Comparison) : List Value → List Value → Option Bool
  | x :: xs, y :: ys => if equal x y then compareLists? cmp xs ys else compare? cmp x y
  | xs, ys => some (cmp.onLengths xs.length ys.length)

end

end Value

end Tileboard
