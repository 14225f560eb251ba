import Tileboard.Value.Basic
import Tileboard.Text.LetterCase

namespace Tileboard.Value

mutual

-- Deep equality. Numbers are equal when their quantities are, the booleans count
-- as 0 and 1, and the order of an object's fields does not matter. NaN equals
-- nothing.
def equal : Value → Value → Bool
  | .null, .null => true
  | .bool a, .bool b => a == b
  | .bool a, .number n => Number.same (.int (if a then 1 else 0)) n
  | .number n, .bool b => Number.same n (.int (if b then 1 else 0))
  | .number m, .number n => Number.same m n
  | .text s, .text t => s == t
  | .list xs, .list ys => equalLists xs ys
  | .object xs, .object ys => xs.length == ys.length && fieldsWithin xs ys
  | _, _ => false

def equalLists : List Value → List Value → Bool
  | [], [] => true
  | x :: xs, y :: ys => equal x y && equalLists xs ys
  | _, _ => false

def fieldsWithin : List (String × Value) → List (String × Value) → Bool
  | [], _ => true
  | (name, x) :: xs, ys =>
      (match ys.lookup name with
        | some y => equal x y
        | none => false) && fieldsWithin xs ys

end

-- The form a value is matched in: texts without blanks around them and in lower
-- case, all else as it is.
def normalize : Value → Value
  | .text s => .text (Text.fold s)
  | v => v

def isBool : Value → Bool
  | .bool _ => true
  | _ => false

-- Equality as filters mean it: between normalized values, and a boolean never
-- equals a number.
def matchesValue (left right : Value) : Bool :=
  let a := normalize left
  let b := normalize right
  isBool a == isBool b && equal a b

end Tileboard.Value
