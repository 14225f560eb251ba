import Tileboard.Fault
import Tileboard.Number.Scan

namespace Tileboard.Table

-- What a cell says when a number is wanted. A whole number comes with the binary64
-- number that stands for it among others.
inductive Reading where
  | whole (exact : Int) (near : Binary64)
  | real (value : Binary64)
  | truth (value : Bool)
  | unreadable

namespace Reading

def ofText (s : String) : Reading :=
  match Scan.ofText? s with
  | some ⟨near, some exact⟩ => .whole exact near
  | some ⟨value, none⟩ => .real value
  | none => .unreadable

def ofValue : Value → Reading
  | .number (.int n) => .whole n (.ofInt n)
  | .number (.real x) => if x.isNan then .unreadable else .real x
  | .bool b => .truth b
  | .text s => ofText s
  | _ => .unreadable

def isUnreadable : Reading → Bool
  | .unreadable => true
  | _ => false

def isTruth : Reading → Bool
  | .truth _ => true
  | _ => false

def wholeNumber? : Reading → Option Int
  | .whole n _ => some n
  | _ => none

def needsReal : Reading → Bool
  | .whole n _ => n < -int64Bound || uint64Bound ≤ n
  | .truth _ => false
  | _ => true

def toReal : Reading → Binary64
  | .whole _ near => near
  | .real x => x
  | .truth b => .ofInt (if b then 1 else 0)
  | .unreadable => .nan

def toInt : Reading → Int
  | .whole n _ => n
  | .truth b => if b then 1 else 0
  | _ => 0

end Reading

-- Negative numbers and those past the signed 64-bit ones do not go together.
def spansSigns (readings : List Reading) : Bool :=
  let exact := readings.filterMap Reading.wholeNumber?
  exact.any (· < 0) && exact.any (int64Bound ≤ ·)

def ofReadings (readings : List Reading) : List Value :=
  if readings.any Reading.needsReal || spansSigns readings then
    readings.map fun r => .real r.toReal
  else if readings.all Reading.isTruth then readings.map fun r => .bool (r.toInt == 1)
  else readings.map fun r => .int r.toInt

def isTooLarge : Value → Bool
  | .number (.int n) => !(Binary64.ofInt n).isFinite
  | _ => false

def numeric (cells : List Value) : Except Fault (List Value) :=
  if cells.any isTooLarge then .error .numberTooLarge
  else .ok (ofReadings (cells.map Reading.ofValue))

end Tileboard.Table
