import Tileboard.Json.Reader
import Tileboard.Source.Label
import Tileboard.Table.Alignment
import Tileboard.Table.Cell

namespace Tileboard.Document

-- The whole part of a number in 64-bit arithmetic. A positive one that wraps around
-- to less than before is too large, a negative one past the least number too small.
def wholePart (negative : Bool) (n : Nat) : List Nat → Option Nat
  | [] => some n
  | d :: ds =>
      let next := (n * 10 + d) % uint64Bound
      if (!negative && next < n) || (negative && int64Bound < next) then none
      else wholePart negative next ds

-- More digits of a fraction than these do not count.
def fractionLimit : Nat := 15

-- Whole part and fraction are put together in binary64 arithmetic, digit by digit.
def combine (negative : Bool) (whole : Nat) (fraction : List Nat) : Binary64 :=
  let digits := fraction.take fractionLimit
  let part := (Binary64.ofInt (Numeral.digitsValue digits)).mul
    (.ofDecimal false 1 (-digits.length))
  ((Binary64.ofInt whole).add part).mul (.ofInt (if negative then -1 else 1))

def takeExponent? (cs : List Char) : Option (Int × List Char) :=
  match cs with
  | c :: rest =>
      if c = 'e' ∨ c = 'E' then
        let (negative, digits) := Numeral.takeSign rest
        let (ds, after) := Json.takeAsciiDigits digits
        let n : Int := Numeral.digitsValue ds
        some (if negative then -n else n, after)
      else none
  | [] => none

-- Digits may be left out on either side of a sign, a point or a mark.
def takeNumber? (cs : List Char) : Option (Value × List Char) :=
  let (negative, unsigned) := match cs with
    | '-' :: rest => (true, rest)
    | _ => (false, cs)
  let (wholeDigits, afterWhole) := Json.takeAsciiDigits unsigned
  match wholePart negative 0 wholeDigits with
  | none => none
  | some whole =>
      let (fraction, afterFraction) := match afterWhole with
        | '.' :: rest =>
            let (ds, after) := Json.takeAsciiDigits rest
            (some ds, after)
        | rest => (none, rest)
      match takeExponent? afterFraction with
      | some (exponent, rest) =>
          let scaled := (combine negative whole (fraction.getD [])).mul (.ofDecimal false 1 exponent)
          some (.real scaled, rest)
      | none =>
          match fraction with
          | some ds => some (.real (combine negative whole ds), afterFraction)
          | none => some (.int (if negative then -whole else whole), afterFraction)

-- NaN is null here.
def words : List (String × Value) :=
  [("null", .null), ("true", .bool true), ("false", .bool false), ("NaN", .null),
    ("Infinity", .real (.infinite false)), ("-Infinity", .real (.infinite true))]

def takeScalar? (cs : List Char) : Option (Value × List Char) :=
  match words.findSome? fun (word, value) => (Json.dropWord? word cs).map fun r => (value, r) with
  | some answer => some answer
  | none =>
      match cs with
      | c :: _ => if c = '-' || (Json.asciiDigit? c).isSome then takeNumber? cs else none
      | [] => none

def dialect : Json.Dialect where
  scalar? := takeScalar?
  controls := true
  lastComma := true

-- One row for each item of a list, under a name that is its position.
def ofItems (items : List Value) : Except Fault (Table Value) := do
  return ⟨items.length, [("0", ← Table.settle (items.map some))]⟩

def rowOf : Value → Except Fault (List Value)
  | .null => .error .wrongType
  | v => v.items

def ofRows (items : List Value) : Except Fault (Table Value) := do
  let rows ← items.mapM rowOf
  let width := (rows.map List.length).foldl max 0
  let columns ← (List.range width).mapM fun i => do
    return (toString i, ← Table.settle (rows.map fun row => some ((row[i]?).getD .null)))
  return ⟨items.length, columns⟩

def isList : Value → Bool
  | .list _ => true
  | _ => false

def isObject : Value → Bool
  | .object _ => true
  | _ => false

def listLength? : Value → Option Nat
  | .list items => some items.length
  | _ => none

def spread (height : Nat) : Value → List (Option Value)
  | .list items => items.map some
  | v => List.replicate height (some v)

-- Columns by name. All lists have one length; objects are columns by the name of
-- the row and go with no lists. Single values alone make no table.
def ofColumns (fields : List (String × Value)) : Except Fault (Table Value) := do
  let values := fields.map (·.2)
  let lengths := (values.filterMap listLength?).eraseDups
  let nested := values.filter isObject
  match lengths, nested with
  | [], [] => throw .badDocument
  | [], _ =>
      let names := (nested.flatMap fun v => ((Table.fieldsOf v).toOption.getD []).map (·.1)).eraseDups
      let columns ← fields.mapM fun (name, v) => do
        let cells := if isObject v then names.map v.field? else spread names.length v
        return (name, ← Table.settle cells)
      return ⟨names.length, columns⟩
  | [height], [] =>
      let columns ← fields.mapM fun (name, v) => do
        return (name, ← Table.settle (spread height v))
      return ⟨height, columns⟩
  | _, _ => throw .badDocument

def withLabels (t : Table Value) : Table Value :=
  let labels := Label.settle (t.columns.map (·.1))
  ⟨t.height, labels.zip (t.columns.map (·.2))⟩

def toTable : Value → Except Fault (Table Value)
  | .null => .ok ⟨0, []⟩
  | .list [] => .ok ⟨0, []⟩
  | .list (first :: rest) =>
      if isObject first then (Table.ofRecords (first :: rest)).map withLabels
      else if isList first then ofRows (first :: rest)
      else ofItems (first :: rest)
  | .object [] => .ok ⟨0, []⟩
  | .object fields => (ofColumns fields).map withLabels
  | _ => .error .badDocument

def read (s : String) : Except Fault (Table Cell) := do
  match Json.readAs? dialect s with
  | none => throw .badDocument
  | some v => return (← toTable v).mapColumns fun cells => cells.map .value

end Tileboard.Document
