import Tileboard.Number.Numeral
import Tileboard.Value.Basic

namespace Tileboard.Service

namespace Field

def find? (body : Value) (names : List String) : Option Value := names.findSome? body.field?

def orElse {α : Type} (body : Value) (names : List String) (default : α)
    (read : Value → Option α) : Option α :=
  match find? body names with
  | some v => read v
  | none => some default

def isObject : Value → Bool
  | .object _ => true
  | _ => false

def optionalText : Value → Option Value
  | .null => some .null
  | .text s => some (.text s)
  | _ => none

def objects : Value → Option (List Value)
  | .list items => if items.all isObject then some items else none
  | _ => none

def optionalObjects : Value → Option (Option (List Value))
  | .null => some none
  | v => (objects v).map some

def optionalObject : Value → Option Value
  | .null => some .null
  | .object fields => some (.object fields)
  | _ => none

def objectOfObjects : Value → Option Value
  | .object fields => if fields.all fun f => (objects f.2).isSome then some (.object fields) else none
  | _ => none

def onWords : List String := ["1", "on", "t", "true", "y", "yes"]
def offWords : List String := ["0", "off", "f", "false", "n", "no"]

def switchOf (n : Int) : Option Bool :=
  if n = 1 then some true else if n = 0 then some false else none

-- A switch: a truth value, zero or one, or one of some words in any case.
def switch : Value → Option Bool
  | .bool b => some b
  | .number (.int n) => switchOf n
  | .number (.real x) => x.toInt?.bind switchOf
  | .text s =>
      let word := Numeral.asciiLower s.toList
      if onWords.contains word then some true
      else if offWords.contains word then some false
      else none
  | _ => none

def asciiDigits (cs : List Char) : Bool := cs.all fun c => '0' ≤ c && c ≤ '9'

-- Digits with low lines between them, and zeros behind a point.
def wholeText? (cs : List Char) : Option Int := do
  let (whole, fraction) := cs.span (· ≠ '.')
  let digits ← Numeral.withoutLowLines? whole
  if digits.isEmpty || !asciiDigits digits || !(fraction.drop 1).all (· == '0') then none
  return Numeral.digitsValue (Numeral.takeDigits digits).1

def whole : Value → Option Int
  | .bool b => some (if b then 1 else 0)
  | .number (.int n) => some n
  | .number (.real x) =>
      match x.toInt? with
      | some n => if -int64Bound < n ∧ n < int64Bound then some n else none
      | none => none
  | .text s =>
      let (negative, digits) := Numeral.takeSign (Text.trimChars s.toList)
      (wholeText? digits).map fun n => if negative then -n else n
  | _ => none

end Field

end Tileboard.Service
