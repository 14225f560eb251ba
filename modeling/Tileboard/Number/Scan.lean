import Tileboard.Number.Numeral

namespace Tileboard

-- The digits so far as a number, how many of them counted, and the power of ten
-- still to apply.
structure Scan where
  value : Binary64
  count : Nat
  exponent : Int

namespace Scan

def start : Scan := ⟨Binary64.zero false, 0, 0⟩

-- Digits beyond these only move the point.
def digitLimit : Nat := 17

def asciiDigit? (c : Char) : Option Nat :=
  if '0' ≤ c ∧ c ≤ '9' then some (c.toNat - '0'.toNat) else none

def asciiBlank (c : Char) : Bool := c = ' ' || ('\t' ≤ c && c ≤ '\r')

def addDigit (s : Scan) (d : Nat) : Scan :=
  { s with value := (s.value.mul (.ofInt 10)).add (.ofInt d), count := s.count + 1 }

def addWhole (s : Scan) : List Nat → Scan
  | [] => s
  | d :: rest =>
      if s.count < digitLimit then addWhole (s.addDigit d) rest
      else addWhole { s with exponent := s.exponent + 1 } rest

def addFraction (s : Scan) : List Nat → Scan
  | [] => s
  | d :: rest =>
      if s.count < digitLimit then
        addFraction { s.addDigit d with exponent := s.exponent - 1 } rest
      else s

def takeAscii : List Char → List Nat × List Char
  | [] => ([], [])
  | c :: rest =>
      match asciiDigit? c with
      | some d =>
          let (ds, after) := takeAscii rest
          (d :: ds, after)
      | none => ([], c :: rest)

def powerOfTen (n : Nat) : Binary64 := .ofDecimal false 1 n

-- Applies the power of ten by one multiplication or division, far below by two.
-- Past the greatest exponent, and where the result would be infinite, there is
-- none.
def scaled? (value : Binary64) (exponent : Int) : Option Binary64 :=
  let result :=
    if 308 < exponent then .infinite false
    else if 0 < exponent then value.mul (powerOfTen exponent.toNat)
    else if exponent < -616 then Binary64.zero false
    else if exponent < -308 then
      (value.div (powerOfTen (-308 - exponent).toNat)).div (powerOfTen 308)
    else value.div (powerOfTen (-exponent).toNat)
  if result.isFinite then some result else none

-- A number as scanned. A text of digits alone also denotes an exact whole number.
structure Reading where
  value : Binary64
  whole : Option Int

def takeExponent? : List Char → Option (Option Int × List Char)
  | [] => some (none, [])
  | c :: rest =>
      if c = 'e' ∨ c = 'E' then
        let (negative, digits) := Numeral.takeSign rest
        let (ds, after) := takeAscii digits
        if ds.isEmpty ∨ digitLimit < ds.length then none
        else
          let n : Int := Numeral.digitsValue ds
          some (some (if negative then -n else n), after)
      else some (none, c :: rest)

def decimal? (cs : List Char) : Option Reading := do
  let (negative, unsigned) := Numeral.takeSign (cs.dropWhile asciiBlank)
  let (wholeDigits, afterWhole) := takeAscii unsigned
  let (hasPoint, fractionDigits, afterFraction) :=
    match afterWhole with
    | '.' :: rest =>
        let (ds, after) := takeAscii rest
        (true, ds, after)
    | rest => (false, [], rest)
  let scan := (start.addWhole wholeDigits).addFraction fractionDigits
  if scan.count = 0 then none
  let (exponent, rest) ← takeExponent? afterFraction
  let signed := if negative then scan.value.negate else scan.value
  let value ← scaled? signed (scan.exponent + exponent.getD 0)
  if rest.all asciiBlank then
    let exact : Int := Numeral.digitsValue wholeDigits
    let isWhole := !hasPoint && exponent.isNone
    return ⟨value, if isWhole then some (if negative then -exact else exact) else none⟩
  else none

def infinity? (cs : List Char) : Option Reading :=
  let (negative, word) := Numeral.takeSign cs
  if ["inf", "infinity"].contains (Numeral.asciiLower word) then
    some ⟨.infinite negative, none⟩
  else none

def ofText? (s : String) : Option Reading :=
  match decimal? s.toList with
  | some reading => some reading
  | none => infinity? s.toList

end Scan

end Tileboard
