import Tileboard.Instant.Basic
import Tileboard.Number.Notation
import Tileboard.Number.Numeral

namespace Tileboard.Label

def integer? (s : String) : Option Int := do
  let cs ← Numeral.withoutLowLines? (Text.trimChars s.toList)
  let (negative, digits) := Numeral.takeSign cs
  match Numeral.takeDigits digits with
  | ([], _) => none
  | (ds, []) =>
      let n : Int := Numeral.digitsValue ds
      some (if negative then -n else n)
  | _ => none

def inInt64 (n : Int) : Bool := -int64Bound ≤ n && n < int64Bound

-- Numbers up to here, the seconds of the first year of times, are no times.
def leastTime : Int := 31536000

-- Nanoseconds in the units in which labels may count, the longest first.
def units : List Int := [1000000000, 1000000, 1000, 1]

def missingTexts : List String := ["", "NaT", "nat", "NAT", "nan", "NaN", "NAN"]

def timeText (t : Instant) : String := Instant.stamp " " t.date t.sinceMidnight

def timeOf (unit : Int) (x : Binary64) : Option Instant := do
  let q ← x.toRat?
  let whole ← x.truncate?
  let fraction := q - whole
  let part : Int := Binary64.divideToEven (fraction.num.natAbs * unit.toNat) fraction.den
  Instant.ofNanoseconds? (whole * unit + (if fraction.num < 0 then -part else part))

-- A label as a time in a unit. Some texts stand for no time.
def timeLabel? (unit : Int) (s : String) : Option String :=
  if missingTexts.contains s then some "NaT"
  else ((Numeral.binary64? s).bind (timeOf unit)).map timeText

def all? {α : Type} (read : String → Option α) (labels : List String) : Option (List α) :=
  labels.mapM read

def integerTimes? (numbers : List Int) : Option (List String) :=
  units.findSome? fun unit =>
    numbers.mapM fun n => (Instant.ofNanoseconds? (n * unit)).map timeText

def ofIntegers (numbers : List Int) : List String :=
  if numbers.all (leastTime < ·) then
    (integerTimes? numbers).getD (numbers.map toString)
  else numbers.map toString

def ofNumbers (labels : List String) : List String :=
  match all? Numeral.binary64? labels with
  | some xs => xs.map Binary64.text
  | none => labels

-- The labels as written: integers that can be times are times, other integers stay,
-- then come times in any unit, then numbers, and all else stays as it is.
def settle (labels : List String) : List String :=
  if labels.isEmpty then labels
  else
    match all? integer? labels with
    | some numbers => if numbers.all inInt64 then ofIntegers numbers else ofNumbers labels
    | none =>
        match units.findSome? fun unit => all? (timeLabel? unit) labels with
        | some times => times
        | none => ofNumbers labels

end Tileboard.Label
