import Tileboard.Instant.Basic
import Tileboard.Number.Numeral

namespace Tileboard.Instant

open Numeral (takeDigits digitsValue)

def takeNumber? (least most : Nat) (cs : List Char) : Option (Nat × List Char) :=
  match takeDigits cs with
  | (ds, rest) =>
      if least ≤ ds.length ∧ ds.length ≤ most then some (digitsValue ds, rest) else none

def dropChar? (c : Char) : List Char → Option (List Char)
  | d :: rest => if d = c then some rest else none
  | [] => none

def dropBlanks (cs : List Char) : List Char := cs.dropWhile Text.isBlank

def dropGap? (cs : List Char) : Option (List Char) :=
  match cs with
  | c :: rest => if Text.isBlank c then some (dropBlanks rest) else none
  | [] => none

def monthNames : List String :=
  ["january", "february", "march", "april", "may", "june", "july", "august", "september",
    "october", "november", "december"]

def month? (word : String) : Option Nat :=
  (monthNames.findIdx? fun name => word == name || word == String.ofList (name.toList.take 3)).map
    (· + 1)

def takeMonth? (cs : List Char) : Option (Nat × List Char) :=
  let (letters, rest) := cs.span Char.isAlpha
  (month? (Numeral.asciiLower letters)).map fun m => (m, rest)

-- Year first: alone, with a month, or with month and day, divided by one sign.
def yearFirst? (year : Nat) (cs : List Char) : Option (Date × List Char) :=
  match cs with
  | [] => some (⟨year, 1, 1⟩, [])
  | sign :: rest =>
      if sign = '-' ∨ sign = '/' then do
        let (month, afterMonth) ← takeNumber? 1 2 rest
        if afterMonth.isEmpty then return (⟨year, month, 1⟩, [])
        let (day, afterDay) ← takeNumber? 1 2 (← dropChar? sign afterMonth)
        return (⟨year, month, day⟩, afterDay)
      else none

-- Month, day and year with slashes. A first number past 12 is the day.
def slashed? (first : Nat) (cs : List Char) : Option (Date × List Char) := do
  let (second, afterSecond) ← takeNumber? 1 2 (← dropChar? '/' cs)
  let (year, rest) ← takeNumber? 4 4 (← dropChar? '/' afterSecond)
  return (if first ≤ 12 then ⟨year, first, second⟩ else ⟨year, second, first⟩, rest)

def dayFirst? (day : Nat) (cs : List Char) : Option (Date × List Char) := do
  let (month, afterMonth) ← takeMonth? (← dropGap? cs)
  let (year, rest) ← takeNumber? 4 4 (← dropGap? afterMonth)
  return (⟨year, month, day⟩, rest)

def monthFirst? (cs : List Char) : Option (Date × List Char) := do
  let (month, afterMonth) ← takeMonth? cs
  let (day, afterDay) ← takeNumber? 1 2 (← dropGap? afterMonth)
  let (year, rest) ← takeNumber? 4 4 (← dropGap? ((dropChar? ',' afterDay).getD afterDay))
  return (⟨year, month, day⟩, rest)

def takeDate? (cs : List Char) : Option (Date × List Char) :=
  let (ds, rest) := takeDigits cs
  match ds.length with
  | 0 => monthFirst? cs
  | 4 => yearFirst? (digitsValue ds) rest
  | 8 => some (⟨digitsValue (ds.take 4), digitsValue ((ds.drop 4).take 2),
      digitsValue (ds.drop 6)⟩, rest)
  | n =>
      if n ≤ 2 then
        match rest with
        | '/' :: _ => slashed? (digitsValue ds) rest
        | _ => dayFirst? (digitsValue ds) rest
      else none

structure Clock where
  hour : Nat
  minute : Nat
  second : Nat
  nanosecond : Nat

namespace Clock

def isValid (c : Clock) : Bool := c.hour < 24 && c.minute < 60 && c.second < 60

def sinceMidnight (c : Clock) : Int :=
  (((c.hour * 60 + c.minute) * 60 + c.second) * 1000000000 + c.nanosecond : Nat)

end Clock

-- Digits behind the point, cut to nine and counted as nanoseconds.
def takeFraction? (cs : List Char) : Option (Nat × List Char) :=
  match cs with
  | '.' :: rest =>
      match takeDigits rest with
      | ([], _) => none
      | (ds, after) =>
          let kept := ds.take 9
          some (digitsValue kept * tenTo (9 - kept.length), after)
  | _ => some (0, cs)

-- Hours, minutes and seconds without signs between them, or with colons; what
-- is left out is zero.
def takeClock? (cs : List Char) : Option (Clock × List Char) :=
  let (ds, rest) := takeDigits cs
  match ds with
  | [a, b, c, d, e, f] => do
      let (fraction, after) ← takeFraction? rest
      return (⟨digitsValue [a, b], digitsValue [c, d], digitsValue [e, f], fraction⟩, after)
  | [a, b, c, d] => some (⟨digitsValue [a, b], digitsValue [c, d], 0, 0⟩, rest)
  | _ => do
      let (hour, afterHour) ← takeNumber? 1 2 cs
      match afterHour with
      | ':' :: more =>
          let (minute, afterMinute) ← takeNumber? 1 2 more
          match afterMinute with
          | ':' :: further =>
              let (second, afterSecond) ← takeNumber? 1 2 further
              let (fraction, after) ← takeFraction? afterSecond
              return (⟨hour, minute, second, fraction⟩, after)
          | _ => return (⟨hour, minute, 0, 0⟩, afterMinute)
      | _ => if ds.length = 2 then some (⟨hour, 0, 0, 0⟩, afterHour) else none

-- Minutes ahead of universal time. Without a zone the time counts as universal.
def zone? (cs : List Char) : Option Int :=
  match dropBlanks cs with
  | [] => some 0
  | ['Z'] => some 0
  | sign :: rest =>
      if sign = '+' ∨ sign = '-' then
        let numbers : Option (Nat × Nat) :=
          match takeDigits rest with
          | ([a, b], []) => some (digitsValue [a, b], 0)
          | ([a, b, c, d], []) => some (digitsValue [a, b], digitsValue [c, d])
          | ([a, b], ':' :: minutes) =>
              match takeDigits minutes with
              | ([c, d], []) => some (digitsValue [a, b], digitsValue [c, d])
              | _ => none
          | _ => none
        match numbers with
        | some (hours, minutes) =>
            if hours < 24 ∧ minutes < 60 then
              let ahead : Int := hours * 60 + minutes
              some (if sign = '-' then -ahead else ahead)
            else none
        | none => none
      else none

def takeTime? (cs : List Char) : Option (Clock × Int) :=
  match cs with
  | [] => some (⟨0, 0, 0, 0⟩, 0)
  | ['T'] => some (⟨0, 0, 0, 0⟩, 0)
  | c :: rest =>
      if c = 'T' ∨ Text.isBlank c then do
        let (clock, afterClock) ← takeClock? (dropBlanks rest)
        let zone ← zone? afterClock
        return (clock, zone)
      else none

-- A date with an optional time, blanks around it allowed. The local time and the
-- universal time both have to be in reach.
def ofText? (s : String) : Option Instant := do
  let (date, afterDate) ← takeDate? (Text.trimChars s.toList)
  let (clock, zone) ← takeTime? afterDate
  if date.isValid && clock.isValid then
    let localTime ← at? date clock.sinceMidnight
    localTime.back? (zone * 60000000000)
  else none

def startsLikeDate (s : String) : Bool :=
  match s.toList with
  | a :: b :: c :: d :: '-' :: e :: f :: '-' :: g :: h :: _ =>
      [a, b, c, d, e, f, g, h].all Text.isDigit
  | _ => false

end Tileboard.Instant
