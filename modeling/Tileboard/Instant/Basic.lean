import Tileboard.Instant.Calendar

namespace Tileboard

def padded (width n : Nat) : String :=
  let digits := Nat.toDigits 10 n
  String.ofList (List.replicate (width - digits.length) '0' ++ digits)

def Date.text (d : Date) : String :=
  padded 4 d.year ++ "-" ++ padded 2 d.month ++ "-" ++ padded 2 d.day

-- The greatest distance from the start of 1970: times are 64-bit counts, and the
-- least of these is none.
def Instant.reach : Int := 9223372036854775807

-- The least 64-bit count, which stands for no time.
def Instant.missing : Int := -9223372036854775808

structure Instant where
  nanoseconds : Int
  within : -Instant.reach ≤ nanoseconds ∧ nanoseconds ≤ Instant.reach
  deriving DecidableEq

namespace Instant

def ofNanoseconds? (n : Int) : Option Instant :=
  if h : -reach ≤ n ∧ n ≤ reach then some ⟨n, h⟩ else none

def nanosecondsPerDay : Int := 86400000000000

def at? (date : Date) (sinceMidnight : Int) : Option Instant :=
  ofNanoseconds? (((date.toDay : Int) - Calendar.epochDay) * nanosecondsPerDay + sinceMidnight)

def atOrBefore (t u : Instant) : Bool := t.nanoseconds ≤ u.nanoseconds

def isWithin (t first last : Instant) : Bool := first.atOrBefore t && t.atOrBefore last

def until? (start finish : Instant) : Option Int :=
  (ofNanoseconds? (finish.nanoseconds - start.nanoseconds)).map (·.nanoseconds)

def back? (t : Instant) (span : Int) : Option Instant := ofNanoseconds? (t.nanoseconds - span)

-- The fraction of a second: none, or six digits, or nine if six do not do.
def fractionText (nanoseconds : Nat) : String :=
  if nanoseconds = 0 then ""
  else if nanoseconds % 1000 = 0 then "." ++ padded 6 (nanoseconds / 1000)
  else "." ++ padded 9 nanoseconds

def stamp (mark : String) (date : Date) (sinceMidnight : Nat) : String :=
  let seconds := sinceMidnight / 1000000000
  date.text ++ mark ++ padded 2 (seconds / 3600) ++ ":" ++ padded 2 (seconds / 60 % 60) ++ ":" ++
    padded 2 (seconds % 60) ++ fractionText (sinceMidnight % 1000000000)

def date (t : Instant) : Date :=
  Date.ofDay (t.nanoseconds.fdiv nanosecondsPerDay + Calendar.epochDay).toNat

def sinceMidnight (t : Instant) : Nat := (t.nanoseconds.fmod nanosecondsPerDay).toNat

def text (t : Instant) : String := stamp "T" t.date t.sinceMidnight

end Instant

end Tileboard
