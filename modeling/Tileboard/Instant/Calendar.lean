namespace Tileboard

structure Date where
  year : Nat
  month : Nat
  day : Nat
  deriving DecidableEq

namespace Calendar

def isLeap (year : Nat) : Bool :=
  year % 4 == 0 && (year % 100 != 0 || year % 400 == 0)

def monthLengths (year : Nat) : List Nat :=
  [31, if isLeap year then 29 else 28, 31, 30, 31, 30, 31, 31, 30, 31, 30, 31]

-- Days of all years before this one, from year 0 on.
def daysBeforeYear (year : Nat) : Nat :=
  365 * year + (year + 3) / 4 - (year + 99) / 100 + (year + 399) / 400

def daysBeforeMonth (year month : Nat) : Nat :=
  ((monthLengths year).take (month - 1)).foldl (· + ·) 0

def epochDay : Nat := daysBeforeYear 1970

-- The year of a day. The mean length of a year gives it up to one.
def yearOf (day : Nat) : Nat :=
  let guess := day * 400 / 146097
  if daysBeforeYear (guess + 1) ≤ day then guess + 1
  else if daysBeforeYear guess ≤ day then guess
  else guess - 1

def monthAndDay (month : Nat) : List Nat → Nat → Nat × Nat
  | [], rest => (month, rest + 1)
  | length :: lengths, rest =>
      if rest < length then (month, rest + 1) else monthAndDay (month + 1) lengths (rest - length)

end Calendar

namespace Date

def isValid (d : Date) : Bool :=
  1 ≤ d.month && d.month ≤ 12 && 1 ≤ d.day &&
    d.day ≤ ((Calendar.monthLengths d.year)[d.month - 1]?).getD 0

def toDay (d : Date) : Nat :=
  Calendar.daysBeforeYear d.year + Calendar.daysBeforeMonth d.year d.month + (d.day - 1)

def ofDay (day : Nat) : Date :=
  let year := Calendar.yearOf day
  let (month, dayOfMonth) :=
    Calendar.monthAndDay 1 (Calendar.monthLengths year) (day - Calendar.daysBeforeYear year)
  ⟨year, month, dayOfMonth⟩

end Date

end Tileboard
