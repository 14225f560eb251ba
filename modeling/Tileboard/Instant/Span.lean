import Tileboard.Fault
import Tileboard.Instant.Reader

namespace Tileboard

namespace Instant

-- The time from one instant to another. It has to be a 64-bit count, and not the one
-- that stands for no time.
def spanTo (start finish : Instant) : Except Fault Int :=
  match start.until? finish with
  | some span => .ok span
  | none =>
      if finish.nanoseconds - start.nanoseconds = missing then .error .missingSpan
      else .error .dateOutOfRange

-- The instant that lies earlier by a span; none when its count is the one that
-- stands for no time.
def earlier (t : Instant) (span : Int) : Except Fault (Option Instant) :=
  match t.back? span with
  | some u => .ok (some u)
  | none => if t.nanoseconds - span = missing then .ok none else .error .dateOutOfRange

-- Seconds of a time span: whole days and seconds, and the microseconds on top of
-- them. What is finer than a microsecond is cut off towards the past.
def seconds (span : Int) : Binary64 :=
  let microseconds := span.fdiv 1000
  let whole := Binary64.ofInt (microseconds.fdiv 1000000)
  whole.add ((Binary64.ofInt (microseconds.fmod 1000000)).div (Binary64.ofInt 1000000))

def days (span : Int) : Binary64 := (seconds span).div (Binary64.ofInt 86400)

end Instant

namespace Value

def isGrid : List Value → Bool
  | .list first :: rest =>
      rest.all fun v =>
        match v with
        | .list items => items.length == first.length
        | _ => false
  | _ => false

-- The time that a single value denotes: a text that is a date, or a number of
-- nanoseconds since 1970, cut to a whole one.
def scalarInstant? : Value → Option Instant
  | .text s => Instant.ofText? s
  | .number (.int n) => Instant.ofNanoseconds? n
  | .number (.real x) => x.truncate?.bind Instant.ofNanoseconds?
  | _ => none

-- The time that a value denotes. A list stands for its only item; longer and
-- empty lists and objects are no single time.
def instant : Value → Except Fault (Option Instant)
  | .list items =>
      if isGrid items then .error .wrongType
      else
        match items with
        | [item] => .ok (scalarInstant? item)
        | _ => .error .notADate
  | .object _ => .error .notADate
  | v => .ok (scalarInstant? v)

def isDateText : Value → Bool
  | .text s => Instant.startsLikeDate s
  | _ => false

def daysBetween (start finish : Value) : Except Fault (Option Binary64) := do
  let first ← start.instant
  let last ← finish.instant
  match first, last with
  | some t, some u =>
      let span ← t.spanTo u
      return some (Instant.days span)
  | _, _ => return none

end Value

end Tileboard
