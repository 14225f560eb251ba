import Tileboard.Measure.Outcome
import Tileboard.Instant.Span
import Tileboard.Number.Statistics

namespace Tileboard.Measure

def hasDates (start finish row : Value) : Except Fault Bool := do
  if (← row.cell start).isDateText then return (← row.cell finish).isDateText
  else return false

-- The days in one row: nothing for a row that is left out, and a mark whether it
-- was left out for want of dates.
def daysIn (matcher : Option Matcher) (start finish row : Value) :
    Traced (Option Binary64 × Bool) := do
  if ← hasDates start finish row then
    let wanted ← match matcher with
      | some m => m.accepts row
      | none => pure true
    if wanted then
      let days ← (← row.cell start).daysBetween (← row.cell finish)
      return (days, days.isNone)
    else return (none, false)
  else return (none, true)

def dayCounts (matcher : Option Matcher) (start finish : Value) (rows : List Value) :
    Traced (List Binary64) := do
  let days ← rows.mapM (daysIn matcher start finish)
  let skipped := (days.filter (·.2)).length
  if skipped ≠ 0 then Traced.note (.skippedRows start finish skipped)
  return days.filterMap (·.1)

-- The mean to one decimal; zero when no row has dates.
def meanDays (start finish : Value) (rows : List Value) : Traced Outcome := do
  let days ← dayCounts none start finish rows
  if days.isEmpty then return .ofValue (.int 0) (.int 0)
  let value ← rounded (Statistics.mean days) 1
  return .ofValue (value.elim .null Value.real) (.int 0)

def meanDuration (matcher : Option Matcher) (start finish : Value) (rows : List Value) :
    Traced Outcome := do
  let days ← dayCounts matcher start finish rows
  if days.isEmpty then return .ofValue (.int 0) (.int 0)
  return .ofValue (.int (← roundedWhole (Statistics.mean days))) (.int 0)

end Tileboard.Measure
