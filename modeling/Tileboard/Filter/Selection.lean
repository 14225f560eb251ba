import Tileboard.Filter.Matcher

namespace Tileboard.Selection

def keep {α : Type} (test : α → Traced Bool) : List α → Traced (List α)
  | [] => return []
  | a :: rest => do
      if ← test a then return a :: (← keep test rest) else keep test rest

def count {α : Type} (test : α → Traced Bool) (items : List α) : Traced Nat := do
  return (← keep test items).length

def passing {α : Type} (record : α → Value) (matchers : List Matcher) (rows : List α) :
    Traced (List α) :=
  keep (fun row => Matcher.acceptsAll matchers (record row)) rows

-- Whether there is nothing to do: the rows are then returned as they are, and the
-- filters are not looked at.
def isIdle {α β : Type} (filters : List β) (rows : List α) : Bool :=
  filters.isEmpty || rows.isEmpty

-- Each described filter is read and made ready before the next is read.
def readAll (mode : Mode) : List Value → Traced (List Matcher)
  | [] => return []
  | v :: rest => do
      let first ← Matcher.ofFilter mode (← Filter.ofValue v)
      return first :: (← readAll mode rest)

def apply {α : Type} (record : α → Value) (mode : Mode) (filters : List Filter)
    (rows : List α) : Traced (List α) := do
  if isIdle filters rows then return rows
  passing record (← Matcher.ofFilters mode filters) rows

def applyDescribed {α : Type} (record : α → Value) (mode : Mode) (filters : List Value)
    (rows : List α) : Traced (List α) := do
  if isIdle filters rows then return rows
  passing record (← readAll mode filters) rows

end Tileboard.Selection
