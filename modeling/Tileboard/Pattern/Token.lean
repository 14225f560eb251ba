import Tileboard.Pattern.Syntax

namespace Tileboard.Pattern

inductive Token where
  | plain (c : Char)
  | escape (c : Char)
  deriving DecidableEq

def Token.text : Token → String
  | .plain c => String.ofList [c]
  | .escape c => String.ofList ['\\', c]

def Token.length : Token → Nat
  | .plain _ => 1
  | .escape _ => 2

-- What is known while a pattern is read. Group `i + 1` has the entry `i` of
-- `widths`, which is empty while the group is open. `lookbehindGroups` counts the
-- groups that existed where the outermost open lookbehind began.
structure Reading where
  total : Nat
  rest : List Char
  flags : List Flag
  names : List (String × Nat)
  widths : List (Option Width)
  lookbehindGroups : Option Nat
  conditions : List (Nat × Nat)

abbrev Reader := StateT Reading (Except Refusal)

namespace Reader

def position : Reader Nat := do
  let s ← get
  return s.total - s.rest.length

def refuseAt {α : Type} (flaw : Flaw) (position : Nat) : Reader α :=
  throw (.flawed flaw (some position))

def refuse {α : Type} (flaw : Flaw) (back : Nat) : Reader α := do
  refuseAt flaw ((← position) - back)

def peek : Reader (Option Token) := do
  match (← get).rest with
  | [] => return none
  | ['\\'] => return none
  | '\\' :: c :: _ => return some (.escape c)
  | c :: _ => return some (.plain c)

-- A lone backslash at the end is found as soon as it would come next.
def moveTo (rest : List Char) : Reader Unit := do
  if rest = ['\\'] then refuseAt .escapeAtEnd ((← get).total - 1)
  modify fun s => { s with rest := rest }

def next : Reader (Option Token) := do
  let token ← peek
  match token with
  | none => return none
  | some t =>
      moveTo ((← get).rest.drop t.length)
      return some t

def accept (c : Char) : Reader Bool := do
  if (← peek) = some (.plain c) then
    let _ ← next
    return true
  else return false

def takeUpTo (count : Nat) (test : Char → Bool) : Reader (List Char) :=
  match count with
  | 0 => return []
  | count + 1 => do
      match (← peek) with
      | some (.plain c) =>
          if test c then
            let _ ← next
            return c :: (← takeUpTo count test)
          else return []
      | _ => return []

-- The text up to a terminator, which is taken too. It must not be empty.
def takeUntil (terminator : Char) (what : String) (fuel : Nat) (found : List Char) :
    Reader String :=
  match fuel with
  | 0 => refuse (.unterminatedName terminator) found.length
  | fuel + 1 => do
      match (← next) with
      | none =>
          if found.isEmpty then refuse (.missing what) 0
          else refuse (.unterminatedName terminator) found.length
      | some (.plain c) =>
          if c = terminator then
            if found.isEmpty then refuse (.missing what) 1
            else return String.ofList found
          else takeUntil terminator what fuel (found ++ [c])
      | some (.escape c) => takeUntil terminator what fuel (found ++ ['\\', c])

def takeName (terminator : Char) (what : String) : Reader String := do
  takeUntil terminator what ((← get).rest.length + 1) []

def groupCount : Reader Nat := do
  return (← get).widths.length + 1

def groupWidth? (group : Nat) : Reader (Option Width) := do
  match group with
  | 0 => return none
  | i + 1 => return ((← get).widths[i]?).join

-- Inside a lookbehind only groups closed before it can be referred to.
def checkLookbehind (group : Nat) : Reader Unit := do
  match (← get).lookbehindGroups with
  | none => return ()
  | some count =>
      if (← groupWidth? group).isNone then refuse .openGroup 0
      if count ≤ group then refuse .sameLookbehind 0

end Reader

end Tileboard.Pattern
