import Tileboard.Pattern.Group

namespace Tileboard.Pattern

open Reader

def repeatLimit : Nat := 4294967295

-- The counts of a repeat behind its sign: least, and greatest if there is one.
-- A brace that opens no counts is an ordinary character.
def repeatCounts (sign : Char) (here : Nat) : Reader (Option (Nat × Option Nat)) := do
  match sign with
  | '?' => return some (0, some 1)
  | '*' => return some (0, none)
  | '+' => return some (1, none)
  | _ =>
      if (← peek) = some (.plain '}') then return none
      let back := (← get).rest
      let low ← takeUpTo back.length isDecimal
      let high ← (do
        if (← accept ',') then takeUpTo back.length isDecimal else return low)
      if !(← accept '}') then
        moveTo back
        return none
      let least := valueIn 10 low
      if repeatLimit ≤ least then throw .tooLarge
      if high.isEmpty then return some (least, none)
      let most := valueIn 10 high
      if repeatLimit ≤ most then throw .tooLarge
      if most < least then refuseAt .reversedRepeat here
      return some (least, some most)

def isPatternBlank (c : Char) : Bool :=
  c == ' ' || (9 ≤ c.toNat && c.toNat ≤ 13)

def skipLine (fuel : Nat) : Reader Unit :=
  match fuel with
  | 0 => return ()
  | fuel + 1 => do
      match (← next) with
      | none => return ()
      | some t => if t = .plain '\n' then return () else skipLine fuel

-- An item of a sequence. A repeat and an anchor cannot be repeated.
inductive Item where
  | anchor (pattern : Pattern)
  | repeated (pattern : Pattern)
  | other (pattern : Pattern)

def Item.pattern : Item → Pattern
  | .anchor p | .repeated p | .other p => p

def Item.ofPattern : Pattern → Item
  | .anchor a => .anchor (.anchor a)
  | p => .other p

def sequenceOf (items : List Item) : Pattern :=
  items.foldr (fun i p => .sequence i.pattern p) .empty

def choiceOf : List Pattern → Pattern
  | [] => .empty
  | [p] => p
  | p :: rest => .choice p (choiceOf rest)

def greedSign : Reader Greed := do
  if (← accept '?') then return .lazy
  else if (← accept '+') then return .possessive
  else return .greedy

def expectClose (start : Nat) : Reader Unit := do
  if !(← accept ')') then refuseAt .unterminatedGroup start

mutual

-- The branches of a pattern or of a group. Only before the very first item of
-- all can switches for the whole pattern stand; `outermost` marks that level.
def branches (fuel : Nat) (verbose outermost : Bool) (earlier : List Pattern) : Reader Pattern :=
  match fuel with
  | 0 => refuse .unexpectedEnd 0
  | fuel + 1 => do
      let branch ← items fuel verbose (outermost && earlier.isEmpty) []
      let all := earlier ++ [sequenceOf branch]
      if (← accept '|') then
        let global := (← get).flags.contains .verbose
        branches fuel (if outermost then global else verbose) outermost all
      else return choiceOf all

def items (fuel : Nat) (verbose first : Bool) (earlier : List Item) : Reader (List Item) :=
  match fuel with
  | 0 => refuse .unexpectedEnd 0
  | fuel + 1 => do
      let start ← position
      match (← peek) with
      | none => return earlier
      | some (.plain '|') => return earlier
      | some (.plain ')') => return earlier
      | some token =>
          let _ ← next
          match token with
          | .escape c =>
              let p ← itemEscape c
              items fuel verbose first (earlier ++ [.ofPattern p])
          | .plain c =>
              if verbose && isPatternBlank c then items fuel verbose first earlier
              else if verbose && c = '#' then
                skipLine ((← get).rest.length + 1)
                items fuel verbose first earlier
              else if c = '[' then
                let negated ← accept '^'
                let members ← setItems start ((← get).rest.length + 1) []
                items fuel verbose first (earlier ++ [.other (setPattern members negated)])
              else if c = '.' then items fuel verbose first (earlier ++ [.other (.char .any)])
              else if c = '^' then
                items fuel verbose first (earlier ++ [.anchor (.anchor .lineStart)])
              else if c = '$' then
                items fuel verbose first (earlier ++ [.anchor (.anchor .lineEnd)])
              else if c = '*' ∨ c = '+' ∨ c = '?' ∨ c = '{' then
                match (← repeatCounts c (start + 1)) with
                | none =>
                    items fuel verbose first (earlier ++ [.other (.char (.code c.toNat false))])
                | some (least, most) =>
                    match earlier.getLast? with
                    | none => refuseAt .nothingToRepeat start
                    | some (.anchor _) => refuseAt .nothingToRepeat start
                    | some (.repeated _) => refuseAt .multipleRepeat start
                    | some (.other p) =>
                        let greed ← greedSign
                        items fuel verbose first
                          (earlier.dropLast ++ [.repeated (.repeated greed least most p)])
              else if c = '(' then
                match (← groupKind start) with
                | .comment => items fuel verbose first earlier
                | .reference p => items fuel verbose first (earlier ++ [.other p])
                | .whole on =>
                    modify fun s => { s with flags := s.flags ++ on }
                    if !first || !earlier.isEmpty then refuseAt .lateFlags start
                    let verbose := (← get).flags.contains .verbose
                    items fuel verbose first earlier
                | .look behind negated =>
                    let outer := (← get).lookbehindGroups
                    if behind && outer.isNone then
                      let count ← groupCount
                      modify fun s => { s with lookbehindGroups := some count }
                    let body ← branches fuel verbose false []
                    if behind then modify fun s => { s with lookbehindGroups := outer }
                    expectClose start
                    items fuel verbose first (earlier ++ [.other (.look behind negated body)])
                | .conditional =>
                    let name ← takeName ')' "group name"
                    let group ← conditionGroup name
                    checkLookbehind group
                    let present ← items fuel verbose false []
                    let absent ← (do
                      if (← accept '|') then
                        let branch ← items fuel verbose false []
                        if (← peek) = some (.plain '|') then refuse .tooManyBranches 0
                        return sequenceOf branch
                      else return .empty)
                    expectClose start
                    items fuel verbose first
                      (earlier ++ [.other (.conditional group (sequenceOf present) absent)])
                | .plain =>
                    let body ← branches fuel verbose false []
                    expectClose start
                    items fuel verbose first (earlier ++ [.other body])
                | .atomic =>
                    let body ← branches fuel verbose false []
                    expectClose start
                    items fuel verbose first (earlier ++ [.other (.atomic body)])
                | .switched on off =>
                    let inner := (verbose || on.contains .verbose) && !off.contains .verbose
                    let body ← branches fuel inner false []
                    expectClose start
                    items fuel verbose first (earlier ++ [.other (.switched on off body)])
                | .capturing name =>
                    let group ← openGroup name
                    let body ← branches fuel verbose false []
                    expectClose start
                    closeGroup group body.width
                    items fuel verbose first (earlier ++ [.other (.group group body)])
              else items fuel verbose first (earlier ++ [.other (.char (.code c.toNat false))])

end

structure Compiled where
  tree : Pattern
  flags : List Flag

-- The whole text is one pattern, its conditions ask for groups that exist, and
-- the tree passes `check`.
def readAll : Reader Compiled := do
  moveTo (← get).rest
  let tree ← branches (2 * (← get).total + 4) false true []
  let flags := (← get).flags
  if flags.contains .ascii && flags.contains .unicode then throw .twoAlphabets
  if (← peek).isSome then refuse .unbalanced 0
  let count ← groupCount
  match (← get).conditions.find? fun condition => count ≤ condition.1 with
  | some (index, place) => refuseAt (.badReference index) place
  | none =>
      let flags := if flags.contains .ascii then flags else .unicode :: flags
      match tree.check flags with
      | .error flaw => throw (.flawed flaw none)
      | .ok _ => return ⟨tree, flags⟩

def read (s : String) : Except Refusal Compiled :=
  let cs := s.toList
  (readAll.run ⟨cs.length, cs, [], [], [], none, []⟩).map (·.1)

end Tileboard.Pattern
