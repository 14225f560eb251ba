import Tileboard.Pattern.Token

namespace Tileboard.Pattern

open Reader

def isDecimal (c : Char) : Bool := '0' ≤ c && c ≤ '9'
def isOctal (c : Char) : Bool := '0' ≤ c && c ≤ '7'
def isAsciiLetter (c : Char) : Bool := ('a' ≤ c && c ≤ 'z') || ('A' ≤ c && c ≤ 'Z')

def hexValue? (c : Char) : Option Nat :=
  if isDecimal c then some (c.toNat - 48)
  else if 'a' ≤ c ∧ c ≤ 'f' then some (c.toNat - 87)
  else if 'A' ≤ c ∧ c ≤ 'F' then some (c.toNat - 55)
  else none

def valueIn (base : Nat) (cs : List Char) : Nat :=
  cs.foldl (fun n c => n * base + (hexValue? c).getD 0) 0

def controlEscape? (c : Char) : Option Nat :=
  match c with
  | 'a' => some 7
  | 'b' => some 8
  | 'f' => some 12
  | 'n' => some 10
  | 'r' => some 13
  | 't' => some 9
  | 'v' => some 11
  | '\\' => some 92
  | _ => none

def classEscape? (c : Char) : Option (CharClass × Bool) :=
  match c with
  | 'd' => some (.digit, false)
  | 'D' => some (.digit, true)
  | 's' => some (.space, false)
  | 'S' => some (.space, true)
  | 'w' => some (.word, false)
  | 'W' => some (.word, true)
  | _ => none

def anchorEscape? (c : Char) : Option Anchor :=
  match c with
  | 'A' => some .textStart
  | 'b' => some .boundary
  | 'B' => some .notBoundary
  | 'Z' => some .textEnd
  | _ => none

-- Integers that name a code point stay under this limit, whether or not there is
-- such a code point.
def signedLimit : Nat := 2147483648

def hexEscape (c : Char) (count : Nat) : Reader Nat := do
  let digits ← takeUpTo count fun d => (hexValue? d).isSome
  let escape := String.ofList ('\\' :: c :: digits)
  if digits.length < count then refuse (.incompleteEscape escape) (digits.length + 2)
  let value := valueIn 16 digits
  if signedLimit ≤ value then throw .tooLarge
  if 0x10FFFF < value then refuse (.badEscape escape) (digits.length + 2)
  return value

-- A code point by at most three octal digits, the first of them taken already.
def octalEscape (first : Char) : Reader Nat := do
  let more ← takeUpTo 2 isOctal
  let digits := first :: more
  let value := valueIn 8 digits
  if 0o377 < value then
    refuse (.octalTooGreat (String.ofList ('\\' :: digits))) (digits.length + 1)
  return value

def codeEscape? (c : Char) : Reader (Option Nat) := do
  match c with
  | 'x' => return some (← hexEscape c 2)
  | 'u' => return some (← hexEscape c 4)
  | 'U' => return some (← hexEscape c 8)
  | 'N' =>
      if !(← accept '{') then refuse (.missing "\x7b") 0
      let name ← takeName '}' "character name"
      refuse (.undefinedCharacter name) (name.length + 4)
  | _ => return none

-- A letter has to mean something behind a backslash; other characters stand for
-- themselves there.
def selfEscape (c : Char) : Reader Nat := do
  if isAsciiLetter c then refuse (.badEscape (Token.escape c).text) 2
  return c.toNat

def setEscape (c : Char) : Reader SetItem := do
  match controlEscape? c, classEscape? c with
  | some code, _ => return .code code
  | none, some (kind, negated) => return .charClass kind negated
  | none, none =>
      match (← codeEscape? c) with
      | some code => return .code code
      | none =>
          if isOctal c then return .code (← octalEscape c)
          else if isDecimal c then refuse (.badEscape (Token.escape c).text) 2
          else return .code (← selfEscape c)

def referenceTo (group : Nat) (escape : List Char) : Reader Pattern := do
  if group < (← groupCount) then
    match (← groupWidth? group) with
    | none => refuse .openGroup escape.length
    | some w =>
        checkLookbehind group
        return .reference group w
  else refuse (.badReference group) (escape.length - 1)

-- Three octal digits are a character; otherwise one or two digits name a group.
def digitEscape (c : Char) : Reader Pattern := do
  match (← peek) with
  | some (.plain d) =>
      if isDecimal d then
        let _ ← next
        if isOctal c && isOctal d then
          match (← peek) with
          | some (.plain e) =>
              if isOctal e then
                let _ ← next
                let value := valueIn 8 [c, d, e]
                if 0o377 < value then
                  refuse (.octalTooGreat (String.ofList ['\\', c, d, e])) 4
                return .char (.code value false)
              else referenceTo (valueIn 10 [c, d]) ['\\', c, d]
          | _ => referenceTo (valueIn 10 [c, d]) ['\\', c, d]
        else referenceTo (valueIn 10 [c, d]) ['\\', c, d]
      else referenceTo (valueIn 10 [c]) ['\\', c]
  | _ => referenceTo (valueIn 10 [c]) ['\\', c]

def itemEscape (c : Char) : Reader Pattern := do
  match anchorEscape? c, classEscape? c, controlEscape? c with
  | some place, _, _ => return .anchor place
  | none, some (kind, negated), _ => return .char (.set [.charClass kind negated] false)
  | none, none, some code => return .char (.code code false)
  | none, none, none =>
      match (← codeEscape? c) with
      | some code => return .char (.code code false)
      | none =>
          if c = '0' then
            let more ← takeUpTo 2 isOctal
            return .char (.code (valueIn 8 more) false)
          else if isDecimal c then digitEscape c
          else return .char (.code (← selfEscape c) false)

def setMember (token : Token) : Reader SetItem :=
  match token with
  | .escape c => setEscape c
  | .plain c => return .code c.toNat

-- The members of a set up to its closing bracket, which is an ordinary member in
-- first place. `start` is the position of the opening bracket.
def setItems (start fuel : Nat) (items : List SetItem) : Reader (List SetItem) :=
  match fuel with
  | 0 => refuseAt .unterminatedSet start
  | fuel + 1 => do
      match (← next) with
      | none => refuseAt .unterminatedSet start
      | some first =>
          if first = .plain ']' ∧ !items.isEmpty then return items
          let left ← setMember first
          if !(← accept '-') then setItems start fuel (items ++ [left])
          else
            match (← next) with
            | none => refuseAt .unterminatedSet start
            | some last =>
                if last = .plain ']' then return items ++ [left, .code '-'.toNat]
                let right ← setMember last
                let bad : Reader (List SetItem) :=
                  refuse (.badRange first.text last.text) (first.length + 1 + last.length)
                match left, right with
                | .code lo, .code hi =>
                    if hi < lo then bad else setItems start fuel (items ++ [.range lo hi])
                | _, _ => bad

def setPattern (items : List SetItem) (negated : Bool) : Pattern :=
  match items.eraseDups with
  | [.code point] => .char (.code point negated)
  | distinct => .char (.set distinct negated)

end Tileboard.Pattern
