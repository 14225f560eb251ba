import Tileboard.Pattern.Escape
import Tileboard.Text.Identifier
import Tileboard.Text.Letter
import Tileboard.Number.Numeral

namespace Tileboard.Pattern

open Reader

def flagOf? (c : Char) : Option Flag :=
  match c with
  | 'i' => some .ignoreCase
  | 'm' => some .multiline
  | 's' => some .dotAll
  | 'x' => some .verbose
  | 'a' => some .ascii
  | 'u' => some .unicode
  | 't' => some .template
  | _ => none

def isFlagLetter (c : Char) : Bool := (flagOf? c).isSome || c == 'L'

def Token.isLetter : Token → Bool
  | .plain c => Text.isLetter c
  | .escape _ => false

def isAlphabet (f : Flag) : Bool := f == .ascii || f == .unicode

def switchesOn (fuel : Nat) (c : Char) (on : List Flag) : Reader (List Flag × Char) :=
  match fuel with
  | 0 => refuse (.missing "-, : or )") 0
  | fuel + 1 => do
      match flagOf? c with
      | none => refuse .localeFlag 0
      | some flag =>
          let on := if on.contains flag then on else on ++ [flag]
          if isAlphabet flag && on.any fun f => isAlphabet f && f != flag then
            refuse .clashingFlags 0
          match (← next) with
          | none => refuse (.missing "-, : or )") 0
          | some (.plain d) =>
              if d = ')' ∨ d = '-' ∨ d = ':' then return (on, d)
              else if isFlagLetter d then switchesOn fuel d on
              else refuse (if Text.isLetter d then .unknownFlag else .missing "-, : or )") 1
          | some (.escape _) => refuse (.missing "-, : or )") 2

def switchesOff (fuel : Nat) (c : Char) (off : List Flag) : Reader (List Flag) :=
  match fuel with
  | 0 => refuse (.missing ":") 0
  | fuel + 1 => do
      match flagOf? c with
      | none => refuse .typeFlagOff 0
      | some flag =>
          if isAlphabet flag then refuse .typeFlagOff 0
          let off := if off.contains flag then off else off ++ [flag]
          match (← next) with
          | none => refuse (.missing ":") 0
          | some (.plain d) =>
              if d = ':' then return off
              else if isFlagLetter d then switchesOff fuel d off
              else refuse (if Text.isLetter d then .unknownFlag else .missing ":") 1
          | some (.escape _) => refuse (.missing ":") 2

inductive Switches where
  | whole (on : List Flag)
  | group (on off : List Flag)

def switches (c : Char) : Reader Switches := do
  let fuel := (← get).rest.length + 1
  let (on, sign) ← (do
    if c = '-' then return ([], c) else switchesOn fuel c [])
  if sign = ')' then return .whole on
  if on.contains .template then refuse .globalFlagOn 1
  let off ← (do
    if sign = '-' then
      match (← next) with
      | none => refuse (.missing "flag") 0
      | some (.plain d) =>
          if isFlagLetter d then switchesOff fuel d []
          else refuse (if Text.isLetter d then .unknownFlag else .missing "flag") 1
      | some (.escape _) => refuse (.missing "flag") 2
    else return [])
  if off.contains .template then refuse .globalFlagOff 1
  if on.any off.contains then refuse .flagOnAndOff 1
  return .group on off

def openGroup (name : Option String) : Reader Nat := do
  let group ← groupCount
  modify fun s => { s with widths := s.widths ++ [none] }
  match name with
  | none => return group
  | some n =>
      match (← get).names.lookup n with
      | some previous => refuse (.redefinedGroup n group previous) (n.length + 1)
      | none =>
          modify fun s => { s with names := s.names ++ [(n, group)] }
          return group

def closeGroup (group : Nat) (width : Width) : Reader Unit :=
  modify fun s => { s with widths := s.widths.set (group - 1) (some width) }

def groupNumber? (name : String) : Option Int :=
  match Numeral.withoutLowLines? (Numeral.trimAroundNumber name.toList) with
  | none => none
  | some cs =>
      let (negative, digits) := Numeral.takeSign cs
      match Numeral.takeDigits digits with
      | ([], _) => none
      | (ds, []) =>
          let n : Int := Numeral.digitsValue ds
          some (if negative then -n else n)
      | _ => none

def groupLimit : Nat := 1073741823

-- The group that a condition asks for. Groups given by number may come later;
-- the place is kept for the check at the end.
def conditionGroup (name : String) : Reader Nat := do
  let back := name.length + 1
  if Text.isIdentifier name then
    match (← get).names.lookup name with
    | some index => return index
    | none => refuse (.unknownGroupName name) back
  else
    match groupNumber? name with
    | none => refuse (.badGroupName name) back
    | some n =>
        if n < 0 then refuse (.badGroupName name) back
        if n = 0 then refuse .badGroupNumber back
        let group := n.toNat
        if groupLimit ≤ group then refuse (.badReference group) back
        let place := (← position) - back
        modify fun s =>
          if s.conditions.any (·.1 == group) then s
          else { s with conditions := s.conditions ++ [(group, place)] }
        return group

def checkName (name : String) : Reader Unit := do
  if !Text.isIdentifier name then refuse (.badGroupName name) (name.length + 1)

inductive GroupKind where
  | capturing (name : Option String)
  | plain
  | atomic
  | switched (on off : List Flag)
  | look (behind negated : Bool)
  | conditional
  | reference (pattern : Pattern)
  | comment
  | whole (on : List Flag)

def skipComment (start fuel : Nat) : Reader Unit :=
  match fuel with
  | 0 => refuseAt .unterminatedComment start
  | fuel + 1 => do
      match (← next) with
      | none => refuseAt .unterminatedComment start
      | some t => if t = .plain ')' then return () else skipComment start fuel

def namedReference : Reader Pattern := do
  let name ← takeName ')' "group name"
  checkName name
  match (← get).names.lookup name with
  | none => refuse (.unknownGroupName name) (name.length + 1)
  | some index =>
      match (← groupWidth? index) with
      | none => refuse .openGroup (name.length + 1)
      | some w =>
          checkLookbehind index
          return .reference index w

def groupKind (start : Nat) : Reader GroupKind := do
  if !(← accept '?') then return .capturing none
  match (← next) with
  | none => refuse .unexpectedEnd 0
  | some (.escape c) => refuse (.unknownExtension ("?" ++ (Token.escape c).text)) 3
  | some (.plain c) =>
      match c with
      | 'P' =>
          if (← accept '<') then
            let name ← takeName '>' "group name"
            checkName name
            return .capturing (some name)
          else if (← accept '=') then return .reference (← namedReference)
          else
            match (← next) with
            | none => refuse .unexpectedEnd 0
            | some t => refuse (.unknownExtension ("?P" ++ t.text)) (t.length + 2)
      | ':' => return .plain
      | '#' =>
          skipComment start ((← get).rest.length + 1)
          return .comment
      | '=' => return .look false false
      | '!' => return .look false true
      | '<' =>
          match (← next) with
          | none => refuse .unexpectedEnd 0
          | some (.plain '=') => return .look true false
          | some (.plain '!') => return .look true true
          | some t => refuse (.unknownExtension ("?<" ++ t.text)) (t.length + 2)
      | '(' => return .conditional
      | '>' => return .atomic
      | _ =>
          if isFlagLetter c || c = '-' then
            match (← switches c) with
            | .whole on => return .whole on
            | .group on off => return .switched on off
          else refuse (.unknownExtension (String.ofList ['?', c])) 2

end Tileboard.Pattern
