import Tileboard.Text.Quoted

namespace Tileboard.Pattern

inductive Flaw where
  -- escapes
  | escapeAtEnd
  | badEscape (escape : String)
  | incompleteEscape (escape : String)
  | octalTooGreat (escape : String)
  | undefinedCharacter (name : String)
  -- names and groups
  | missing (what : String)
  | unterminatedName (terminator : Char)
  | badGroupName (name : String)
  | unknownGroupName (name : String)
  | redefinedGroup (name : String) (group previous : Nat)
  | badGroupNumber
  | badReference (group : Nat)
  | openGroup
  | sameLookbehind
  | unterminatedGroup
  | unterminatedComment
  | unknownExtension (mark : String)
  | unexpectedEnd
  | tooManyBranches
  | unbalanced
  -- sets
  | unterminatedSet
  | badRange (first last : String)
  -- repeats
  | nothingToRepeat
  | multipleRepeat
  | reversedRepeat
  -- flags
  | lateFlags
  | unknownFlag
  | localeFlag
  | clashingFlags
  | globalFlagOn
  | globalFlagOff
  | typeFlagOff
  | flagOnAndOff
  | templateRepeat (kind : String)
  -- looking behind
  | variableLookbehind
  | longLookbehind
  deriving DecidableEq

def Flaw.message : Flaw → String
  | .escapeAtEnd => "bad escape (end of pattern)"
  | .badEscape escape => "bad escape " ++ escape
  | .incompleteEscape escape => "incomplete escape " ++ escape
  | .octalTooGreat escape => "octal escape value " ++ escape ++ " outside of range 0-0o377"
  | .undefinedCharacter name => "undefined character name " ++ Text.quoted name
  | .missing what => "missing " ++ what
  | .unterminatedName terminator =>
      "missing " ++ String.ofList [terminator] ++ ", unterminated name"
  | .badGroupName name => "bad character in group name " ++ Text.quoted name
  | .unknownGroupName name => "unknown group name " ++ Text.quoted name
  | .redefinedGroup name group previous =>
      "redefinition of group name " ++ Text.quoted name ++ " as group " ++ toString group ++
        "; was group " ++ toString previous
  | .badGroupNumber => "bad group number"
  | .badReference group => "invalid group reference " ++ toString group
  | .openGroup => "cannot refer to an open group"
  | .sameLookbehind => "cannot refer to group defined in the same lookbehind subpattern"
  | .unterminatedGroup => "missing ), unterminated subpattern"
  | .unterminatedComment => "missing ), unterminated comment"
  | .unknownExtension mark => "unknown extension " ++ mark
  | .unexpectedEnd => "unexpected end of pattern"
  | .tooManyBranches => "conditional backref with more than two branches"
  | .unbalanced => "unbalanced parenthesis"
  | .unterminatedSet => "unterminated character set"
  | .badRange first last => "bad character range " ++ first ++ "-" ++ last
  | .nothingToRepeat => "nothing to repeat"
  | .multipleRepeat => "multiple repeat"
  | .reversedRepeat => "min repeat greater than max repeat"
  | .lateFlags => "global flags not at the start of the expression"
  | .unknownFlag => "unknown flag"
  | .localeFlag => "bad inline flags: cannot use 'L' flag with a str pattern"
  | .clashingFlags => "bad inline flags: flags 'a', 'u' and 'L' are incompatible"
  | .globalFlagOn => "bad inline flags: cannot turn on global flag"
  | .globalFlagOff => "bad inline flags: cannot turn off global flag"
  | .typeFlagOff => "bad inline flags: cannot turn off flags 'a', 'u' and 'L'"
  | .flagOnAndOff => "bad inline flags: flag turned on and off"
  | .templateRepeat kind => "internal: unsupported template operator " ++ kind
  | .variableLookbehind => "look-behind requires fixed-width pattern"
  | .longLookbehind => "looks too much behind"

-- Why a text is no pattern: a flaw, most often at a position; a repeat count past
-- the limit; or a claim to be both ASCII and Unicode.
inductive Refusal where
  | flawed (flaw : Flaw) (position : Option Nat)
  | tooLarge
  | twoAlphabets
  deriving DecidableEq

-- The flaw and its place. In a pattern of several lines the place is also given
-- by line and column, both counted from 1.
def flawText (pattern : String) (flaw : Flaw) (position : Option Nat) : String :=
  match position with
  | none => flaw.message
  | some p =>
      let before := pattern.toList.take p
      let line := before.count '\n' + 1
      let column := (before.reverse.takeWhile (· ≠ '\n')).length + 1
      flaw.message ++ " at position " ++ toString p ++
        (if pattern.toList.contains '\n' then
          " (line " ++ toString line ++ ", column " ++ toString column ++ ")"
        else "")

end Tileboard.Pattern
