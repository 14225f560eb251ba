import Tileboard.Number.Basic
import Tileboard.Text.Digit
import Tileboard.Text.Trim
import Tileboard.Text.LetterCase

namespace Tileboard.Numeral

def digitsValue (ds : List Nat) : Nat := ds.foldl (fun n d => n * 10 + d) 0

def takeDigits : List Char → List Nat × List Char
  | [] => ([], [])
  | c :: rest =>
      match Text.digitValue? c with
      | some d =>
          let (ds, after) := takeDigits rest
          (d :: ds, after)
      | none => ([], c :: rest)

def takeSign : List Char → Bool × List Char
  | '+' :: rest => (false, rest)
  | '-' :: rest => (true, rest)
  | rest => (false, rest)

-- An exponent mark needs a digit behind its sign.
def takeExponent? : List Char → Option Int
  | [] => some 0
  | c :: rest =>
      if c = 'e' ∨ c = 'E' then
        let (negative, digits) := takeSign rest
        match takeDigits digits with
        | ([], _) => none
        | (ds, []) => some (if negative then -(digitsValue ds : Int) else digitsValue ds)
        | _ => none
      else none

-- Sign-free decimal: digits with at most one point, at least one digit, and an
-- optional exponent. The answer is a coefficient and a power of ten.
def decimal? (cs : List Char) : Option (Nat × Int) :=
  let (whole, afterWhole) := takeDigits cs
  let (fraction, rest) :=
    match afterWhole with
    | '.' :: r => takeDigits r
    | r => ([], r)
  if whole.isEmpty && fraction.isEmpty then none
  else (takeExponent? rest).map fun exponent =>
    (digitsValue (whole ++ fraction), exponent - fraction.length)

-- Low lines may stand between two digits and nowhere else; they do not count.
def withoutLowLines? : List Char → Option (List Char)
  | [] => some []
  | '_' :: _ => none
  | c :: '_' :: d :: rest =>
      if Text.isDigit c && Text.isDigit d then (withoutLowLines? (d :: rest)).map (c :: ·)
      else none
  | c :: rest => (withoutLowLines? rest).map (c :: ·)

def isInfinityWord (s : String) : Bool := s == "inf" || s == "infinity"

-- The information separators are blanks, but not around numbers.
def isBlankAroundNumber (c : Char) : Bool :=
  Text.isBlank c && !(0x1C ≤ c.toNat && c.toNat ≤ 0x1F)

def trimAroundNumber (cs : List Char) : List Char :=
  Text.dropEnd isBlankAroundNumber (cs.dropWhile isBlankAroundNumber)

-- ASCII letters in lower case; a word for infinity has no other letters.
def asciiLower (cs : List Char) : String := String.ofList (cs.map Char.toLower)

def binary64? (s : String) : Option Binary64 :=
  match withoutLowLines? (trimAroundNumber s.toList) with
  | none => none
  | some cs =>
      let (negative, magnitude) := takeSign cs
      let word := asciiLower magnitude
      if isInfinityWord word then some (.infinite negative)
      else if word == "nan" then some .nan
      else (decimal? magnitude).map fun (c, e) => Binary64.ofDecimal negative c e

end Tileboard.Numeral
