import Tileboard.Value.Basic
import Tileboard.Number.Numeral

namespace Tileboard.Json

structure NumberTokens where
  negative : Bool
  whole : List Nat
  fraction : Option (List Nat)
  exponent : Option Int

-- Tokens with a point or an exponent are binary64 numbers, all others integers.
def NumberTokens.toNumber (t : NumberTokens) : Number :=
  match t.fraction, t.exponent with
  | none, none =>
      let n : Int := Numeral.digitsValue t.whole
      .int (if t.negative then -n else n)
  | fraction, exponent =>
      let digits := fraction.getD []
      .real (.ofDecimal t.negative (Numeral.digitsValue (t.whole ++ digits))
        (exponent.getD 0 - digits.length))

def skipBlanks (cs : List Char) : List Char :=
  cs.dropWhile fun c => c == ' ' || c == '\t' || c == '\n' || c == '\r'

def asciiDigit? (c : Char) : Option Nat :=
  if '0' ≤ c ∧ c ≤ '9' then some (c.toNat - 48) else none

def takeAsciiDigits : List Char → List Nat × List Char
  | [] => ([], [])
  | c :: rest =>
      match asciiDigit? c with
      | some d =>
          let (ds, after) := takeAsciiDigits rest
          (d :: ds, after)
      | none => ([], c :: rest)

-- A point belongs to the number only with a digit behind it, and an exponent
-- mark only with a digit behind its sign.
def takeFraction (cs : List Char) : Option (List Nat) × List Char :=
  match cs with
  | '.' :: rest =>
      match takeAsciiDigits rest with
      | ([], _) => (none, cs)
      | (ds, after) => (some ds, after)
  | _ => (none, cs)

def takeExponent (cs : List Char) : Option Int × List Char :=
  match cs with
  | c :: rest =>
      if c = 'e' ∨ c = 'E' then
        let (negative, digits) := Numeral.takeSign rest
        match takeAsciiDigits digits with
        | ([], _) => (none, cs)
        | (ds, after) =>
            (some (if negative then -(Numeral.digitsValue ds : Int) else Numeral.digitsValue ds),
              after)
      else (none, cs)
  | [] => (none, cs)

def takeNumber? (cs : List Char) : Option (NumberTokens × List Char) :=
  let (negative, digits) := match cs with
    | '-' :: rest => (true, rest)
    | _ => (false, cs)
  let (whole, afterWhole) := match digits with
    | '0' :: rest => ([0], rest)
    | _ => takeAsciiDigits digits
  if whole.isEmpty then none
  else
    let (fraction, afterFraction) := takeFraction afterWhole
    let (exponent, rest) := takeExponent afterFraction
    some (⟨negative, whole, fraction, exponent⟩, rest)

def hexDigit? (c : Char) : Option Nat :=
  if '0' ≤ c ∧ c ≤ '9' then some (c.toNat - 48)
  else if 'a' ≤ c ∧ c ≤ 'f' then some (c.toNat - 87)
  else if 'A' ≤ c ∧ c ≤ 'F' then some (c.toNat - 55)
  else none

def hex4? (a b c d : Char) : Option Nat := do
  let a ← hexDigit? a
  let b ← hexDigit? b
  let c ← hexDigit? c
  let d ← hexDigit? d
  some (((a * 16 + b) * 16 + c) * 16 + d)

def escaped? (c : Char) : Option Char :=
  match c with
  | '"' => some '"'
  | '\\' => some '\\'
  | '/' => some '/'
  | 'b' => some (Char.ofNat 8)
  | 'f' => some (Char.ofNat 12)
  | 'n' => some '\n'
  | 'r' => some '\r'
  | 't' => some '\t'
  | _ => none

-- The characters of a text up to its closing quote. Two escaped surrogates in a
-- row are one character. Control characters have to be escaped, unless the dialect
-- allows them as they are.
def takeText? (controls : Bool) : List Char → Option (List Char × List Char)
  | [] => none
  | '"' :: rest => some ([], rest)
  | '\\' :: 'u' :: a :: b :: c :: d :: '\\' :: 'u' :: e :: f :: g :: h :: rest =>
      match hex4? a b c d, hex4? e f g h with
      | some high, some low =>
          if 0xD800 ≤ high ∧ high < 0xDC00 ∧ 0xDC00 ≤ low ∧ low < 0xE000 then
            (takeText? controls rest).map fun (cs, after) =>
              (Char.ofNat (0x10000 + (high - 0xD800) * 0x400 + (low - 0xDC00)) :: cs, after)
          else
            (takeText? controls ('\\' :: 'u' :: e :: f :: g :: h :: rest)).map fun (cs, after) =>
              (Char.ofNat high :: cs, after)
      | some high, none =>
          (takeText? controls ('\\' :: 'u' :: e :: f :: g :: h :: rest)).map fun (cs, after) =>
            (Char.ofNat high :: cs, after)
      | none, _ => none
  | '\\' :: 'u' :: a :: b :: c :: d :: rest =>
      match hex4? a b c d with
      | some n => (takeText? controls rest).map fun (cs, after) => (Char.ofNat n :: cs, after)
      | none => none
  | '\\' :: c :: rest =>
      match escaped? c with
      | some e => (takeText? controls rest).map fun (cs, after) => (e :: cs, after)
      | none => none
  | c :: rest =>
      if c.toNat < 0x20 ∧ !controls then none
      else (takeText? controls rest).map fun (cs, after) => (c :: cs, after)

def dropWord? (word : String) (cs : List Char) : Option (List Char) :=
  if word.toList.isPrefixOf cs then some (cs.drop word.length) else none

def words : List (String × Value) :=
  [("null", .null), ("true", .bool true), ("false", .bool false), ("NaN", .real .nan),
    ("Infinity", .real (.infinite false)), ("-Infinity", .real (.infinite true))]

def takeWord? (cs : List Char) : Option (Value × List Char) :=
  words.findSome? fun (word, value) => (dropWord? word cs).map fun rest => (value, rest)

-- A dialect of JSON: how words and numbers are read, whether texts may hold control
-- characters, and whether a comma may follow the last field of an object.
structure Dialect where
  scalar? : List Char → Option (Value × List Char)
  controls : Bool
  lastComma : Bool

def Dialect.standard : Dialect where
  scalar? cs :=
    match takeWord? cs with
    | some answer => some answer
    | none => (takeNumber? cs).map fun (t, after) => (.number t.toNumber, after)
  controls := false
  lastComma := false

mutual

-- One value at the head of a text. Each level of nesting, item and field takes
-- at least one character, so the length of the text bounds the depth.
def takeValue? (dialect : Dialect) (fuel : Nat) (cs : List Char) : Option (Value × List Char) :=
  match fuel with
  | 0 => none
  | fuel + 1 =>
      match cs with
      | '"' :: rest =>
          (takeText? dialect.controls rest).map fun (t, after) => (.text (String.ofList t), after)
      | '[' :: rest =>
          match skipBlanks rest with
          | ']' :: after => some (.list [], after)
          | start => (takeItems? dialect fuel start).map fun (items, after) => (.list items, after)
      | '{' :: rest =>
          match skipBlanks rest with
          | '}' :: after => some (.object [], after)
          | start =>
              (takeFields? dialect fuel [] start).map fun (fields, after) => (.object fields, after)
      | _ => dialect.scalar? cs

def takeItems? (dialect : Dialect) (fuel : Nat) (cs : List Char) : Option (List Value × List Char) :=
  match fuel with
  | 0 => none
  | fuel + 1 =>
      match takeValue? dialect fuel cs with
      | none => none
      | some (v, after) =>
          match skipBlanks after with
          | ']' :: rest => some ([v], rest)
          | ',' :: rest =>
              (takeItems? dialect fuel (skipBlanks rest)).map fun (items, last) => (v :: items, last)
          | _ => none

-- A name given twice keeps its first position and its last value.
def takeFields? (dialect : Dialect) (fuel : Nat) (fields : List (String × Value)) (cs : List Char) :
    Option (List (String × Value) × List Char) :=
  match fuel with
  | 0 => none
  | fuel + 1 =>
      match cs with
      | '"' :: rest =>
          match takeText? dialect.controls rest with
          | none => none
          | some (name, afterName) =>
              match skipBlanks afterName with
              | ':' :: start =>
                  match takeValue? dialect fuel (skipBlanks start) with
                  | none => none
                  | some (v, after) =>
                      let fields := putField fields (String.ofList name) v
                      match skipBlanks after with
                      | '}' :: last => some (fields, last)
                      | ',' :: more =>
                          match dialect.lastComma, skipBlanks more with
                          | true, '}' :: last => some (fields, last)
                          | _, start => takeFields? dialect fuel fields start
                      | _ => none
              | _ => none
      | _ => none

end

def readAs? (dialect : Dialect) (s : String) : Option Value :=
  let cs := skipBlanks s.toList
  match takeValue? dialect (2 * cs.length + 2) cs with
  | some (v, rest) => if (skipBlanks rest).isEmpty then some v else none
  | none => none

def read? (s : String) : Option Value := readAs? .standard s

end Tileboard.Json
