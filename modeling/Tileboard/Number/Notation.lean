import Tileboard.Number.Basic
import Tileboard.Number.Shortest

namespace Tileboard

-- The layout of a decimal: which positions of the point are written without an
-- exponent, and how many digits an exponent has at least. The position counts
-- from the first digit: 1 for 5.25, 0 for 0.525, -1 for 0.0525.
structure DecimalLayout where
  leastPoint : Int
  greatestPoint : Int
  exponentWidth : Nat

namespace DecimalLayout

-- Numbers from 0.0001 to under 10 ^ 16 are written out; the others have an
-- exponent of two digits or more.
def standard : DecimalLayout := ⟨-3, 16, 2⟩

private def zeros (n : Nat) : String := String.ofList (List.replicate n '0')

private def exponentText (layout : DecimalLayout) (exponent : Int) : String :=
  let digits := toString exponent.natAbs
  (if exponent < 0 then "e-" else "e+") ++ zeros (layout.exponentWidth - digits.length) ++ digits

-- A whole value keeps the fraction `.0`, so that it does not read as an integer.
def render (layout : DecimalLayout) (coefficient : Nat) (exponent : Int) : String :=
  let digits := Nat.toDigits 10 coefficient
  let count : Int := digits.length
  let point : Int := count + exponent
  if coefficient = 0 then "0.0"
  else if layout.leastPoint ≤ point ∧ point ≤ layout.greatestPoint then
    if point ≤ 0 then "0." ++ zeros (-point).toNat ++ String.ofList digits
    else if count ≤ point then String.ofList digits ++ zeros (point - count).toNat ++ ".0"
    else String.ofList (digits.take point.toNat) ++ "." ++ String.ofList (digits.drop point.toNat)
  else
    let rest := digits.drop 1
    String.ofList (digits.take 1) ++ (if rest.isEmpty then "" else "." ++ String.ofList rest) ++
      exponentText layout (point - 1)

end DecimalLayout

namespace Binary64

def text : Binary64 → String
  | .nan => "nan"
  | .infinite negative => if negative then "-inf" else "inf"
  | .finite negative mantissa exponent _ =>
      let (c, e) := shortest mantissa exponent
      (if negative then "-" else "") ++ DecimalLayout.standard.render c e

-- The exact value with one decimal, a tie to the even digit.
def oneDecimalText : Binary64 → String
  | .nan => "nan"
  | .infinite negative => if negative then "-inf" else "inf"
  | .finite negative mantissa exponent _ =>
      let q := magnitude mantissa exponent
      let tenthsOfIt := divideToEven (q.num.natAbs * 10) q.den
      (if negative then "-" else "") ++ toString (tenthsOfIt / 10) ++ "." ++
        toString (tenthsOfIt % 10)

end Binary64

namespace Number

def text : Number → String
  | .int value => toString value
  | .real value => value.text

def plainText : Number → String
  | .int value => toString value
  | .real value =>
      match value.toInt? with
      | some n => toString n
      | none => value.text

end Number

end Tileboard
