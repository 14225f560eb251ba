import Tileboard.Number.Binary64

namespace Tileboard.Binary64

-- The bits of a binary32 mantissa, its least exponent, and the power of two past
-- its greatest number.
def singleBits : Int := 24
def leastSingleExponent : Int := -149
def singleLimit : Nat := twoTo 128

def single : Binary64 → Binary64
  | .finite negative mantissa exponent h =>
      let width : Int := if mantissa = 0 then 0 else Nat.log2 mantissa + 1
      let unit := max (width + exponent - singleBits) leastSingleExponent
      let rounded :=
        if unit ≤ exponent then .finite negative mantissa exponent h
        else
          let coefficient := divideToEven mantissa (twoTo (unit - exponent).toNat)
          let (n, d) := if 0 ≤ unit then (coefficient * twoTo unit.toNat, 1)
            else (coefficient, twoTo (-unit).toNat)
          ofQuotient negative n d
      match rounded.toRat? with
      | some q => if q.num.natAbs < singleLimit * q.den then rounded else .infinite negative
      | none => rounded
  | x => x

end Tileboard.Binary64
