namespace Tileboard

def twoTo (exponent : Nat) : Nat := Nat.pow 2 exponent

def tenTo (exponent : Nat) : Nat := Nat.pow 10 exponent

-- Two to the power of 63: signed integers of 64 bits lie under it, and not under
-- its opposite.
def int64Bound : Nat := 9223372036854775808

-- Two to the power of 64: unsigned integers of 64 bits lie under it.
def uint64Bound : Nat := 18446744073709551616

end Tileboard
