import Tileboard.Number.Binary64

namespace Tileboard.Statistics

def zeroSum : Binary64 := Binary64.zero false

def sumFrom (start : Binary64) (xs : List Binary64) : Binary64 := xs.foldl Binary64.add start

-- Eight running sums over full blocks of eight, combined pairwise.
structure Lanes where
  lane0 : Binary64
  lane1 : Binary64
  lane2 : Binary64
  lane3 : Binary64
  lane4 : Binary64
  lane5 : Binary64
  lane6 : Binary64
  lane7 : Binary64

namespace Lanes

def total (l : Lanes) : Binary64 :=
  ((l.lane0.add l.lane1).add (l.lane2.add l.lane3)).add
    ((l.lane4.add l.lane5).add (l.lane6.add l.lane7))

def run (l : Lanes) : List Binary64 → Binary64
  | a :: b :: c :: d :: e :: f :: g :: h :: rest =>
      run ⟨l.lane0.add a, l.lane1.add b, l.lane2.add c, l.lane3.add d,
        l.lane4.add e, l.lane5.add f, l.lane6.add g, l.lane7.add h⟩ rest
  | rest => sumFrom l.total rest

end Lanes

def blockSum : List Binary64 → Binary64
  | a :: b :: c :: d :: e :: f :: g :: h :: rest => Lanes.run ⟨a, b, c, d, e, f, g, h⟩ rest
  | xs => sumFrom zeroSum xs

-- The length of the first part of a longer list: half, cut to a multiple of 8.
def splitAt (n : Nat) : Nat := n / 2 - n / 2 % 8

theorem splitAt_pos {n : Nat} (h : 128 < n) : 0 < splitAt n := by
  unfold splitAt; omega

theorem splitAt_lt {n : Nat} (h : 128 < n) : splitAt n < n := by
  unfold splitAt; omega

def pairwiseSum (xs : List Binary64) : Binary64 :=
  if h : 128 < xs.length then
    have := splitAt_pos h
    have := splitAt_lt h
    (pairwiseSum (xs.take (splitAt xs.length))).add (pairwiseSum (xs.drop (splitAt xs.length)))
  else blockSum xs
termination_by xs.length
decreasing_by
  all_goals simp only [List.length_take, List.length_drop]; omega

-- Nothing but negative zeros still sums to the positive zero.
def sum (xs : List Binary64) : Binary64 := zeroSum.add (pairwiseSum xs)

def mean (xs : List Binary64) : Binary64 := (sum xs).div (Binary64.ofInt xs.length)

def below (x y : Binary64) : Bool :=
  match x, y with
  | .nan, _ => false
  | _, .nan => false
  | .infinite a, .infinite b => a && !b
  | .infinite a, _ => a
  | _, .infinite b => !b
  | x, y => x.toRat?.getD 0 < y.toRat?.getD 0

-- The least number; NaN beside anything else wins, and of equal ones the last.
def least (x : Binary64) (xs : List Binary64) : Binary64 :=
  xs.foldl (fun best y => if best.isNan || below best y then best else y) x

def greatest (x : Binary64) (xs : List Binary64) : Binary64 :=
  xs.foldl (fun best y => if best.isNan || below y best then best else y) x

-- The mean of the one or two middle numbers; NaN if there is one in the list.
def median (xs : List Binary64) : Binary64 :=
  if xs.any Binary64.isNan then .nan
  else
    let sorted := xs.mergeSort fun x y => !below y x
    let middle := sorted.length / 2
    if sorted.length % 2 = 1 then mean ((sorted.drop middle).take 1)
    else mean ((sorted.drop (middle - 1)).take 2)

end Tileboard.Statistics
