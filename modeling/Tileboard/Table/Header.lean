import Tileboard.Value.Equality
import Tileboard.Value.Rendering

namespace Tileboard.Header

abbrev Counts := List (Value × Nat)

def timesMet (counts : Counts) (name : Value) : Nat :=
  ((counts.find? fun entry => entry.1.equal name).map (·.2)).getD 0

def setCount (counts : Counts) (name : Value) (n : Nat) : Counts :=
  (name, n) :: counts.filter fun entry => !entry.1.equal name

def numbered (name : Value) (n : Nat) : Value := .text (name.asText ++ "." ++ toString n)

-- The first number from `n` on that makes a name not yet in the header. There are
-- more candidates than names.
def freeNumber (header : List Value) (name : Value) : Nat → Nat → Nat
  | 0, n => n
  | fuel + 1, n =>
      if header.any (numbered name n).equal then freeNumber header name fuel (n + 1) else n

def settleName (state : List Value × Counts) (i : Nat) : List Value × Counts :=
  let (header, counts) := state
  match header[i]? with
  | none => state
  | some name =>
      let met := timesMet counts name
      if met = 0 then (header, setCount counts name 1)
      else
        let n := freeNumber header name header.length met
        let fresh := numbered name n
        (header.set i fresh, setCount (setCount counts name (n + 1)) fresh 1)

def placeholder (i : Nat) : Value := .text ("Unnamed: " ++ toString i)

-- Given names go before those put in where there was none.
def names (given : List (Option Value)) : List String :=
  let positions := given.zipIdx
  let filled := positions.map fun (name, i) => name.getD (placeholder i)
  let named := (positions.filter fun p => p.1.isSome).map (·.2)
  let unnamed := (positions.filter fun p => p.1.isNone).map (·.2)
  ((named ++ unnamed).foldl settleName (filled, [])).1.map Value.asText

def missingTexts : List String := [
  "", "#N/A", "#N/A N/A", "#NA", "-1.#IND", "-1.#QNAN", "-NaN", "-nan", "1.#IND", "1.#QNAN",
  "<NA>", "N/A", "NA", "NULL", "NaN", "None", "n/a", "nan", "null"]

end Tileboard.Header
