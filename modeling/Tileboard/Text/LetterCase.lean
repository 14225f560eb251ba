import Tileboard.Text.LowerTable
import Tileboard.Text.Trim

namespace Tileboard.Text

def CaseRun.holds (run : CaseRun) (c : Char) : Bool :=
  run.first ≤ c.toNat && c.toNat ≤ run.last && (c.toNat - run.first) % run.stride == 0

-- The lower-case form that is one character. A character without one stands for
-- itself.
def lowerSimple (c : Char) : Char :=
  match caseRuns.find? (·.holds c) with
  | some run => Char.ofNat (c.toNat + run.shift).toNat
  | none => c

-- The lower-case form of a character apart from its neighbours. Only the dotted
-- capital I has a longer one: its dot stays as a mark.
def lowerChar (c : Char) : List Char :=
  if c.toNat = 0x130 then ['i', Char.ofNat 0x307] else [lowerSimple c]

def capitalSigma : Char := Char.ofNat 0x3A3
def smallSigma : Char := Char.ofNat 0x3C3
def finalSigma : Char := Char.ofNat 0x3C2

def startsCased (cs : List Char) : Bool :=
  match cs.dropWhile isCaseIgnorable with
  | c :: _ => isCased c
  | [] => false

-- `cased` tells whether the last character before that is not skipped is cased.
-- A sigma at the end of a word, after a cased character and before none, has a
-- form of its own.
def lowerFrom (cased : Bool) : List Char → List Char
  | [] => []
  | c :: rest =>
      let here :=
        if c = capitalSigma then
          [if cased && !startsCased rest then finalSigma else smallSigma]
        else lowerChar c
      here ++ lowerFrom (if isCaseIgnorable c then cased else isCased c) rest

def lowerChars (cs : List Char) : List Char := lowerFrom false cs

def lower (s : String) : String := String.ofList (lowerChars s.toList)

-- The form in which texts are compared: no blanks around it, all lower case.
def fold (s : String) : String := lower (trim s)

end Tileboard.Text
