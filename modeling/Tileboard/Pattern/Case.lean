import Tileboard.Text.LetterCase

namespace Tileboard.Pattern

-- Lower-case characters that share an upper-case form.
def caseClasses : List (List Nat) := [
  [0x69, 0x131], [0x73, 0x17F], [0xB5, 0x3BC], [0x345, 0x3B9, 0x1FBE], [0x390, 0x1FD3],
  [0x3B0, 0x1FE3], [0x3B2, 0x3D0], [0x3B5, 0x3F5], [0x3B8, 0x3D1], [0x3BA, 0x3F0],
  [0x3C0, 0x3D6], [0x3C1, 0x3F1], [0x3C2, 0x3C3], [0x3C6, 0x3D5], [0x432, 0x1C80],
  [0x434, 0x1C81], [0x43E, 0x1C82], [0x441, 0x1C83], [0x442, 0x1C84, 0x1C85], [0x44A, 0x1C86],
  [0x463, 0x1C87], [0x1C88, 0xA64B], [0x1E61, 0x1E9B], [0xFB05, 0xFB06]]

def lowerPoint (unicode : Bool) (point : Nat) : Nat :=
  if unicode then (if point.isValidChar then (Text.lowerSimple (Char.ofNat point)).toNat else point)
  else if 65 ≤ point ∧ point ≤ 90 then point + 32 else point

def companions (unicode : Bool) (point : Nat) : List Nat :=
  if unicode then (caseClasses.find? (·.contains point)).getD [point] else [point]

def capitals (unicode : Bool) (point : Nat) : List Nat :=
  if unicode then
    Text.caseRuns.filterMap fun run =>
      let c : Int := point - run.shift
      if run.first ≤ c ∧ c ≤ run.last ∧ (c - run.first) % run.stride = 0 then some c.toNat else none
  else if 97 ≤ point ∧ point ≤ 122 then [point - 32] else []

def rangeMatches (unicode : Bool) (first last point : Nat) : Bool :=
  (companions unicode point).any fun p =>
    (p :: capitals unicode p).any fun c => first ≤ c && c ≤ last

-- Whether a character of a set matches a lower-case one. Past the first plane a
-- set takes its characters as they are written.
def memberMatches (unicode : Bool) (member point : Nat) : Bool :=
  if unicode && 0xFFFF < member then member == point
  else (companions unicode (lowerPoint unicode member)).contains point

end Tileboard.Pattern
