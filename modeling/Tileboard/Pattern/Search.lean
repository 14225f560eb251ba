import Tileboard.Pattern.Reader
import Tileboard.Pattern.Case

namespace Tileboard

namespace Pattern

structure Place where
  position : Nat
  entered : List (Nat × Nat)
  left : List (Nat × Nat)

def setMark (marks : List (Nat × Nat)) (group position : Nat) : List (Nat × Nat) :=
  (group, position) :: marks.filter (·.1 != group)

def Place.stretch? (p : Place) (group : Nat) : Option (Nat × Nat) :=
  match p.entered.lookup group, p.left.lookup group with
  | some start, some stop => if start ≤ stop then some (start, stop) else none
  | _, _ => none

def isAsciiWord (c : Char) : Bool := c.isAlphanum || c == '_'

def CharClass.holds (kind : CharClass) (unicode : Bool) (c : Char) : Bool :=
  match kind with
  | .digit => if unicode then Text.isDigit c else c.isDigit
  | .space => if unicode then Text.isBlank c else isPatternBlank c
  | .word => if unicode then Text.isWordCharacter c else isAsciiWord c

def SetItem.holds (ignoreCase unicode : Bool) (c : Char) : SetItem → Bool
  | .code point =>
      if ignoreCase then memberMatches unicode point (lowerPoint unicode c.toNat)
      else c.toNat == point
  | .range first last =>
      if ignoreCase then rangeMatches unicode first last (lowerPoint unicode c.toNat)
      else first ≤ c.toNat && c.toNat ≤ last
  | .charClass kind negated => kind.holds unicode c != negated

def CharTest.holds (flags : List Flag) (c : Char) (test : CharTest) : Bool :=
  let ignoreCase := flags.contains .ignoreCase
  let unicode := flags.contains .unicode
  match test with
  | .any => flags.contains .dotAll || c != '\n'
  | .code point negated =>
      let same :=
        if ignoreCase then
          (companions unicode (lowerPoint unicode point)).contains (lowerPoint unicode c.toNat)
        else c.toNat == point
      same != negated
  | .set items negated => items.any (·.holds ignoreCase unicode c) != negated

-- In the empty text neither a boundary nor its opposite is anywhere.
def atBoundary (text : Array Char) (unicode : Bool) (position : Nat) (wanted : Bool) : Bool :=
  let isWord (c : Option Char) : Bool := (c.map (CharClass.word.holds unicode)).getD false
  let before := if position = 0 then none else text[position - 1]?
  !text.isEmpty && (isWord before != isWord text[position]?) == wanted

def Anchor.holds (text : Array Char) (flags : List Flag) (position : Nat) : Anchor → Bool
  | .textStart => position == 0
  | .textEnd => position == text.size
  | .lineStart =>
      position == 0 || (flags.contains .multiline && text[position - 1]? == some '\n')
  | .lineEnd =>
      position == text.size ||
        (text[position]? == some '\n' &&
          (flags.contains .multiline || position + 1 == text.size))
  | .boundary => atBoundary text (flags.contains .unicode) position true
  | .notBoundary => atBoundary text (flags.contains .unicode) position false

def sameStretch (text : Array Char) (flags : List Flag) (first second : Nat) : Nat → Bool
  | 0 => true
  | count + 1 =>
      match text[first]?, text[second]? with
      | some c, some d =>
          let unicode := flags.contains .unicode
          (if flags.contains .ignoreCase then
            lowerPoint unicode c.toNat == lowerPoint unicode d.toNat
          else c == d) && sameStretch text flags (first + 1) (second + 1) count
      | _, _ => false

abbrev Step := Place → (Place → Option Place) → Option Place

def mayRepeat (most : Option Nat) (count : Nat) : Bool :=
  match most with
  | some n => count < n
  | none => true

-- Rounds of a repeat, as many as possible. Past the least count no round begins
-- where the round before it began, so that empty rounds end.
def greedyRounds (step : Step) (least : Nat) (most : Option Nat) (follow : Place → Option Place) :
    Nat → Nat → Option Nat → Place → Option Place
  | 0, _, _, _ => none
  | fuel + 1, count, last, place =>
      if count < least then
        step place (greedyRounds step least most follow fuel (count + 1) last)
      else
        let further :=
          if mayRepeat most count && last != some place.position then
            step place (greedyRounds step least most follow fuel (count + 1) (some place.position))
          else none
        match further with
        | some done => some done
        | none => follow place

def lazyRounds (step : Step) (least : Nat) (most : Option Nat) (follow : Place → Option Place) :
    Nat → Nat → Option Nat → Place → Option Place
  | 0, _, _, _ => none
  | fuel + 1, count, last, place =>
      if count < least then
        step place (lazyRounds step least most follow fuel (count + 1) last)
      else
        match follow place with
        | some done => some done
        | none =>
            if mayRepeat most count && last != some place.position then
              step place (lazyRounds step least most follow fuel (count + 1) (some place.position))
            else none

def possessiveRounds (step : Step) (least : Nat) (most : Option Nat) :
    Nat → Nat → Option Nat → Place → Option Place
  | 0, _, _, _ => none
  | fuel + 1, count, last, place =>
      if count < least then
        match step place some with
        | some after => possessiveRounds step least most fuel (count + 1) last after
        | none => none
      else if mayRepeat most count && last != some place.position then
        match step place some with
        | some after =>
            possessiveRounds step least most fuel (count + 1) (some place.position) after
        | none => some place
      else some place

-- Matches the pattern at a place and goes on from there. The first way to match
-- with which all that follows succeeds is taken.
def run (text : Array Char) : Pattern → List Flag → Step
  | .empty, _ => fun place follow => follow place
  | .char test, flags => fun place follow =>
      match text[place.position]? with
      | some c =>
          if test.holds flags c then follow { place with position := place.position + 1 } else none
      | none => none
  | .anchor kind, flags => fun place follow =>
      if kind.holds text flags place.position then follow place else none
  | .sequence first rest, flags => fun place follow =>
      run text first flags place fun after => run text rest flags after follow
  | .choice left right, flags => fun place follow =>
      match run text left flags place follow with
      | some done => some done
      | none => run text right flags place follow
  | .repeated greed least most body, flags => fun place follow =>
      let fuel := least + (text.size - place.position) + 3
      match greed with
      | .greedy => greedyRounds (run text body flags) least most follow fuel 0 none place
      | .lazy => lazyRounds (run text body flags) least most follow fuel 0 none place
      | .possessive =>
          (possessiveRounds (run text body flags) least most fuel 0 none place).bind follow
  | .group index body, flags => fun place follow =>
      run text body flags { place with entered := setMark place.entered index place.position }
        fun after => follow { after with left := setMark after.left index after.position }
  | .switched on off body, flags => run text body (flagsWith flags on off)
  | .atomic body, flags => fun place follow => (run text body flags place some).bind follow
  | .look behind negated body, flags => fun place follow =>
      let back := if behind then body.width.least else 0
      let found :=
        if place.position < back then none
        else run text body flags { place with position := place.position - back } some
      match found with
      | some seen => if negated then none else follow { seen with position := place.position }
      | none => if negated then follow place else none
  | .reference index _, flags => fun place follow =>
      match place.stretch? index with
      | none => none
      | some (start, stop) =>
          if sameStretch text flags start place.position (stop - start) then
            follow { place with position := place.position + (stop - start) }
          else none
  | .conditional index present absent, flags => fun place follow =>
      if (place.stretch? index).isSome then run text present flags place follow
      else run text absent flags place follow

def Compiled.occursIn (pattern : Compiled) (s : String) : Bool :=
  let text := s.toList.toArray
  (List.range (text.size + 1)).any fun start =>
    (run text pattern.tree pattern.flags ⟨start, [], []⟩ some).isSome

end Pattern

end Tileboard
