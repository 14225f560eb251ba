import Tileboard.Pattern.Flaw

namespace Tileboard

namespace Pattern

inductive Flag where
  | ignoreCase
  | multiline
  | dotAll
  | verbose
  | ascii
  | unicode
  | template
  deriving DecidableEq

inductive CharClass where
  | digit
  | space
  | word
  deriving DecidableEq

-- A member of a set. Characters are given by code point.
inductive SetItem where
  | code (point : Nat)
  | range (first last : Nat)
  | charClass (kind : CharClass) (negated : Bool)
  deriving DecidableEq

inductive CharTest where
  | any
  | code (point : Nat) (negated : Bool)
  | set (items : List SetItem) (negated : Bool)
  deriving DecidableEq

inductive Anchor where
  | lineStart
  | lineEnd
  | textStart
  | textEnd
  | boundary
  | notBoundary
  deriving DecidableEq

-- How a repeat chooses its number of rounds: as many as possible, as few as
-- possible, or as many as possible without second thoughts.
inductive Greed where
  | greedy
  | lazy
  | possessive
  deriving DecidableEq

-- Least and greatest number of characters. Without a bound the greatest is
-- `Width.unbounded`.
structure Width where
  least : Nat
  greatest : Nat
  deriving DecidableEq

def Width.unbounded : Nat := 18446744073709551616

end Pattern

inductive Pattern where
  | empty
  | char (test : Pattern.CharTest)
  | anchor (kind : Pattern.Anchor)
  | sequence (first rest : Pattern)
  | choice (left right : Pattern)
  | repeated (greed : Pattern.Greed) (least : Nat) (most : Option Nat) (body : Pattern)
  | group (index : Nat) (body : Pattern)
  | switched (on off : List Pattern.Flag) (body : Pattern)
  | atomic (body : Pattern)
  | look (behind negated : Bool) (body : Pattern)
  | reference (group : Nat) (width : Pattern.Width)
  | conditional (group : Nat) (present absent : Pattern)
  deriving DecidableEq

namespace Pattern

-- How many characters a match can have. A reference is as wide as its group.
def width : Pattern → Width
  | .empty => ⟨0, 0⟩
  | .char _ => ⟨1, 1⟩
  | .anchor _ => ⟨0, 0⟩
  | .sequence first rest =>
      let a := first.width
      let b := rest.width
      ⟨min (a.least + b.least) Width.unbounded, min (a.greatest + b.greatest) Width.unbounded⟩
  | .choice left right =>
      let a := left.width
      let b := right.width
      ⟨min a.least b.least, max a.greatest b.greatest⟩
  | .repeated _ least most body =>
      let w := body.width
      ⟨min (w.least * least) Width.unbounded,
        match most with
        | some n => min (w.greatest * n) Width.unbounded
        | none => if w.greatest = 0 then 0 else Width.unbounded⟩
  | .group _ body => body.width
  | .switched _ _ body => body.width
  | .atomic body => body.width
  | .look .. => ⟨0, 0⟩
  | .reference _ w => w
  | .conditional _ present absent =>
      let a := present.width
      let b := absent.width
      ⟨min a.least b.least, max a.greatest b.greatest⟩

def farthestBehind : Nat := 4294967295

def Greed.name : Greed → String
  | .greedy => "MAX_REPEAT"
  | .lazy => "MIN_REPEAT"
  | .possessive => "POSSESSIVE_REPEAT"

def flagsWith (flags on off : List Flag) : List Flag :=
  let kept :=
    if on.contains .ascii || on.contains .unicode then
      flags.filter fun f => f != .ascii && f != .unicode
    else flags
  (kept ++ on).filter fun f => !off.contains f

-- The first place, in reading order, at which a well-written pattern cannot be
-- searched for: what is looked for behind needs one width, and the template
-- switch forbids repeats.
def check (flags : List Flag) : Pattern → Except Flaw Unit
  | .empty | .char _ | .anchor _ | .reference .. => .ok ()
  | .sequence first rest => do
      check flags first
      check flags rest
  | .choice left right => do
      check flags left
      check flags right
  | .repeated greed _ _ body =>
      if flags.contains .template then .error (.templateRepeat greed.name)
      else check flags body
  | .group _ body => check flags body
  | .switched on off body => check (flagsWith flags on off) body
  | .atomic body => check flags body
  | .look behind _ body =>
      if behind && farthestBehind < body.width.least then .error .longLookbehind
      else if behind && body.width.least != body.width.greatest then .error .variableLookbehind
      else check flags body
  | .conditional _ present absent => do
      check flags present
      check flags absent

end Pattern

end Tileboard
