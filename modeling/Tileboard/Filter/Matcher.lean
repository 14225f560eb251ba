import Tileboard.Filter.Basic
import Tileboard.Pattern.Search
import Tileboard.Text.Search

namespace Tileboard

-- What becomes of a filter that asks nothing, or whose pattern is flawed: it is
-- refused, or noted and given a fixed answer.
inductive Mode where
  | permissive
  | strict
  deriving DecidableEq, Inhabited

def Mode.ofStrict (strict : Bool) : Mode := if strict then .strict else .permissive

inductive Matcher where
  | always
  | never
  | isNull (column : Value) (wanted : Bool)
  | equals (column operand : Value) (negated : Bool)
  | compare (column : Value) (comparison : Comparison) (operand : Value)
  | contains (column : Value) (needle : String) (negated : Bool)
  | search (column : Value) (pattern : Pattern.Compiled) (negated : Bool)
  | member (column : Value) (members : List Value) (negated : Bool)
  | all (parts : List Matcher)
  | any (parts : List Matcher)

namespace Matcher

instance : Inhabited Matcher := ⟨.never⟩

def isFalse : Value → Bool
  | .bool false => true
  | _ => false

-- The text to look for: texts without case and blanks around them, the text of
-- anything else as it is.
def needleOf (operand : Value) : String := operand.normalize.asText

def membersOf : Value → List Value
  | .null => []
  | .list items => items
  | v => [v]

-- The pattern of an operand. A flawed one never matches, or stops a strict
-- reading.
def searchFor (mode : Mode) (column operand : Value) (negated : Bool) : Traced Matcher :=
  match Pattern.read operand.asText with
  | .ok pattern => return .search column pattern negated
  | .error (.flawed flaw position) => do
      let reason := Pattern.flawText operand.asText flaw position
      match mode with
      | .strict => throw (.badPattern operand reason)
      | .permissive =>
          Traced.note (.badPattern operand reason)
          return .never
  | .error .tooLarge => throw .patternTooLarge
  | .error .twoAlphabets => throw .patternAlphabets

def ofTest (mode : Mode) (column : Value) (test : Test) : Traced Matcher :=
  match test.operator with
  | .isNull negated => return .isNull column (!negated == !isFalse test.operand)
  | .equals negated => return .equals column test.operand negated
  | .compare comparison => return .compare column comparison test.operand
  | .contains negated =>
      if test.operand.isNull then do
        Traced.note (.nullOperand test.operator.name column)
        return .never
      else return .contains column (needleOf test.operand) negated
  | .search negated => searchFor mode column test.operand negated
  | .member negated => return .member column (membersOf test.operand) negated

def ofLeaf (mode : Mode) (column : Value) (operator : Option Operator) (operand : Value) :
    Traced Matcher :=
  match operator with
  | some o => ofTest mode column ⟨o, operand⟩
  | none =>
      match mode with
      | .strict => throw (.noOperator column)
      | .permissive => do
          Traced.note (.noOperator column)
          return .always

mutual

-- All parts are made ready, from left to right, before any record is seen.
def ofFilter (mode : Mode) : Filter → Traced Matcher
  | .leaf column operator operand => ofLeaf mode column operator operand
  | .all parts => do return .all (← ofFilters mode parts)
  | .any parts => do return .any (← ofFilters mode parts)

def ofFilters (mode : Mode) : List Filter → Traced (List Matcher)
  | [] => return []
  | f :: rest => do
      let first ← ofFilter mode f
      return first :: (← ofFilters mode rest)

end

-- A description made ready in one step. What is no object describes nothing that
-- could test a record.
def ofDescription (mode : Mode) (description : Value) : Traced Matcher :=
  match description with
  | .object _ => do ofFilter mode (← Filter.ofValue description)
  | _ => throw .wrongType

def subject (cell : Value) : String := if cell.isNull then "" else cell.asText

mutual

-- Whether a record passes. Groups stop at the first part that decides them.
def accepts : Matcher → Value → Traced Bool
  | .always, _ => return true
  | .never, _ => return false
  | .isNull column wanted, row => do
      return (← row.cell column).isNull == wanted
  | .equals column operand negated, row => do
      return (← row.cell column).matchesValue operand != negated
  | .compare column comparison operand, row => do
      (← row.cell column).ordered comparison operand
  | .contains column needle negated, row => do
      match (← row.cell column).normalize with
      | .text s => return Text.contains s needle != negated
      | other =>
          Traced.note (.notText (Operator.contains negated).name other column)
          return false
  | .search column pattern negated, row => do
      return pattern.occursIn (subject (← row.cell column)) != negated
  | .member column members negated, row => do
      let cell ← row.cell column
      return members.any cell.matchesValue != negated
  | .all parts, row => acceptsAll parts row
  | .any parts, row => acceptsAny parts row

def acceptsAll : List Matcher → Value → Traced Bool
  | [], _ => return true
  | m :: rest, row => do
      if ← accepts m row then acceptsAll rest row else return false

def acceptsAny : List Matcher → Value → Traced Bool
  | [], _ => return false
  | m :: rest, row => do
      if ← accepts m row then return true else acceptsAny rest row

end

end Matcher

end Tileboard
