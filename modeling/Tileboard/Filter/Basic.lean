import Tileboard.Record

namespace Tileboard

-- What a filter asks about a cell. Each of the first three asks and its opposite
-- stand side by side, as do the last three.
inductive Operator where
  | isNull (negated : Bool)
  | equals (negated : Bool)
  | compare (comparison : Comparison)
  | contains (negated : Bool)
  | search (negated : Bool)
  | member (negated : Bool)
  deriving DecidableEq

namespace Operator

def name : Operator → String
  | .isNull negated => if negated then "isNotNull" else "isNull"
  | .equals negated => if negated then "notEquals" else "equals"
  | .compare comparison => comparison.name
  | .contains negated => if negated then "notContains" else "contains"
  | .search negated => if negated then "notMatches" else "matches"
  | .member negated => if negated then "notIn" else "in"

-- All operators in order of precedence: of several in one filter the first counts.
def all : List Operator :=
  [.isNull false, .isNull true, .equals false, .equals true,
    .compare .less, .compare .lessOrEqual, .compare .greater, .compare .greaterOrEqual,
    .contains false, .contains true, .search false, .search true, .member false, .member true]

end Operator

structure Test where
  operator : Operator
  operand : Value

-- A leaf tests one column. Without an operator it asks nothing, whatever its operand.
inductive Filter where
  | leaf (column : Value) (operator : Option Operator) (operand : Value)
  | all (parts : List Filter)
  | any (parts : List Filter)

namespace Filter

instance : Inhabited Filter := ⟨.all []⟩

def groupNames : List String := ["and", "or"]

-- The test in the fields of a leaf: the first operator that is present.
def testIn (fields : List (String × Value)) : Option Test :=
  Operator.all.findSome? fun operator =>
    (fields.lookup operator.name).map fun operand => ⟨operator, operand⟩

def leafOf (fields : List (String × Value)) : Filter :=
  let column := (fields.lookup "column").getD .null
  match testIn fields with
  | some test => .leaf column (some test.operator) test.operand
  | none => .leaf column none .null

mutual

-- The filter that a value describes. An object with "and" is a conjunction, else
-- one with "or" a disjunction, else a leaf.
def ofValue : Value → Except Fault Filter
  | .object fields =>
      match groupBody "and" fields with
      | some body => body.map .all
      | none =>
          match groupBody "or" fields with
          | some body => body.map .any
          | none => .ok (leafOf fields)
  | v => .error (.notAFilter v)

-- The parts under a group's name, if it is there; null stands for no parts.
def groupBody (group : String) : List (String × Value) → Option (Except Fault (List Filter))
  | [] => none
  | (name, body) :: rest =>
      if name = group then
        some (match body with
          | .null => .ok []
          | .list parts => ofValues parts
          | other => .error (.notAFilterList group other))
      else groupBody group rest

def ofValues : List Value → Except Fault (List Filter)
  | [] => .ok []
  | v :: rest => do
      let first ← ofValue v
      return first :: (← ofValues rest)

end

mutual

def toValue : Filter → Value
  | .leaf column operator operand =>
      .object (("column", column) ::
        match operator with
        | some o => [(o.name, operand)]
        | none => [])
  | .all parts => .object [("and", .list (toValues parts))]
  | .any parts => .object [("or", .list (toValues parts))]

def toValues : List Filter → List Value
  | [] => []
  | f :: rest => toValue f :: toValues rest

end

def listOfValue (v : Value) : Except Fault (List Filter) := do
  ofValues (← v.itemsOrNone)

end Filter

end Tileboard
