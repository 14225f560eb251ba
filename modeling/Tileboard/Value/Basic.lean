import Tileboard.Number.Basic

namespace Tileboard

inductive Value where
  | null
  | bool (value : Bool)
  | number (value : Number)
  | text (value : String)
  | list (items : List Value)
  | object (fields : List (String × Value))
  deriving Inhabited

namespace Value

def int (n : Int) : Value := .number (.int n)

def real (x : Binary64) : Value := .number (.real x)

def optionalText : Option String → Value
  | some s => .text s
  | none => .null

def kindName : Value → String
  | .null => "NoneType"
  | .bool _ => "bool"
  | .number (.int _) => "int"
  | .number (.real _) => "float"
  | .text _ => "str"
  | .list _ => "list"
  | .object _ => "dict"

-- Null, zeros, and empty texts, lists and objects do not hold; all else does.
def holds : Value → Bool
  | .null => false
  | .bool b => b
  | .number n => !n.isZero
  | .text s => !s.isEmpty
  | .list items => !items.isEmpty
  | .object fields => !fields.isEmpty

def isNull : Value → Bool
  | .null => true
  | _ => false

def isNumber : Value → Bool
  | .number _ => true
  | _ => false

def isText : Value → Bool
  | .text _ => true
  | _ => false

-- The number a value counts as in comparisons: the booleans are 0 and 1.
def number? : Value → Option Number
  | .bool b => some (.int (if b then 1 else 0))
  | .number n => some n
  | _ => none

def field? : Value → String → Option Value
  | .object fields, name => fields.lookup name
  | _, _ => none

-- A field that is absent counts as null.
def field (v : Value) (name : String) : Value := (v.field? name).getD .null

end Value

-- Puts a field in place of one of the same name, or else at the end.
def putField (fields : List (String × Value)) (name : String) (value : Value) :
    List (String × Value) :=
  match fields with
  | [] => [(name, value)]
  | (n, v) :: rest =>
      if n = name then (name, value) :: rest else (n, v) :: putField rest name value

end Tileboard
