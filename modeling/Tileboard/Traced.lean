import Tileboard.Fault
import Tileboard.Value.Order

namespace Tileboard

-- What is noted on the way. The wording of each note is `Note.message`.
inductive Note where
  | incomparable (comparison : Comparison) (left right : Value)
  | noOperator (column : Value)
  | nullOperand (operator : String) (column : Value)
  | notText (operator : String) (found column : Value)
  | badPattern (operand : Value) (reason : String)
  | emptyBase
  | skippedRows (start finish : Value) (count : Nat)
  | loaded (rows : Nat) (file : String)
  deriving Inhabited

namespace Note

def message : Note → String
  | .incomparable cmp left right =>
      "incomparable values for " ++ cmp.name ++ ": " ++ left.shown ++ " vs " ++ right.shown
  | .noOperator column =>
      "filter on column " ++ column.shown ++ " has no operator; matching every row"
  | .nullOperand operator column =>
      operator ++ " with a null operand on column " ++ column.shown ++ " never matches"
  | .notText operator found column =>
      operator ++ " on non-string value " ++ found.shown ++ " in column " ++ column.shown
  | .badPattern operand reason =>
      "invalid regex " ++ operand.shown ++ " compiles to a never-matching filter: " ++ reason
  | .emptyBase => "percentage denominator matched no rows; dividing by 1"
  | .skippedRows start finish count =>
      "average " ++ start.asText ++ " -> " ++ finish.asText ++ " skipped " ++ toString count ++
        " rows without usable dates"
  | .loaded rows file => "loaded " ++ toString rows ++ " rows from " ++ file

end Note

-- Notes in the order in which they were left, and how the computation ended.
-- Notes left before a fault are kept.
structure Traced (α : Type) where
  notes : List Note
  result : Except Fault α

namespace Traced

instance {α : Type} : Inhabited (Traced α) := ⟨⟨[], .error default⟩⟩

def pure {α : Type} (a : α) : Traced α := ⟨[], .ok a⟩

def bind {α β : Type} (x : Traced α) (f : α → Traced β) : Traced β :=
  match x.result with
  | .ok a => ⟨x.notes ++ (f a).notes, (f a).result⟩
  | .error e => ⟨x.notes, .error e⟩

instance : Monad Traced where
  pure := Traced.pure
  bind := Traced.bind

instance : MonadExceptOf Fault Traced where
  throw e := ⟨[], .error e⟩
  tryCatch x handler :=
    match x.result with
    | .ok _ => x
    | .error e => ⟨x.notes ++ (handler e).notes, (handler e).result⟩

def note (n : Note) : Traced Unit := ⟨[n], .ok ()⟩

def ofExcept {α : Type} (x : Except Fault α) : Traced α := ⟨[], x⟩

instance : MonadLift (Except Fault) Traced := ⟨ofExcept⟩

end Traced

end Tileboard
