import Tileboard.Fault

namespace Tileboard.Service

-- Answers that only refuse a request have no body.
structure Response where
  status : Nat
  body : Option Value

namespace Response

-- Fields that begin with this mark are never sent.
def hiddenMark : String := "_sa"

mutual

-- A value as it is sent: NaN and the infinities as null, without hidden fields.
def sent : Value → Value
  | .number (.real x) => if x.isFinite then .number (.real x) else .null
  | .list items => .list (sentItems items)
  | .object fields => .object (sentFields fields)
  | v => v

def sentItems : List Value → List Value
  | [] => []
  | v :: rest => sent v :: sentItems rest

def sentFields : List (String × Value) → List (String × Value)
  | [] => []
  | (name, v) :: rest =>
      if name.startsWith hiddenMark then sentFields rest else (name, sent v) :: sentFields rest

end

def ok (v : Value) : Response := ⟨200, some (sent v)⟩

def notFound : Response := ⟨404, none⟩

def wrongMethod : Response := ⟨405, none⟩

def invalid : Response := ⟨422, none⟩

def account (wording : Fault → String) (f : Fault) : Value :=
  .object [("error", .text (f.text wording)), ("type", .text f.kind)]

def rejection (wording : Fault → String) (f : Fault) : Response := ⟨400, some (account wording f)⟩

def failure (wording : Fault → String) (f : Fault) : Response := ⟨500, some (account wording f)⟩

def ofResult (wording : Fault → String) : Except Fault Value → Response
  | .ok v => ok v
  | .error f => if f.isRejection then rejection wording f else failure wording f

-- The same where no fault is taken for the request's.
def ofResultOrFailure (wording : Fault → String) : Except Fault Value → Response
  | .ok v => ok v
  | .error f => failure wording f

end Response

end Tileboard.Service
