import Tileboard.Service.Route
import Tileboard.Proofs.Board.Drawing

namespace Tileboard.Service

-- Fields that both requests have come last.
def tilesBody (tiles metrics : List Value) (shared : List (String × Value)) : Value :=
  .object (("tiles", .list tiles) :: ("metricTiles", .list metrics) :: shared)

def onlyTiles (items : List Value) : Value :=
  .object [("tiles", .list items), ("summary", .list []), ("trends", .list [])]

def boardBody (tiles metrics : List Value) (shared : List (String × Value)) : Value :=
  .object (("config", onlyTiles tiles) :: ("metrics", onlyTiles metrics) :: shared)

namespace Field

theorem objects_list {items others : List Value} (h : objects (.list items) = some others) :
    others = items := by
  unfold objects at h
  dsimp only at h
  split at h
  · exact (Option.some.inj h).symm
  · cases h

theorem orElse_congr {α : Type} {body other : Value} {name : String} {default : α}
    {read : Value → Option α} (h : body.field? name = other.field? name) :
    orElse body [name] default read = orElse other [name] default read := by
  unfold orElse find?
  rw [List.findSome?_singleton, List.findSome?_singleton, h]

end Field

section Reading

variable {tiles metrics items : List Value} {shared : List (String × Value)}

theorem configOf_onlyTiles : BoardRequest.configOf (onlyTiles items) =
    (Field.objects (.list items)).map onlyTiles := by
  have hgroup : objectsAt (onlyTiles items) ["tiles"] = Field.objects (.list items) := rfl
  have hsummary : objectsAt (onlyTiles items) ["summary"] = some [] := rfl
  have htrends : objectsAt (onlyTiles items) ["trends"] = some [] := rfl
  unfold BoardRequest.configOf BoardRequest.groupNames
  simp only [List.mapM_cons, List.mapM_nil, hgroup, hsummary, htrends]
  cases Field.objects (.list items) <;> rfl

theorem objectOfObjects_onlyTiles : Field.objectOfObjects (onlyTiles items) =
    (Field.objects (.list items)).map onlyTiles := by
  have hall : Field.objectOfObjects (onlyTiles items) =
      if (Field.objects (.list items)).isSome && (true && (true && true)) then
        some (onlyTiles items) else none := rfl
  rw [hall]
  cases h : Field.objects (.list items) with
  | none => rfl
  | some others =>
      rw [Field.objects_list h]
      rfl

theorem ofBody_congr {body other : Value}
    (h : ∀ name ∈ ["records", "source", "range"], body.field? name = other.field? name) :
    Origin.ofBody body = Origin.ofBody other ∧ rangeOf body = rangeOf other := by
  unfold Origin.ofBody rangeOf
  rw [Field.orElse_congr (h "records" (by decide)), Field.orElse_congr (h "source" (by decide)),
    Field.orElse_congr (h "range" (by decide))]
  exact ⟨rfl, rfl⟩

theorem ofBody_tilesBody : TilesRequest.ofBody (tilesBody tiles metrics shared) = (do
    let origin ← Origin.ofBody (.object shared)
    let tiles ← Field.objects (.list tiles)
    let metrics ← Field.objects (.list metrics)
    return ⟨origin, tiles, metrics, ← rangeOf (.object shared)⟩) := by
  have hshared : ∀ name ∈ ["records", "source", "range"],
      (tilesBody tiles metrics shared).field? name = (Value.object shared).field? name := by
    simp [tilesBody, Value.field?, List.lookup_cons]
  obtain ⟨horigin, hrange⟩ := ofBody_congr hshared
  unfold TilesRequest.ofBody
  rw [horigin, hrange]
  rfl

theorem ofBody_boardBody : BoardRequest.ofBody (boardBody tiles metrics shared) = (do
    let origin ← Origin.ofBody (.object shared)
    let tiles ← Field.objects (.list tiles)
    let metrics ← Field.objects (.list metrics)
    return ⟨origin, onlyTiles tiles, onlyTiles metrics, ← rangeOf (.object shared)⟩) := by
  have hshared : ∀ name ∈ ["records", "source", "range"],
      (boardBody tiles metrics shared).field? name = (Value.object shared).field? name := by
    simp [boardBody, Value.field?, List.lookup_cons]
  obtain ⟨horigin, hrange⟩ := ofBody_congr hshared
  have hconfig : Field.orElse (boardBody tiles metrics shared) ["config"] BoardRequest.noTiles
      BoardRequest.configOf = (Field.objects (.list tiles)).map onlyTiles := configOf_onlyTiles
  have hmetrics : Field.orElse (boardBody tiles metrics shared) ["metrics"] (.object [])
      Field.objectOfObjects = (Field.objects (.list metrics)).map onlyTiles :=
    objectOfObjects_onlyTiles
  unfold BoardRequest.ofBody
  rw [horigin, hrange, hconfig, hmetrics]
  cases Field.objects (.list tiles) <;> cases Field.objects (.list metrics) <;> rfl

-- Either both bodies are understood, and with the same parts, or neither is.
theorem ofBody_agree :
    (TilesRequest.ofBody (tilesBody tiles metrics shared) = none ∧
      BoardRequest.ofBody (boardBody tiles metrics shared) = none) ∨
    ∃ origin range,
      TilesRequest.ofBody (tilesBody tiles metrics shared) = some ⟨origin, tiles, metrics, range⟩ ∧
      BoardRequest.ofBody (boardBody tiles metrics shared) =
        some ⟨origin, onlyTiles tiles, onlyTiles metrics, range⟩ := by
  rw [ofBody_tilesBody, ofBody_boardBody]
  cases Origin.ofBody (.object shared) with
  | none => exact .inl ⟨rfl, rfl⟩
  | some origin =>
      cases htiles : Field.objects (.list tiles) with
      | none => exact .inl ⟨rfl, rfl⟩
      | some others =>
          obtain rfl := Field.objects_list htiles
          cases hmetrics : Field.objects (.list metrics) with
          | none => exact .inl ⟨rfl, rfl⟩
          | some others =>
              obtain rfl := Field.objects_list hmetrics
              cases rangeOf (.object shared) with
              | none => exact .inl ⟨rfl, rfl⟩
              | some range => exact .inr ⟨origin, range, rfl, rfl⟩

end Reading

namespace Response

-- A field is sent under its name, unless it is hidden.
theorem field?_sent {name : String} (hname : name.startsWith hiddenMark = false) (v : Value) :
    (sent v).field? name = (v.field? name).map sent := by
  cases v with
  | object fields =>
      induction fields with
      | nil => rfl
      | cons field rest ih =>
          obtain ⟨other, u⟩ := field
          change (sentFields ((other, u) :: rest)).lookup name = (((other, u) :: rest).lookup name).map sent
          change (sentFields rest).lookup name = (rest.lookup name).map sent at ih
          rw [sentFields]
          by_cases heq : name = other
          · subst heq
            rw [if_neg (by rw [hname]; exact Bool.false_ne_true), List.lookup_cons_self,
              List.lookup_cons_self]
            rfl
          · rw [List.lookup_cons, beq_false_of_ne heq]
            split
            · exact ih
            · rw [List.lookup_cons, beq_false_of_ne heq]
              exact ih
  | number n => cases n <;> (unfold sent; first | rfl | (split <;> rfl))
  | _ => rfl

theorem field_sent {name : String} (hname : name.startsWith hiddenMark = false) (v : Value) :
    (sent v).field name = sent (v.field name) := by
  rw [Value.field, Value.field, field?_sent hname]
  cases v.field? name <;> rfl

theorem status_ofResult_iff {wording : Fault → String} {x : Except Fault Value} :
    (ofResult wording x).status = 200 ↔ ∃ v, x = .ok v := by
  cases x with
  | ok v => exact iff_of_true rfl ⟨v, rfl⟩
  | error fault =>
      refine iff_of_false ?_ nofun
      unfold ofResult
      dsimp only
      split
      · exact fun h : 400 = 200 => absurd h (by decide)
      · exact fun h : 500 = 200 => absurd h (by decide)

end Response

end Tileboard.Service
