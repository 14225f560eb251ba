import Tileboard.Proofs.Column.Measure
import Tileboard.Period

namespace Tileboard

open Value

namespace Windows

-- Row for row, what one set of windows holds corresponds to what another holds.
structure Related {α β : Type} (R : α → β → Prop) (w : Windows α) (other : Windows β) : Prop where
  current : List.Forall₂ R w.current other.current
  previous : List.Forall₂ R w.previous other.previous
  all : List.Forall₂ R w.all other.all

theorem Related.imp {α β : Type} {R S : α → β → Prop} {w : Windows α} {other : Windows β}
    (h : Related R w other) (himp : ∀ a b, R a b → S a b) : Related S w other :=
  ⟨h.current.imp himp, h.previous.imp himp, h.all.imp himp⟩

section Dating

variable {α : Type} {R : α → α → Prop} {time : α → Except Fault (Option Instant)}
  {rows others : List α}

def SameTime (R : α → α → Prop) (row other : α × Option Instant) : Prop :=
  R row.1 other.1 ∧ row.2 = other.2

theorem unbounded_related (h : List.Forall₂ R rows others) :
    Related R (unbounded rows) (unbounded others) := ⟨h, h, h⟩

theorem dated_related (h : List.Forall₂ R rows others)
    (htime : ∀ row other, R row other → time row = time other) :
    SameUpTo (List.Forall₂ (SameTime R)) (dated time rows) (dated time others) := by
  induction h with
  | nil => exact .ok .nil
  | @cons row other rows others hrow _ ih =>
      rw [dated, dated, htime row other hrow]
      refine (SameUpTo.refl (time other)).bind ?_
      rintro t _ rfl
      exact ih.bind fun times timesOther htimes => .ok (.cons ⟨hrow, rfl⟩ htimes)

theorem within_related {p : Option Period} {times timesOther : List (α × Option Instant)}
    (h : List.Forall₂ (SameTime R) times timesOther) :
    List.Forall₂ R (within p times) (within p timesOther) := by
  unfold within
  refine List.forall₂_map_left_iff.mpr (List.forall₂_map_right_iff.mpr ?_)
  refine (List.rel_filter (fun row other hrow => ?_) h).imp fun row other hrow => hrow.1
  change Period.covers p row.2 = true ↔ Period.covers p other.2 = true
  rw [hrow.2]

theorem ofPeriod_related {period : Option Period} (h : List.Forall₂ R rows others)
    (htime : ∀ row other, R row other → time row = time other) :
    SameUpTo (Related R) (ofPeriod time period rows) (ofPeriod time period others) := by
  cases period with
  | none => exact .ok ⟨.nil, .nil, h⟩
  | some p =>
      refine (SameUpTo.refl p.previous).bind ?_
      rintro previous _ rfl
      refine (dated_related h htime).bind fun times timesOther htimes => ?_
      exact .ok ⟨within_related htimes, within_related htimes, h⟩

theorem select_related {start finish : Value} (h : List.Forall₂ R rows others)
    (htime : ∀ row other, R row other → time row = time other) :
    SameUpTo (Related R) (select time start finish rows) (select time start finish others) := by
  refine (SameUpTo.refl (Period.ofValues start finish)).bind ?_
  rintro period _ rfl
  exact ofPeriod_related h htime

theorem counts_eq {w other : Windows α} (h : Related R w other) : w.counts = other.counts := by
  unfold counts
  rw [h.current.length_eq, h.previous.length_eq, h.all.length_eq]

end Dating

theorem timeIn_eq {columns : List Value} {dateColumn row other : Value}
    (h : AgreesOn columns row other) (hc : dateColumn ∈ columns) :
    timeIn dateColumn row = timeIn dateColumn other := by
  unfold timeIn
  rw [h dateColumn hc]

end Windows

end Tileboard
