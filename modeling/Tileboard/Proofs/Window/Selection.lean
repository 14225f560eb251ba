import Mathlib
import Tileboard.Proofs.Window.Previous

namespace Tileboard

namespace Windows

variable {α : Type} (time : α → Except Fault (Option Instant))

-- The time of a row, if it has one that can be read.
def timeOf (row : α) : Option Instant :=
  match time row with
  | .ok t => t
  | .error _ => none

def datedWithin (low high : Int) (row : α) : Bool :=
  match time row with
  | .ok (some t) => decide (low ≤ t.nanoseconds ∧ t.nanoseconds ≤ high)
  | _ => false

-- Asking for the time of a row stops nothing; there may be none.
def Readable (rows : List α) : Prop := ∀ row ∈ rows, ∃ t, time row = .ok t

-- What the windows of a period are meant to hold: the rows with a time in the closed
-- range, as often and in the order in which they are given. The period before ends
-- where the period starts, so this is the only time that both can share.
structure Fitted (p : Period) (rows : List α) (w : Windows α) : Prop where
  all : w.all = rows
  current : w.current = rows.filter (datedWithin time p.first.nanoseconds p.last.nanoseconds)
  previous : w.previous = rows.filter (datedWithin time p.startBefore p.first.nanoseconds)
  shared : ∀ row ∈ rows, row ∈ w.current ∧ row ∈ w.previous ↔
    p.first.nanoseconds ≤ p.last.nanoseconds ∧ time row = .ok (some p.first)
  inverted : p.last.nanoseconds < p.first.nanoseconds → w.current = [] ∧ w.previous = []

variable {time}

theorem datedWithin_iff {low high : Int} {row : α} :
    datedWithin time low high row = true ↔
      ∃ t, time row = .ok (some t) ∧ low ≤ t.nanoseconds ∧ t.nanoseconds ≤ high := by
  unfold datedWithin
  cases h : time row with
  | error e => simp
  | ok t => cases t <;> simp

theorem dated_eq_error {rows : List α} {e : Fault} (h : dated time rows = .error e) :
    ∃ row ∈ rows, time row = .error e := by
  induction rows with
  | nil => cases h
  | cons row rest ih =>
      unfold dated at h
      cases ht : time row with
      | error f =>
          rw [ht] at h
          cases h
          exact ⟨row, by simp, ht⟩
      | ok t =>
          rw [ht] at h
          cases hr : dated time rest with
          | error f =>
              rw [hr] at h
              cases h
              obtain ⟨other, hm, he⟩ := ih hr
              exact ⟨other, List.mem_cons_of_mem _ hm, he⟩
          | ok times => rw [hr] at h; cases h

theorem dated_eq_ok {rows : List α} {times : List (α × Option Instant)}
    (h : dated time rows = .ok times) :
    times = rows.map fun row => (row, timeOf time row) := by
  induction rows generalizing times with
  | nil => cases h; rfl
  | cons row rest ih =>
      unfold dated at h
      obtain ⟨t, ht, h⟩ := bind_eq_ok_iff.mp h
      obtain ⟨others, hr, h⟩ := bind_eq_ok_iff.mp h
      cases h
      rw [List.map_cons, ← ih hr]
      simp [timeOf, ht]

-- The windows of a period exist as soon as the period before does.
theorem dated_of_readable {rows : List α} (h : Readable time rows) :
    dated time rows = .ok (rows.map fun row => (row, timeOf time row)) := by
  cases hd : dated time rows with
  | error e =>
      obtain ⟨row, hm, he⟩ := dated_eq_error hd
      obtain ⟨t, ht⟩ := h row hm
      rw [he] at ht
      cases ht
  | ok times => rw [dated_eq_ok hd]

theorem covers_timeOf (p : Period) (row : α) :
    Period.covers (some p) (timeOf time row) =
      datedWithin time p.first.nanoseconds p.last.nanoseconds row := by
  unfold timeOf datedWithin
  cases time row with
  | error e => rfl
  | ok t =>
      cases t with
      | none => rfl
      | some t =>
          simp [Period.covers, Period.contains, Instant.isWithin, Instant.atOrBefore]

theorem within_some (p : Period) (rows : List α) :
    within p (rows.map fun row => (row, timeOf time row)) =
      rows.filter (datedWithin time p.first.nanoseconds p.last.nanoseconds) := by
  unfold within
  rw [List.filter_map, List.map_map]
  simp only [Function.comp_def, covers_timeOf, List.map_id']

theorem within_none (times : List (α × Option Instant)) : within none times = [] := by
  unfold within
  rw [List.filter_eq_nil_iff.mpr fun _ _ => by simp [Period.covers]]
  rfl

theorem ofPeriod_eq_ok {p : Period} {rows : List α} {w : Windows α}
    (h : ofPeriod time (some p) rows = .ok w) :
    ∃ q, p.previous = .ok q ∧
      w = ⟨rows.filter (datedWithin time p.first.nanoseconds p.last.nanoseconds),
        within q (rows.map fun row => (row, timeOf time row)), rows⟩ := by
  obtain ⟨q, hq, h⟩ := bind_eq_ok_iff.mp h
  obtain ⟨times, ht, h⟩ := bind_eq_ok_iff.mp h
  cases h
  rw [dated_eq_ok ht, within_some]
  exact ⟨q, hq, rfl⟩

theorem select_eq_ofPeriod {start finish : Value} {p : Period} (rows : List α)
    (hstart : start.instant = .ok (some p.first)) (hfinish : finish.instant = .ok (some p.last)) :
    select time start finish rows = ofPeriod time (some p) rows := by
  unfold select
  rw [Period.ofValues_eq hstart hfinish]
  rfl

theorem fitted_filters (p : Period) (rows : List α) :
    Fitted time p rows
      ⟨rows.filter (datedWithin time p.first.nanoseconds p.last.nanoseconds),
        rows.filter (datedWithin time p.startBefore p.first.nanoseconds), rows⟩ where
  all := rfl
  current := rfl
  previous := rfl
  shared := by
    intro row hm
    simp only [List.mem_filter, hm, true_and, datedWithin_iff, Period.startBefore, Period.length]
    constructor
    · rintro ⟨⟨t, ht, hlow, hhigh⟩, u, hu, -, hend⟩
      rw [ht] at hu
      cases hu
      have hfirst : t = p.first := Instant.eq_of_nanoseconds (by omega)
      exact ⟨by omega, by rw [ht, hfirst]⟩
    · rintro ⟨hle, ht⟩
      exact ⟨⟨p.first, ht, by omega, hle⟩, p.first, ht, by omega, by omega⟩
  inverted := by
    intro hlt
    simp only [List.filter_eq_nil_iff, datedWithin_iff, Period.startBefore, Period.length]
    constructor
    · rintro row - ⟨t, -, hlow, hhigh⟩
      omega
    · rintro row - ⟨t, -, hlow, hhigh⟩
      omega

-- The previous window is lost when the period before starts at the count that stands
-- for no time; else both windows are the ones that fit the period.
theorem ofPeriod_fitted {p : Period} {rows : List α} {w : Windows α}
    (h : ofPeriod time (some p) rows = .ok w) :
    (p.startBefore ≠ Instant.missing ∧ Fitted time p rows w) ∨
    (p.startBefore = Instant.missing ∧
      w = ⟨rows.filter (datedWithin time p.first.nanoseconds p.last.nanoseconds), [], rows⟩) := by
  obtain ⟨q, hq, rfl⟩ := ofPeriod_eq_ok h
  rcases Period.previous_eq p with ⟨first, hf, hp, -⟩ | ⟨hm, hp, -⟩ | ⟨-, hp⟩ | ⟨-, -, hp⟩ <;>
    rw [hq] at hp
  · cases hp
    left
    refine ⟨hf ▸ Instant.ne_missing first, ?_⟩
    rw [within_some, hf]
    exact fitted_filters p rows
  · cases hp
    exact .inr ⟨hm, by rw [within_none]⟩
  · cases hp
  · cases hp

-- With readable times, only the period before can stop the selection.
theorem ofPeriod_stops {p : Period} {rows : List α} (hread : Readable time rows) (e : Fault) :
    ofPeriod time (some p) rows = .error e ↔ p.previous = .error e := by
  unfold ofPeriod
  rw [dated_of_readable hread]
  cases hp : p.previous with
  | error f => simp [hp]
  | ok q => simp [hp, pure, Except.pure]

-- A row with a time is in the window of each of the two periods just if the period has the time.
theorem mem_windows_iff {start finish : Value} {p : Period} {rows : List α} {w : Windows α}
    {row : α} {t : Instant} (hp : Period.ofValues start finish = .ok (some p))
    (hw : select time start finish rows = .ok w) (hrow : row ∈ rows)
    (ht : time row = .ok (some t)) :
    (row ∈ w.current ↔
      p.first.nanoseconds ≤ t.nanoseconds ∧ t.nanoseconds ≤ p.last.nanoseconds) ∧
    ∃ before, p.previous = .ok before ∧
      (∀ q, before = some q → q.first.nanoseconds = p.startBefore ∧ q.last = p.first) ∧
      (row ∈ w.previous ↔ ∃ q, before = some q ∧
        q.first.nanoseconds ≤ t.nanoseconds ∧ t.nanoseconds ≤ q.last.nanoseconds) := by
  have hin : ∀ low high, row ∈ rows.filter (datedWithin time low high) ↔
      low ≤ t.nanoseconds ∧ t.nanoseconds ≤ high := by
    intro low high
    rw [List.mem_filter, datedWithin_iff, ht]
    simp [hrow]
  unfold select at hw
  rw [hp, ok_bind] at hw
  obtain ⟨before, hbefore, rfl⟩ := ofPeriod_eq_ok hw
  refine ⟨hin _ _, before, hbefore, ?_, ?_⟩
  · rintro q rfl
    rcases Period.previous_eq p with ⟨first, hfirst, hq, -⟩ | ⟨-, hq, -⟩ | ⟨-, hq⟩ | ⟨-, -, hq⟩ <;>
      rw [hbefore] at hq <;> cases hq
    exact ⟨hfirst, rfl⟩
  · cases before with
    | none =>
        dsimp only
        rw [within_none]
        simp
    | some q =>
        dsimp only
        rw [within_some, hin]
        simp

end Windows

namespace Windows

open Instant

-- Between two readable ends, the windows are the ones that fit the period. The one
-- exception is a period before that would start at the count for no time: its window
-- is empty. Where all rows are readable, the selection stops exactly when the length
-- of the period or the start of the period before is no 64-bit count.
theorem select_fits_period {dateColumn start finish : Value} {p : Period} (rows : List Value)
    (hstart : start.instant = .ok (some p.first)) (hfinish : finish.instant = .ok (some p.last)) :
    (∀ w, select (timeIn dateColumn) start finish rows = .ok w →
      (p.startBefore ≠ missing ∧ Fitted (timeIn dateColumn) p rows w) ∨
      (p.startBefore = missing ∧ w = ⟨rows.filter
        (datedWithin (timeIn dateColumn) p.first.nanoseconds p.last.nanoseconds), [], rows⟩)) ∧
    (Readable (timeIn dateColumn) rows →
      (select (timeIn dateColumn) start finish rows = .error .dateOutOfRange ↔
        p.length ≠ missing ∧ (¬IsCount p.length ∨ ¬IsCount p.startBefore)) ∧
      (select (timeIn dateColumn) start finish rows = .error .missingSpan ↔
        p.length = missing) ∧
      ((∃ w, select (timeIn dateColumn) start finish rows = .ok w) ↔
        IsCount p.length ∧ IsCount p.startBefore)) := by
  simp only [select_eq_ofPeriod rows hstart hfinish]
  refine ⟨fun w h => ofPeriod_fitted h, fun hread => ⟨?_, ?_, ?_⟩⟩
  · rw [ofPeriod_stops hread, p.previous_eq_dateOutOfRange_iff]
  · rw [ofPeriod_stops hread, p.previous_eq_missingSpan_iff]
  · rw [← p.exists_previous_iff]
    constructor
    · rintro ⟨w, h⟩
      obtain ⟨q, hq, -⟩ := ofPeriod_eq_ok h
      exact ⟨q, hq⟩
    · rintro ⟨q, hq⟩
      cases h : ofPeriod (timeIn dateColumn) (some p) rows with
      | ok w => exact ⟨w, rfl⟩
      | error e =>
          rw [(ofPeriod_stops hread e).mp h] at hq
          cases hq

def onDay (day : String) : Value := .object [("day", .text day)]

-- Hours of the first days of 1970.
def atHour (hour : Int) : Value := .object [("day", .int (hour * 3600000000000))]

def secondDay : Period := ⟨⟨86400000000000, by decide⟩, ⟨172800000000000, by decide⟩⟩

theorem select_fits_secondDay :
    (Value.text "1970-01-02").instant = .ok (some secondDay.first) ∧
    (Value.text "1970-01-03").instant = .ok (some secondDay.last) ∧
    Fitted (timeIn (.text "day")) secondDay [atHour 5, atHour 30, atHour 24, atHour 49]
      ⟨[atHour 30, atHour 24], [atHour 5, atHour 24],
        [atHour 5, atHour 30, atHour 24, atHour 49]⟩ := by
  have hstart : (Value.text "1970-01-02").instant = .ok (some secondDay.first) := by cbv
  have hfinish : (Value.text "1970-01-03").instant = .ok (some secondDay.last) := by cbv
  have hselect : select (timeIn (.text "day")) (.text "1970-01-02") (.text "1970-01-03")
      [atHour 5, atHour 30, atHour 24, atHour 49] =
      .ok ⟨[atHour 30, atHour 24], [atHour 5, atHour 24],
        [atHour 5, atHour 30, atHour 24, atHour 49]⟩ := by
    rw [select_eq_ofPeriod _ hstart hfinish]
    rfl
  have hfits := (select_fits_period _ hstart hfinish).1 _ hselect
  exact ⟨hstart, hfinish, (hfits.resolve_right fun h => absurd h.1 (by decide)).2⟩

-- The longest period whose length can be counted, seen from its first moment: that
-- moment belongs to the period before, but not to its window. A period of the length
-- that stands for no time is refused, though not as out of range.
theorem select_misses_previous :
    (select (timeIn (.text "day")) (.text "1969-12-31T23:59:59.999999999")
        (.text "2262-04-11T23:47:16.854775806") [onDay "1969-12-31T23:59:59.999999999"] =
      .ok ⟨[onDay "1969-12-31T23:59:59.999999999"], [],
        [onDay "1969-12-31T23:59:59.999999999"]⟩ ∧
      ¬Fitted (timeIn (.text "day")) ⟨⟨-1, by decide⟩, ⟨9223372036854775806, by decide⟩⟩
        [onDay "1969-12-31T23:59:59.999999999"]
        ⟨[onDay "1969-12-31T23:59:59.999999999"], [],
          [onDay "1969-12-31T23:59:59.999999999"]⟩) ∧
    select (timeIn (.text "day")) (.text "1970-01-01T00:00:00.000000001")
      (.text "1677-09-21T00:12:43.145224193") [] = .error .missingSpan := by
  refine ⟨⟨by cbv, fun hfits => ?_⟩, by cbv⟩
  have hdated : datedWithin (timeIn (.text "day")) (-9223372036854775808) (-1)
      (onDay "1969-12-31T23:59:59.999999999") = true := by cbv
  have hprevious := hfits.previous
  rw [List.filter_cons_of_pos (by exact hdated)] at hprevious
  cases hprevious

end Windows

end Tileboard
