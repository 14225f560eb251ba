import Mathlib
import Tileboard.Proofs.Window.Insertion

namespace Tileboard

namespace Value

-- What denotes no time: a single value that is neither the text of a time nor a count of
-- nanoseconds in reach, or a list with nothing else than such a value.
inductive Dateless : Value → Prop
  | single {v : Value} (hkey : v.canBeKey = true) (h : v.scalarInstant? = none) : Dateless v
  | only {v : Value} (hlist : ∀ items, v ≠ .list items) (h : v.scalarInstant? = none) :
      Dateless (.list [v])

-- What cannot be asked for a time: an object, and a list unless it has one item, which is no list.
inductive Unreadable : Value → Prop
  | object (fields : List (String × Value)) : Unreadable (.object fields)
  | list {items : List Value} (h : ∀ v, items = [v] → ∃ inner, v = .list inner) :
      Unreadable (.list items)

variable {v : Value}

theorem instant_of_key (h : v.canBeKey = true) : v.instant = .ok v.scalarInstant? := by
  cases v with
  | list items => cases h
  | object fields => cases h
  | _ => rfl

theorem instant_of_only (h : ∀ items, v ≠ .list items) :
    (Value.list [v]).instant = .ok v.scalarInstant? := by
  cases v with
  | list items => exact absurd rfl (h items)
  | _ => rfl

theorem instant_of_grid {items : List Value} (h : isGrid items = true) :
    (Value.list items).instant = .error .wrongType := by
  unfold instant
  exact if_pos h

theorem Dateless.instant_eq (h : v.Dateless) : v.instant = .ok none := by
  cases h with
  | single hkey h => rw [instant_of_key hkey, h]
  | only hlist h => rw [instant_of_only hlist, h]

theorem Unreadable.instant_eq (h : v.Unreadable) :
    ∃ e, (e = .notADate ∨ e = .wrongType) ∧ v.instant = .error e := by
  cases h with
  | object fields => exact ⟨_, .inl rfl, rfl⟩
  | @list items h =>
      cases hgrid : isGrid items with
      | true => exact ⟨_, .inr rfl, instant_of_grid hgrid⟩
      | false =>
          refine ⟨_, .inl rfl, ?_⟩
          unfold instant
          simp only [hgrid, Bool.false_eq_true, if_false]
          split
          · rename_i item
            obtain ⟨inner, rfl⟩ := h item rfl
            cases hgrid
          · rfl

-- Each value denotes a time, denotes none, or cannot be asked.
theorem dated_or_dateless (v : Value) :
    (∃ t, v.instant = .ok (some t)) ∨ v.Dateless ∨ v.Unreadable := by
  have hscalar : ∀ w : Value, (v.instant = .ok w.scalarInstant?) →
      (w.scalarInstant? = none → v.Dateless) →
      (∃ t, v.instant = .ok (some t)) ∨ v.Dateless ∨ v.Unreadable := by
    intro w hinstant hnone
    cases h : w.scalarInstant? with
    | none => exact .inr (.inl (hnone h))
    | some t => exact .inl ⟨t, h ▸ hinstant⟩
  cases v with
  | object fields => exact .inr (.inr (.object fields))
  | list items =>
      by_cases honly : ∃ item, items = [item] ∧ ∀ inner, item ≠ .list inner
      · obtain ⟨item, rfl, hlist⟩ := honly
        exact hscalar item (instant_of_only hlist) (.only hlist)
      · refine .inr (.inr (.list fun item hitems => ?_))
        by_contra hlist
        exact honly ⟨item, hitems, not_exists.mp hlist⟩
  | null => exact hscalar .null rfl (.single rfl)
  | bool b => exact hscalar (.bool b) rfl (.single rfl)
  | number n => exact hscalar (.number n) rfl (.single rfl)
  | text s => exact hscalar (.text s) rfl (.single rfl)

theorem instant_eq_none_iff : v.instant = .ok none ↔ v.Dateless := by
  refine ⟨fun h => ?_, Dateless.instant_eq⟩
  rcases dated_or_dateless v with ⟨t, ht⟩ | hdateless | hunreadable
  · cases h.symm.trans ht
  · exact hdateless
  · obtain ⟨e, -, he⟩ := hunreadable.instant_eq
    cases h.symm.trans he

theorem unreadable_of_error {e : Fault} (h : v.instant = .error e) : v.Unreadable := by
  rcases dated_or_dateless v with ⟨t, ht⟩ | hdateless | hunreadable
  · cases h.symm.trans ht
  · cases h.symm.trans hdateless.instant_eq
  · exact hunreadable

theorem instant_eq_error {e : Fault} (h : v.instant = .error e) :
    e = .notADate ∨ e = .wrongType := by
  obtain ⟨e', hcause, he⟩ := (unreadable_of_error h).instant_eq
  cases h.symm.trans he
  exact hcause

end Value

theorem Inserted.mem {α : Type} {P : α → Prop} {xs ys : List α} (h : Inserted P xs ys) {y : α}
    (hy : y ∈ ys) : y ∈ xs ∨ P y := by
  induction h with
  | nil => cases hy
  | keep x _ ih =>
      rcases List.mem_cons.mp hy with rfl | hy
      · exact .inl List.mem_cons_self
      · exact (ih hy).imp_left (List.mem_cons_of_mem x)
  | insert hz _ ih =>
      rcases List.mem_cons.mp hy with rfl | hy
      · exact .inr hz
      · exact ih hy

theorem Inserted.imp {α : Type} {P Q : α → Prop} (hPQ : ∀ y, P y → Q y) {xs ys : List α}
    (h : Inserted P xs ys) : Inserted Q xs ys := by
  induction h with
  | nil => exact .nil
  | keep x _ ih => exact .keep x ih
  | insert hy _ ih => exact .insert (hPQ _ hy) ih

namespace Windows

section Readable

variable {α : Type} {time : α → Except Fault (Option Instant)} {p : Period} {rows others : List α}

theorem readable_of_dated {times : List (α × Option Instant)} (h : dated time rows = .ok times) :
    Readable time rows := by
  induction rows generalizing times with
  | nil => exact fun _ hrow => nomatch hrow
  | cons row rest ih =>
      obtain ⟨t, ht, h⟩ := bind_eq_ok_iff.mp h
      obtain ⟨later, hlater, -⟩ := bind_eq_ok_iff.mp h
      exact List.forall_mem_cons.mpr ⟨⟨t, ht⟩, ih hlater⟩

theorem readable_of_ofPeriod {w : Windows α} (h : ofPeriod time (some p) rows = .ok w) :
    Readable time rows := by
  obtain ⟨q, -, h⟩ := bind_eq_ok_iff.mp h
  obtain ⟨times, htimes, -⟩ := bind_eq_ok_iff.mp h
  exact readable_of_dated htimes

-- A row whose time is asked for in vain stops the windows of each period.
theorem ofPeriod_eq_error {q : Option Period} (hq : p.previous = .ok q)
    (h : ∃ row ∈ rows, ∃ e, time row = .error e) :
    ∃ row ∈ rows, ∃ e, time row = .error e ∧ ofPeriod time (some p) rows = .error e := by
  cases hdated : dated time rows with
  | ok times =>
      obtain ⟨row, hrow, e, he⟩ := h
      obtain ⟨t, ht⟩ := readable_of_dated hdated row hrow
      cases he.symm.trans ht
  | error e =>
      obtain ⟨row, hrow, he⟩ := dated_eq_error hdated
      refine ⟨row, hrow, e, he, ?_⟩
      unfold ofPeriod
      simp only [hq, hdated, ok_bind, error_bind]

-- What comes to stop a selection that succeeded is one of the rows put in.
theorem ofPeriod_stopped {P : α → Prop} {w : Windows α} (hw : ofPeriod time (some p) rows = .ok w)
    (h : Inserted P rows others) (hstop : ∃ row ∈ others, ∃ e, time row = .error e) :
    ∃ row ∈ others, P row ∧ ∃ e, time row = .error e ∧
      ofPeriod time (some p) others = .error e := by
  obtain ⟨q, hq, -⟩ := ofPeriod_eq_ok hw
  obtain ⟨row, hrow, e, he, hresult⟩ := ofPeriod_eq_error hq hstop
  rcases h.mem hrow with hrow' | hP
  · obtain ⟨t, ht⟩ := readable_of_ofPeriod hw row hrow'
    cases he.symm.trans ht
  · exact ⟨row, hrow, hP, e, he, hresult⟩

-- Rows that have no time come into no window.
theorem ofPeriod_of_inserted {w : Windows α} (hw : ofPeriod time (some p) rows = .ok w)
    (h : Inserted (fun row => time row = .ok none) rows others) :
    ofPeriod time (some p) others = .ok ⟨w.current, w.previous, others⟩ := by
  have hread : Readable time others := fun row hrow =>
    (h.mem hrow).elim (readable_of_ofPeriod hw row) fun hnone => ⟨none, hnone⟩
  obtain ⟨q, hq, -⟩ := ofPeriod_eq_ok hw
  cases hother : ofPeriod time (some p) others with
  | error e => cases hq.symm.trans ((ofPeriod_stops hread e).mp hother)
  | ok other =>
      have hsame := windows_of_inserted (h.imp fun _ => unseen_of_none) hw hother
      rw [← hsame.1, ← hsame.2, ← all_eq hother]

end Readable

section Column

variable {dateColumn start finish row v : Value} {rows : List Value} {w : Windows Value}

theorem timeIn_of_cell (h : row.cell dateColumn = .ok v) : timeIn dateColumn row = v.instant := by
  unfold timeIn
  rw [h, ok_bind]

-- Rows whose date is none come into no window of a selection that succeeds. With others that
-- cannot be asked for a time it succeeds no more, unless it has no period, when no row is asked.
theorem dateless_rows_in_no_window (h : select (timeIn dateColumn) start finish rows = .ok w) :
    (∀ others, Inserted (fun row => ∃ v, row.cell dateColumn = .ok v ∧ v.Dateless) rows others →
      select (timeIn dateColumn) start finish others = .ok ⟨w.current, w.previous, others⟩) ∧
    ∀ others, Inserted (fun row => ∃ v, row.cell dateColumn = .ok v) rows others →
      (∃ row ∈ others, ∃ v, row.cell dateColumn = .ok v ∧ v.Unreadable) →
      (∀ p, Period.ofValues start finish = .ok (some p) →
        ∃ row ∈ others, ∃ v e, row.cell dateColumn = .ok v ∧ v.Unreadable ∧ v.instant = .error e ∧
          (e = .notADate ∨ e = .wrongType) ∧
          select (timeIn dateColumn) start finish others = .error e) ∧
      (Period.ofValues start finish = .ok none →
        select (timeIn dateColumn) start finish others = .ok ⟨[], [], others⟩) := by
  obtain ⟨period, hperiod, hw⟩ := bind_eq_ok_iff.mp h
  have hselect : ∀ rows, select (timeIn dateColumn) start finish rows =
      ofPeriod (timeIn dateColumn) period rows := by
    intro rows
    unfold select
    rw [hperiod, ok_bind]
  refine ⟨fun others hothers => ?_,
    fun others hothers hunreadable => ⟨fun p hp => ?_, fun hnone => ?_⟩⟩
  · rw [hselect]
    cases period with
    | none =>
        cases hw
        rfl
    | some p =>
        refine ofPeriod_of_inserted hw (hothers.imp ?_)
        rintro row ⟨v, hv, hdateless⟩
        rw [timeIn_of_cell hv, Value.instant_eq_none_iff.mpr hdateless]
  · cases hperiod.symm.trans hp
    have hstop : ∃ row ∈ others, ∃ e, timeIn dateColumn row = .error e := by
      obtain ⟨row, hrow, v, hv, hunreadable⟩ := hunreadable
      obtain ⟨e, -, he⟩ := hunreadable.instant_eq
      exact ⟨row, hrow, e, (timeIn_of_cell hv).trans he⟩
    obtain ⟨row, hrow, ⟨v, hv⟩, e, he, hresult⟩ := ofPeriod_stopped hw hothers hstop
    rw [timeIn_of_cell hv] at he
    exact ⟨row, hrow, v, e, hv, Value.unreadable_of_error he, he, Value.instant_eq_error he,
      (hselect others).trans hresult⟩
  · cases hperiod.symm.trans hnone
    rw [hselect]
    rfl

def holding (v : Value) : Value := .object [("day", v)]

-- The four rows with a date, among them one without, and ones that have null, a truth value, a
-- word, a count past the reach and a list with nothing but null in place of it.
def datelessAmong : List Value :=
  [.object [], atHour 5, holding .null, holding (.bool true), atHour 30, holding (.text "soon"),
    atHour 24, holding (.int 9223372036854775808), atHour 49, holding (.list [.null])]

-- The same four rows, and lists in place of the date of two more.
def listsAmong : List Value :=
  [atHour 5, atHour 30, holding (.list [.text "1970-01-02", .text "1970-01-03"]), atHour 24,
    holding (.list [.list [], .list []]), atHour 49]

theorem datelessAmong_in_no_window :
    select (timeIn (.text "day")) (.text "1970-01-02") (.text "1970-01-03") datelessAmong =
        .ok ⟨ofSecondDay.current, ofSecondDay.previous, datelessAmong⟩ ∧
      ∃ e, (e = .notADate ∨ e = .wrongType) ∧
        select (timeIn (.text "day")) (.text "1970-01-02") (.text "1970-01-03") listsAmong =
          .error e := by
  have hselect : select (timeIn (.text "day")) (.text "1970-01-02") (.text "1970-01-03") fourHours =
      .ok ofSecondDay := by cbv
  have hperiod : Period.ofValues (.text "1970-01-02") (.text "1970-01-03") =
      .ok (some secondDay) := by cbv
  have hcell : ∀ v, (holding v).cell (.text "day") = .ok v := fun _ => rfl
  have hword : (Value.text "soon").scalarInstant? = none := by decide +kernel
  have hfar : (Value.int 9223372036854775808).scalarInstant? = none :=
    Instant.ofNanoseconds?_eq_none_iff.mpr
      (.inr (by simp only [Instant.IsCount, Instant.reach]; omega))
  obtain ⟨hdateless, hunreadable⟩ := dateless_rows_in_no_window hselect
  constructor
  · refine hdateless datelessAmong ?_
    refine .insert ⟨.null, rfl, .single rfl rfl⟩ (.keep _ ?_)
    refine .insert ⟨_, hcell _, .single rfl rfl⟩ (.insert ⟨_, hcell _, .single rfl rfl⟩ ?_)
    refine .keep _ (.insert ⟨_, hcell _, .single rfl hword⟩ (.keep _ ?_))
    refine .insert ⟨_, hcell _, .single rfl hfar⟩ (.keep _ ?_)
    exact .insert ⟨_, hcell _, .only (by simp) rfl⟩ .nil
  · have hlists : Inserted (fun row => ∃ v, row.cell (.text "day") = .ok v) fourHours listsAmong :=
      .keep _ (.keep _ (.insert ⟨_, hcell _⟩ (.keep _ (.insert ⟨_, hcell _⟩ (.keep _ .nil)))))
    have hrow : ∃ row ∈ listsAmong, ∃ v, row.cell (.text "day") = .ok v ∧ v.Unreadable :=
      ⟨holding (.list [.text "1970-01-02", .text "1970-01-03"]), by simp [listsAmong], _, hcell _,
        .list (by simp)⟩
    obtain ⟨row, -, v, e, -, -, -, he, hstops⟩ :=
      (hunreadable listsAmong hlists hrow).1 secondDay hperiod
    exact ⟨e, he, hstops⟩

-- With an object or an empty list in place of a date a row stops the selection, and with a list
-- that has a time alone it comes into a window.
theorem object_stops_selection :
    select (timeIn (.text "day")) (.text "1970-01-02") (.text "1970-01-03") [] =
        .ok ⟨[], [], []⟩ ∧
      select (timeIn (.text "day")) (.text "1970-01-02") (.text "1970-01-03")
        [holding (.object [])] = .error .notADate ∧
      select (timeIn (.text "day")) (.text "1970-01-02") (.text "1970-01-03")
        [holding (.list [])] = .error .notADate ∧
      select (timeIn (.text "day")) (.text "1970-01-02") (.text "1970-01-03")
        [holding (.list [.text "1970-01-03"])] =
          .ok ⟨[holding (.list [.text "1970-01-03"])], [],
            [holding (.list [.text "1970-01-03"])]⟩ := by
  exact ⟨by cbv, by cbv, by cbv, by cbv⟩

end Column

end Windows

end Tileboard
