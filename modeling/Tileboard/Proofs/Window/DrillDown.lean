import Tileboard.Filter.DrillDown
import Tileboard.Proofs.Filter.Passing
import Tileboard.Proofs.Instant.Written
import Tileboard.Proofs.Window.Comparison

namespace Tileboard

namespace DrillDown

open Windows (timeIn timeOf)

def HasDate (dateColumn row : Value) : Prop :=
  row.cell dateColumn = .ok .null ∨
    ∃ s t, row.cell dateColumn = .ok (.text s) ∧ Instant.ofText? s = some t

def isWrittenWithin (dateColumn : Value) (start finish : String) (row : Value) : Bool :=
  match row.cell dateColumn with
  | .ok (.text s) => !decide (s < start) && !decide (finish < s)
  | _ => false

def isTimedWithin (dateColumn : Value) (period : Option Period) (row : Value) : Bool :=
  Period.covers period (timeOf (timeIn dateColumn) row)

-- The date of a row, if it is a text, begins with a plain date, and no offset follows.
def IsLocal (dateColumn row : Value) : Prop :=
  ∀ s, row.cell dateColumn = .ok (.text s) → ∃ d rest, s = Date.text d ++ rest ∧ d.IsPlain ∧
    ∀ c ∈ rest.toList, c ≠ '+' ∧ c ≠ '-'

-- The time of a row is the last moment of a period, written in another way than the period's
-- own end.
def isEndRewritten (dateColumn : Value) (p : Period) (finish : String) (row : Value) : Bool :=
  match row.cell dateColumn with
  | .ok (.text s) => decide (Instant.ofText? s = some p.last) && s != finish
  | _ => false

section Rows

variable {dateColumn row : Value}

theorem timeOf_text {s : String} (h : row.cell dateColumn = .ok (.text s)) :
    timeOf (timeIn dateColumn) row = Instant.ofText? s := by
  unfold timeOf timeIn
  rw [h]
  rfl

theorem timeOf_null (h : row.cell dateColumn = .ok .null) :
    timeOf (timeIn dateColumn) row = none := by
  unfold timeOf timeIn
  rw [h]
  rfl

-- The two filters of the range, taken together.
theorem acceptsAll_range {start finish : String} {m : Matcher} (hdate : HasDate dateColumn row)
    (hm : (m.accepts row).Answers) :
    (Matcher.acceptsAll [.compare dateColumn .greaterOrEqual (.text start),
        .compare dateColumn .lessOrEqual (.text finish), m] row).Answers ∧
    (Matcher.acceptsAll [.compare dateColumn .greaterOrEqual (.text start),
        .compare dateColumn .lessOrEqual (.text finish), m] row).isTrue =
      (isWrittenWithin dateColumn start finish row && (m.accepts row).isTrue) := by
  obtain ⟨cell, hcell⟩ : ∃ cell, row.cell dateColumn = .ok cell :=
    hdate.elim (fun h => ⟨_, h⟩) fun ⟨_, _, h, _⟩ => ⟨_, h⟩
  have hstart := Matcher.accepts_compare .greaterOrEqual (.text start) hcell
  have hfinish := Matcher.accepts_compare .lessOrEqual (.text finish) hcell
  constructor
  · refine Matcher.acceptsAll_answers fun n hn => ?_
    simp only [List.mem_cons, List.not_mem_nil, or_false] at hn
    rcases hn with rfl | rfl | rfl
    · exact ⟨_, hstart⟩
    · exact ⟨_, hfinish⟩
    · exact hm
  · rw [Matcher.isTrue_acceptsAll]
    simp only [List.all_cons, List.all_nil, Bool.and_true, Traced.isTrue_of_ok hstart,
      Traced.isTrue_of_ok hfinish, ← Bool.and_assoc]
    congr 1
    unfold isWrittenWithin
    rw [hcell]
    rcases hdate with h | ⟨s, t, h, -⟩
    · rw [h] at hcell
      cases hcell
      rfl
    · rw [h] at hcell
      cases hcell
      rfl

-- Written and timed ranges differ for a local row only where it rewrites the end.
theorem isWrittenWithin_eq {a b : Date} {p : Period} (ha : a.IsPlain) (hb : b.IsPlain)
    (hfirst : p.first.nanoseconds = a.midnight) (hlast : p.last.nanoseconds = b.midnight)
    (hdate : HasDate dateColumn row) (hlocal : IsLocal dateColumn row) :
    isWrittenWithin dateColumn a.text b.text row = (isTimedWithin dateColumn (some p) row &&
      !isEndRewritten dateColumn p b.text row) := by
  unfold isWrittenWithin isTimedWithin isEndRewritten
  rcases hdate with h | ⟨s, t, h, ht⟩
  · rw [timeOf_null h, h]
    rfl
  · obtain ⟨d, rest, rfl, hd, hsign⟩ := hlocal s h
    have hrange := Date.ofText?_unsigned hd ht hsign
    have hend : Instant.ofText? (d.text ++ rest) = some p.last ↔ t.nanoseconds = b.midnight := by
      rw [ht, Option.some.injEq, ← hlast]
      exact ⟨fun h => h ▸ rfl, Instant.eq_of_nanoseconds⟩
    have halone : rest = "" → t.nanoseconds = d.midnight := by
      rintro rfl
      rw [String.append_empty, Date.ofText?_text hd] at ht
      exact Instant.ofNanoseconds?_eq_some_iff.mp ht
    rw [timeOf_text h, ht, h, Bool.eq_iff_iff]
    clear hlocal hsign
    simp only [Bool.and_eq_true, Bool.not_eq_true', decide_eq_false_iff_not, Period.covers,
      Period.contains, Instant.isWithin, Instant.atOrBefore, decide_eq_true_eq, hfirst, hlast,
      Bool.and_eq_false_iff, bne_eq_false_iff_eq, hend, Date.text_append_lt_iff hd ha,
      Date.text_lt_append_iff hb hd, Date.text_append_eq_iff hd hb]
    clear hend
    unfold Date.midnight Instant.nanosecondsPerDay at hrange halone ⊢
    by_cases hday : d = b
    · subst hday
      by_cases hrest : rest = ""
      · simp [hrest, halone hrest]
      · simp only [hrest, ne_eq, not_lt, lt_self_iff_false, not_false_eq_true, and_self, or_true,
          not_true_eq_false, and_false, or_false, false_iff, not_and, Decidable.not_not, and_imp]
        omega
    · have hne := mt (Date.toDay_inj hd.valid hb.valid).mp hday
      simp only [hday, Ne.symm hday, ne_eq, not_lt, false_and, or_false]
      omega

end Rows

theorem current_eq_filter {dateColumn : Value} {period : Option Period} {rows : List Value}
    {w : Windows Value} (h : Windows.ofPeriod (timeIn dateColumn) period rows = .ok w) :
    w.current = rows.filter (isTimedWithin dateColumn period) := by
  rw [Windows.current_eq_within h, Windows.within, List.filter_map, List.map_map]
  exact List.map_id _

-- Both ends are texts with characters, so the range is always asked for.
theorem filters_eq {click dateColumn : Value} {start finish : String} {own : Filter}
    (hstart : start ≠ "") (hfinish : finish ≠ "") (h : Filter.ofValue click = .ok own) :
    filters click dateColumn (.text start) (.text finish) true =
      .ok [.leaf dateColumn (some (.compare .greaterOrEqual)) (.text start),
        .leaf dateColumn (some (.compare .lessOrEqual)) (.text finish), own] := by
  have hends : (true && (Value.text start).holds && (Value.text finish).holds) = true := by
    simp [Value.holds, hstart, hfinish]
  unfold filters
  rw [h, ok_bind, if_pos hends]
  rfl

theorem apply_eq_filter {mode : Mode} {dateColumn : Value} {start finish : String} {own : Filter}
    {m : Matcher} {rows : List Value} (hm : (Matcher.ofFilter mode own).result = .ok m)
    (hdates : ∀ row ∈ rows, HasDate dateColumn row)
    (hanswers : ∀ row ∈ rows, (m.accepts row).Answers) :
    (Selection.apply id mode [.leaf dateColumn (some (.compare .greaterOrEqual)) (.text start),
        .leaf dateColumn (some (.compare .lessOrEqual)) (.text finish), own] rows).result =
      .ok (rows.filter fun row =>
        isWrittenWithin dateColumn start finish row && (m.accepts row).isTrue) := by
  have hready : (Matcher.ofFilters mode [.leaf dateColumn (some (.compare .greaterOrEqual))
      (.text start), .leaf dateColumn (some (.compare .lessOrEqual)) (.text finish), own]).result =
      .ok [.compare dateColumn .greaterOrEqual (.text start),
        .compare dateColumn .lessOrEqual (.text finish), m] := by
    simp only [Matcher.ofFilters, Traced.result_bind, hm]
    rfl
  unfold Selection.apply Selection.isIdle
  cases rows with
  | nil => rfl
  | cons row rest =>
      simp only [List.isEmpty_cons, Bool.or_self, Bool.false_eq_true, if_false]
      rw [Traced.result_bind, hready, ok_bind, Selection.passing, Selection.keep_eq_filter]
      · congr 1
        exact List.filter_congr fun r hr => (acceptsAll_range (hdates r hr) (hanswers r hr)).2
      · exact fun r hr => (acceptsAll_range (hdates r hr) (hanswers r hr)).1

theorem ends_eq_midnight {a b : Date} {p : Period} (ha : a.IsPlain) (hb : b.IsPlain)
    (h : Period.ofValues (.text a.text) (.text b.text) = .ok (some p)) :
    p.first.nanoseconds = a.midnight ∧ p.last.nanoseconds = b.midnight := by
  have hends : Period.ofEnds (Instant.ofText? a.text) (Instant.ofText? b.text) = some p :=
    Except.ok.inj h
  rw [Date.ofText?_text ha, Date.ofText?_text hb] at hends
  cases hfirst : Instant.ofNanoseconds? a.midnight with
  | none => simp [hfirst, Period.ofEnds] at hends
  | some first =>
      cases hlast : Instant.ofNanoseconds? b.midnight with
      | none => simp [hlast, Period.ofEnds] at hends
      | some last =>
          rw [hfirst, hlast] at hends
          cases hends
          exact ⟨Instant.ofNanoseconds?_eq_some_iff.mp hfirst,
            Instant.ofNanoseconds?_eq_some_iff.mp hlast⟩

-- Two tests keep the same of a list exactly when they agree on what is in it.
theorem filter_eq_filter_iff {α : Type} {p q : α → Bool} {items : List α} :
    items.filter p = items.filter q ↔ ∀ a ∈ items, p a = q a := by
  refine ⟨fun h a ha => ?_, List.filter_congr⟩
  have hmem : a ∈ items.filter p ↔ a ∈ items.filter q := by rw [h]
  simp only [List.mem_filter, ha, true_and] at hmem
  exact Bool.eq_iff_iff.mpr hmem

-- A drill-down shows what its tile counts exactly when the texts and the times of the dates
-- agree on the range. Among local dates it leaves out those that rewrite the end, and no more.
theorem drilled_reproduces_counted {mode : Mode} {dateColumn click : Value} {a b : Date}
    {rows : List Value} {w : Windows Value} {own : Filter} {m : Matcher}
    (ha : a.IsPlain) (hb : b.IsPlain) (hdates : ∀ row ∈ rows, HasDate dateColumn row)
    (hselect : Windows.select (timeIn dateColumn) (.text a.text) (.text b.text) rows = .ok w)
    (hown : Filter.ofValue click = .ok own) (hm : (Matcher.ofFilter mode own).result = .ok m)
    (hanswers : ∀ row ∈ rows, (m.accepts row).Answers) :
    ∃ period fs drilled counted,
      Period.ofValues (.text a.text) (.text b.text) = .ok period ∧
      filters click dateColumn (.text a.text) (.text b.text) true = .ok fs ∧
      (Selection.apply id mode fs rows).result = .ok drilled ∧
      (Selection.keep m.accepts w.current).result = .ok counted ∧
      (drilled = counted ↔ ∀ row ∈ rows, (m.accepts row).isTrue →
        isWrittenWithin dateColumn a.text b.text row = isTimedWithin dateColumn period row) ∧
      ∀ p, period = some p → (∀ row ∈ rows, IsLocal dateColumn row) →
        drilled = counted.filter fun row => !isEndRewritten dateColumn p b.text row := by
  obtain ⟨period, hperiod, hw⟩ := bind_eq_ok_iff.mp hselect
  have hcurrent := current_eq_filter hw
  have hcounted : (Selection.keep m.accepts w.current).result =
      .ok (w.current.filter fun row => (m.accepts row).isTrue) :=
    Selection.keep_eq_filter fun row hrow =>
      hanswers row (by rw [hcurrent] at hrow; exact List.mem_of_mem_filter hrow)
  rw [hcurrent, List.filter_filter] at hcounted
  refine ⟨period, _, _, _, hperiod, filters_eq (Date.text_ne_empty ha) (Date.text_ne_empty hb) hown,
    apply_eq_filter hm hdates hanswers, hcurrent ▸ hcounted, ?_, ?_⟩
  · rw [filter_eq_filter_iff]
    refine forall₂_congr fun row _ => ?_
    cases (m.accepts row).isTrue <;> simp
  · rintro p rfl hlocal
    obtain ⟨hfirst, hlast⟩ := ends_eq_midnight ha hb hperiod
    rw [List.filter_filter]
    refine List.filter_congr fun row hrow => ?_
    rw [isWrittenWithin_eq ha hb hfirst hlast (hdates row hrow) (hlocal row hrow)]
    cases isTimedWithin dateColumn (some p) row <;>
      cases isEndRewritten dateColumn p b.text row <;> simp

-- A month, and rows with a time inside it, with its last moment and without a time.
def monthStart : Date := ⟨2024, 2, 1⟩

def monthEnd : Date := ⟨2024, 2, 29⟩

def month : Period :=
  ⟨⟨1706745600000000000, by decide⟩, ⟨1709164800000000000, by decide⟩⟩

def monthRows : List Value :=
  [Windows.onDay "2024-02-15T10:30:00", Windows.onDay "2024-02-29T00:00:00",
    .object [("day", .null)]]

def monthWindows : Windows Value :=
  ⟨[Windows.onDay "2024-02-15T10:30:00", Windows.onDay "2024-02-29T00:00:00"], [], monthRows⟩

-- A click on the rows with a day.
def hasDayClick : Value := .object [("column", .text "day"), ("isNotNull", .bool true)]

def hasDayMatcher : Matcher := .isNull (.text "day") false

theorem month_drilled :
    ∃ fs drilled counted,
      filters hasDayClick (.text "day") (.text monthStart.text) (.text monthEnd.text) true =
        .ok fs ∧
      (Selection.apply id .strict fs monthRows).result = .ok drilled ∧
      (Selection.keep hasDayMatcher.accepts monthWindows.current).result = .ok counted ∧
      drilled = List.filter (fun row => !isEndRewritten (.text "day") month monthEnd.text row)
        counted := by
  have hstart : monthStart.IsPlain := ⟨by decide, by decide⟩
  have hend : monthEnd.IsPlain := ⟨by decide, by decide⟩
  have hselect : Windows.select (timeIn (.text "day")) (.text monthStart.text)
      (.text monthEnd.text) monthRows = .ok monthWindows := by cbv
  have hdates : ∀ row ∈ monthRows, HasDate (.text "day") row := by
    intro row hrow
    simp only [monthRows, List.mem_cons, List.not_mem_nil, or_false] at hrow
    rcases hrow with rfl | rfl | rfl
    · exact .inr ⟨"2024-02-15T10:30:00", ⟨1707993000000000000, by decide⟩, rfl, by cbv⟩
    · exact .inr ⟨"2024-02-29T00:00:00", ⟨1709164800000000000, by decide⟩, rfl, by cbv⟩
    · exact .inl rfl
  have hlocal : ∀ row ∈ monthRows, IsLocal (.text "day") row := by
    intro row hrow s hs
    simp only [monthRows, List.mem_cons, List.not_mem_nil, or_false] at hrow
    rcases hrow with rfl | rfl | rfl
    · cases hs
      exact ⟨⟨2024, 2, 15⟩, "T10:30:00", by cbv, ⟨by decide, by decide⟩, by simp⟩
    · cases hs
      exact ⟨monthEnd, "T00:00:00", by cbv, hend, by simp⟩
    · cases hs
  have hanswers : ∀ row ∈ monthRows, (hasDayMatcher.accepts row).Answers := by
    intro row hrow
    simp only [monthRows, List.mem_cons, List.not_mem_nil, or_false] at hrow
    rcases hrow with rfl | rfl | rfl <;> exact ⟨_, rfl⟩
  have hmonth : Period.ofValues (.text monthStart.text) (.text monthEnd.text) = .ok (some month) := by
    cbv
  have hclick : Filter.ofValue hasDayClick = .ok Windows.hasDay := rfl
  have hready : (Matcher.ofFilter .strict Windows.hasDay).result = .ok hasDayMatcher := rfl
  obtain ⟨period, fs, drilled, counted, hperiod, hfs, hdrilled, hcounted, -, hlast⟩ :=
    drilled_reproduces_counted hstart hend hdates hselect hclick hready hanswers
  rw [hmonth] at hperiod
  cases hperiod
  exact ⟨fs, drilled, counted, hfs, hdrilled, hcounted, hlast month rfl hlocal⟩

-- A row at the first moment of the last day is counted, but its text comes after that of the
-- day: the drill-down of the tile does not show it.
theorem last_day_not_drilled :
    ∃ w fs,
      Windows.select (timeIn (.text "day")) (.text "2024-02-01") (.text "2024-02-29")
        [Windows.onDay "2024-02-29T00:00:00"] = .ok w ∧
      filters hasDayClick (.text "day") (.text "2024-02-01") (.text "2024-02-29") true = .ok fs ∧
      (Selection.keep (Matcher.accepts (.isNull (.text "day") false)) w.current).result =
        .ok [Windows.onDay "2024-02-29T00:00:00"] ∧
      (Selection.apply id .permissive fs [Windows.onDay "2024-02-29T00:00:00"]).result =
        .ok [] :=
  ⟨⟨[Windows.onDay "2024-02-29T00:00:00"], [], [Windows.onDay "2024-02-29T00:00:00"]⟩, _,
    by cbv, rfl, by cbv, by cbv⟩

end DrillDown

end Tileboard
