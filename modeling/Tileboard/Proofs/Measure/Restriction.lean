import Tileboard.Measure.Count
import Tileboard.Measure.Duration
import Tileboard.Proofs.Measure.Grouping

namespace Tileboard

namespace Measure

def readyFor (mode : Mode) : Option Filter → Traced (Option Matcher)
  | some f => some <$> Matcher.ofFilter mode f
  | none => return none

def countOf (mode : Mode) (f : Filter) (distinctColumn : Value) (active previous : List Value) :
    Traced Outcome := do
  count (← Matcher.ofFilter mode f) distinctColumn false active previous

def aggregateOf (mode : Mode) (f : Option Filter) (field : Value) (metric : Option Metric)
    (compare : Bool) (active previous : List Value) : Traced Outcome := do
  aggregate (← readyFor mode f) field metric compare active previous

def groupedOf (mode : Mode) (f : Option Filter) (column field : Value) (metric : Option Metric)
    (filterType : Value) (active : List Value) : Traced Outcome := do
  grouped (← readyFor mode f) column field metric filterType active

def durationOf (mode : Mode) (f : Option Filter) (start finish : Value) (rows : List Value) :
    Traced Outcome := do
  meanDuration (← readyFor mode f) start finish rows

theorem readyFor_some {mode : Mode} {f : Filter} {m : Matcher}
    (hm : (Matcher.ofFilter mode f).result = .ok m) :
    (readyFor mode (some f)).result = .ok (some m) := by
  rw [readyFor, map_eq_pure_bind, Traced.result_bind, hm]
  rfl

def accepted (m : Matcher) (rows : List Value) : List Value :=
  rows.filter fun row => (m.accepts row).isTrue

section Restriction

variable {m : Matcher} {rows active previous : List Value}

def Answered (m : Matcher) (rows : List Value) : Prop := ∀ row ∈ rows, (m.accepts row).Answers

theorem keep_accepted (h : Answered m rows) :
    (Selection.keep m.accepts rows).result = .ok (accepted m rows) :=
  Selection.keep_eq_filter h

theorem apply_one {mode : Mode} {f : Filter} (hm : (Matcher.ofFilter mode f).result = .ok m)
    (h : Answered m rows) :
    (Selection.apply id mode [f] rows).result = .ok (accepted m rows) := by
  have hms : (Matcher.ofFilters mode [f]).result = .ok [m] := by
    rw [Matcher.ofFilters, Traced.result_bind, hm]
    rfl
  rw [Selection.apply_result hms fun row hrow n hn => List.mem_singleton.mp hn ▸ h row hrow]
  simp only [List.all_cons, List.all_nil, Bool.and_true]
  rfl

-- The conjunction of nothing accepts every row.
theorem keep_unasked (rows : List Value) :
    (Selection.keep (Matcher.accepts (.all [])) rows).result = .ok rows := by
  rw [Selection.keep_eq_filter fun row _ => ⟨true, rfl⟩]
  exact congrArg Except.ok (List.filter_eq_self.mpr fun row _ => rfl)

-- What becomes of the sizes of the matching rows of both windows and of all rows of the first.
def outcomeOfSizes (shareOfBase : Bool) (value before : Nat) (base : Except Fault Nat) :
    Except Fault Outcome := do
  if shareOfBase then
    let percent ← rounded (Number.percentageOf value (baseOf (← base))) 1
    return ⟨.int value, .int before, ⟨none, none, percent⟩, none⟩
  else Outcome.compared (.int value) (.int before)

theorem count_result {distinctColumn : Value} {shareOfBase : Bool} {here before : List Value}
    (hhere : (Selection.keep m.accepts active).result = .ok here)
    (hbefore : (Selection.keep m.accepts previous).result = .ok before) :
    (count m distinctColumn shareOfBase active previous).result = (do
      let value ← size distinctColumn here
      let valueBefore ← size distinctColumn before
      outcomeOfSizes shareOfBase value valueBefore (size distinctColumn active)) := by
  unfold count outcomeOfSizes
  rw [Traced.result_bind, hhere, ok_bind, Traced.result_bind, hbefore, ok_bind]
  simp only [Traced.result_lift_bind]
  cases shareOfBase with
  | true =>
      simp only [if_true, Traced.result_lift_bind]
      rfl
  | false => rfl

theorem count_accepted (hactive : Answered m active) (hprevious : Answered m previous)
    (distinctColumn : Value) : (count m distinctColumn false active previous).result =
      (count (.all []) distinctColumn false (accepted m active) (accepted m previous)).result := by
  rw [count_result (keep_accepted hactive) (keep_accepted hprevious),
    count_result (keep_unasked _) (keep_unasked _)]
  rfl

theorem aggregate_result (matcher : Option Matcher) {field : Value} {metric : Option Metric}
    {compare : Bool} {here before : List Value}
    (hhere : (matching matcher active).result = .ok here)
    (hbefore : (matching matcher previous).result = .ok before) :
    (aggregate matcher field metric compare active previous).result = (do
      let value ← Metric.aggregate metric (← numbersIn field here)
      let valueBefore ← Metric.aggregate metric (← numbersIn field before)
      if compare then Outcome.compared value valueBefore
      else return .ofValue (.number value) (.number valueBefore)) := by
  unfold aggregate
  rw [Traced.result_bind, hhere, ok_bind]
  simp only [Traced.result_lift_bind]
  congr 1
  funext numbers
  congr 1
  funext value
  rw [Traced.result_bind, hbefore, ok_bind]
  simp only [Traced.result_lift_bind]
  cases compare <;> rfl

theorem aggregate_accepted (hactive : Answered m active) (hprevious : Answered m previous)
    (field : Value) (metric : Option Metric) (compare : Bool) :
    (aggregate (some m) field metric compare active previous).result =
      (aggregate none field metric compare (accepted m active) (accepted m previous)).result := by
  rw [aggregate_result (some m) (keep_accepted hactive) (keep_accepted hprevious),
    aggregate_result none rfl rfl]

-- Induction on the rows, with the groups that are open already: a row that does not match opens
-- none and adds to none.
theorem groupRows_accepted {column field : Value} (h : Answered m rows) (groups : Groups) :
    (groupRows (some m) column field groups rows).result =
      (groupRows none column field groups (accepted m rows)).result := by
  induction rows generalizing groups with
  | nil => rfl
  | cons row rest ih =>
      obtain ⟨hrow, hrest⟩ := List.forall_mem_cons.mp h
      rw [groupRows_cons, Traced.result_bind, wants, hrow.result_eq, ok_bind, accepted,
        List.filter_cons]
      cases (m.accepts row).isTrue with
      | false => exact ih hrest groups
      | true =>
          rw [if_pos rfl, if_pos rfl, groupRows_cons, wants, pure_bind, if_pos rfl,
            Traced.result_lift_bind, Traced.result_lift_bind]
          congr 1
          funext next
          exact ih hrest next

theorem grouped_accepted (h : Answered m active) (column field : Value) (metric : Option Metric)
    (filterType : Value) : (grouped (some m) column field metric filterType active).result =
      (grouped none column field metric filterType (accepted m active)).result := by
  unfold grouped
  rw [Traced.result_bind, Traced.result_bind, groupRows_accepted h]

end Restriction

section Days

variable {m : Matcher} {start finish row : Value} {rows : List Value}

-- A row that matches has the days that it has without a matcher.
theorem daysIn_accepted (h : (m.accepts row).result = .ok true) :
    (daysIn (some m) start finish row).result = (daysIn none start finish row).result := by
  unfold daysIn
  rw [Traced.result_lift_bind, Traced.result_lift_bind]
  congr 1
  funext dated
  cases dated with
  | false => rfl
  | true =>
      simp only [if_true, pure_bind]
      rw [Traced.result_bind, h, ok_bind, if_pos rfl]

-- One that does not match has none, with dates or without.
theorem daysIn_refused {days : Option Binary64 × Bool} (h : (m.accepts row).result = .ok false)
    (hdays : (daysIn (some m) start finish row).result = .ok days) : days.1 = none := by
  obtain ⟨dated, -, hdays⟩ := Traced.lift_bind_eq_ok_iff.mp hdays
  cases dated with
  | false =>
      cases hdays
      rfl
  | true =>
      obtain ⟨wanted, hwanted, hdays⟩ := Traced.bind_result_eq_ok_iff.mp hdays
      have hfalse : wanted = false := Except.ok.inj (hwanted.symm.trans h)
      subst hfalse
      cases hdays
      rfl

-- Induction on the rows. The dates of a row are looked at before it is matched, so the marks for
-- rows that are left out differ; the days do not.
theorem mapM_daysIn_accepted {days : List (Option Binary64 × Bool)} (h : Answered m rows)
    (hdays : (rows.mapM (daysIn (some m) start finish)).result = .ok days) :
    ∃ others, ((accepted m rows).mapM (daysIn none start finish)).result = .ok others ∧
      others.filterMap (·.1) = days.filterMap (·.1) := by
  induction rows generalizing days with
  | nil =>
      rw [List.mapM_nil] at hdays
      cases hdays
      exact ⟨[], rfl, rfl⟩
  | cons row rest ih =>
      obtain ⟨hrow, hrest⟩ := List.forall_mem_cons.mp h
      rw [List.mapM_cons] at hdays
      obtain ⟨first, hfirst, hdays⟩ := Traced.bind_result_eq_ok_iff.mp hdays
      obtain ⟨more, hmore, hdays⟩ := Traced.bind_result_eq_ok_iff.mp hdays
      cases hdays
      obtain ⟨others, hothers, hsame⟩ := ih hrest hmore
      have hanswer := hrow.result_eq
      rw [accepted, List.filter_cons]
      cases htrue : (m.accepts row).isTrue with
      | false =>
          rw [htrue] at hanswer
          refine ⟨others, hothers, ?_⟩
          rw [hsame, List.filterMap_cons_none (daysIn_refused hanswer hfirst)]
      | true =>
          rw [htrue] at hanswer
          rw [daysIn_accepted hanswer] at hfirst
          refine ⟨first :: others, ?_, ?_⟩
          · rw [if_pos rfl, List.mapM_cons]
            exact Traced.bind_result_eq_ok_iff.mpr
              ⟨first, hfirst, Traced.bind_result_eq_ok_iff.mpr ⟨others, hothers, rfl⟩⟩
          · rw [List.filterMap_cons, List.filterMap_cons, hsame]

theorem dayCounts_eq_ok_iff {matcher : Option Matcher} {counts : List Binary64} :
    (dayCounts matcher start finish rows).result = .ok counts ↔
      ∃ days, (rows.mapM (daysIn matcher start finish)).result = .ok days ∧
        days.filterMap (·.1) = counts := by
  unfold dayCounts
  rw [Traced.bind_result_eq_ok_iff]
  refine exists_congr fun days => and_congr_right fun _ => ?_
  -- that rows were left out is noted, and changes nothing
  by_cases hskipped : (days.filter (·.2)).length ≠ 0
  · simp only [if_pos hskipped]
    rw [Traced.result_bind]
    exact ⟨Except.ok.inj, congrArg _⟩
  · simp only [if_neg hskipped]
    exact ⟨Except.ok.inj, congrArg _⟩

theorem meanDuration_accepted {o : Outcome} (h : Answered m rows)
    (ho : (meanDuration (some m) start finish rows).result = .ok o) :
    (meanDuration none start finish (accepted m rows)).result = .ok o := by
  obtain ⟨counts, hcounts, ho⟩ := Traced.bind_result_eq_ok_iff.mp ho
  obtain ⟨days, hdays, hsame⟩ := dayCounts_eq_ok_iff.mp hcounts
  obtain ⟨others, hothers, heq⟩ := mapM_daysIn_accepted h hdays
  exact Traced.bind_result_eq_ok_iff.mpr
    ⟨counts, dayCounts_eq_ok_iff.mpr ⟨others, hothers, heq.trans hsame⟩, ho⟩

end Days

section Selected

-- Counts, metrics, groups and mean days of the rows that match a filter are those of the rows that
-- a selection keeps, errors included for the first three. Mean days need the dates of all rows,
-- those of the selection only the dates of its own.
theorem measured_over_selection {mode : Mode} {f : Filter} {m : Matcher}
    {active previous : List Value} (hm : (Matcher.ofFilter mode f).result = .ok m)
    (hactive : Answered m active) (hprevious : Answered m previous) :
    ∃ here before, (Selection.apply id mode [f] active).result = .ok here ∧
      (Selection.apply id mode [f] previous).result = .ok before ∧
      (∀ distinctColumn, (countOf mode f distinctColumn active previous).result =
        (countOf mode (.all []) distinctColumn here before).result) ∧
      (∀ field metric compare,
        (aggregateOf mode (some f) field metric compare active previous).result =
          (aggregateOf mode none field metric compare here before).result) ∧
      (∀ column field metric filterType,
        (groupedOf mode (some f) column field metric filterType active).result =
          (groupedOf mode none column field metric filterType here).result) ∧
      ∀ start finish o, (durationOf mode (some f) start finish active).result = .ok o →
        (durationOf mode none start finish here).result = .ok o := by
  have hready := readyFor_some hm
  refine ⟨accepted m active, accepted m previous, apply_one hm hactive, apply_one hm hprevious,
    fun distinctColumn => ?_, fun field metric compare => ?_,
    fun column field metric filterType => ?_, fun start finish o ho => ?_⟩
  · rw [countOf, Traced.result_bind, hm, ok_bind, count_accepted hactive hprevious]
    rfl
  · rw [aggregateOf, Traced.result_bind, hready, ok_bind, aggregate_accepted hactive hprevious]
    rfl
  · rw [groupedOf, Traced.result_bind, hready, ok_bind, grouped_accepted hactive]
    rfl
  · rw [durationOf, Traced.result_bind, hready, ok_bind] at ho
    exact meanDuration_accepted hactive ho

-- Visits, of which one is closed, and one has no end.
def visits : List Value :=
  [.object [("status", .text "Open"), ("came", .text "2024-02-01"), ("left", .text "2024-02-04")],
    .object [("status", .text "closed"), ("came", .text "2024-02-01"), ("left", .text "2024-02-09")],
    .object [("status", .text "open"), ("came", .text "2024-02-02")]]

def isOpen : Filter := .leaf (.text "status") (some (.equals false)) (.text "open")

theorem visits_measured_over_selection :
    ∃ here o, (Selection.apply id .strict [isOpen] visits).result = .ok here ∧
      (countOf .strict isOpen .null visits []).result =
        (countOf .strict (.all []) .null here []).result ∧
      (durationOf .strict (some isOpen) (.text "came") (.text "left") visits).result = .ok o ∧
      (durationOf .strict none (.text "came") (.text "left") here).result = .ok o := by
  have hm : (Matcher.ofFilter .strict isOpen).result =
      .ok (.equals (.text "status") (.text "open") false) := rfl
  have hanswers : Answered (.equals (.text "status") (.text "open") false) visits := by
    intro row hrow
    simp only [visits, List.mem_cons, List.not_mem_nil, or_false] at hrow
    rcases hrow with rfl | rfl | rfl <;> exact ⟨_, rfl⟩
  obtain ⟨o, ho⟩ := eq_ok_of_isOk (show (durationOf .strict (some isOpen) (.text "came")
    (.text "left") visits).result.isOk = true by decide +kernel)
  have hnone : Answered (.equals (.text "status") (.text "open") false) [] := by
    intro row hrow
    cases hrow
  obtain ⟨here, before, hhere, hbefore, hcount, -, -, hduration⟩ :=
    measured_over_selection hm hanswers hnone
  cases hbefore
  exact ⟨here, o, hhere, hcount .null, ho, hduration _ _ _ ho⟩

end Selected

end Measure

end Tileboard
