import Tileboard.Measure.Count
import Tileboard.Measure.Duration
import Tileboard.Measure.Metric
import Tileboard.Proofs.Computation

namespace Tileboard

theorem Outcome.compared_eq_ok {value previous : Number} {o : Outcome}
    (h : Outcome.compared value previous = .ok o) :
    ∃ change, Change.compute value previous = .ok change ∧
      o = ⟨.number value, .number previous, change, none⟩ := by
  obtain ⟨change, hc, h⟩ := bind_eq_ok_iff.mp h
  cases h
  exact ⟨change, hc, rfl⟩

namespace Measure

def countIn (matcher : Matcher) (distinctColumn : Value) (rows : List Value) : Except Fault Nat := do
  size distinctColumn (← (Selection.keep matcher.accepts rows).result)

def metricIn (matcher : Option Matcher) (column : Value) (metric : Option Metric)
    (rows : List Value) : Except Fault Number := do
  Metric.aggregate metric (← numbersIn column (← (matching matcher rows).result))

theorem count_eq_ok {matcher : Matcher} {distinctColumn : Value} {shareOfBase : Bool}
    {active previous : List Value} {o : Outcome}
    (h : (count matcher distinctColumn shareOfBase active previous).result = .ok o) :
    ∃ n k, countIn matcher distinctColumn active = .ok n ∧
      countIn matcher distinctColumn previous = .ok k ∧ o.value = .int n ∧ o.previous = .int k ∧
      o.groups = none := by
  obtain ⟨here, hhere, h⟩ := Traced.bind_result_eq_ok_iff.mp h
  obtain ⟨before, hbefore, h⟩ := Traced.bind_result_eq_ok_iff.mp h
  obtain ⟨n, hn, h⟩ := Traced.lift_bind_eq_ok_iff.mp h
  obtain ⟨k, hk, h⟩ := Traced.lift_bind_eq_ok_iff.mp h
  refine ⟨n, k, by rw [countIn, hhere]; exact hn, by rw [countIn, hbefore]; exact hk, ?_⟩
  cases shareOfBase with
  | true =>
      rw [if_pos rfl] at h
      obtain ⟨base, -, h⟩ := Traced.lift_bind_eq_ok_iff.mp h
      obtain ⟨percent, -, h⟩ := Traced.lift_bind_eq_ok_iff.mp h
      cases h
      exact ⟨rfl, rfl, rfl⟩
  | false =>
      obtain ⟨change, -, rfl⟩ := Outcome.compared_eq_ok h
      exact ⟨rfl, rfl, rfl⟩

section Aggregate

variable {matcher : Option Matcher} {column : Value} {metric : Option Metric} {compare : Bool}
  {active previous : List Value} {o : Outcome}

theorem aggregate_parts
    (h : (aggregate matcher column metric compare active previous).result = .ok o) :
    ∃ x y, metricIn matcher column metric active = .ok x ∧
      metricIn matcher column metric previous = .ok y ∧
      (if compare then Outcome.compared x y
        else .ok (.ofValue (.number x) (.number y))) = .ok o := by
  obtain ⟨here, hhere, h⟩ := Traced.bind_result_eq_ok_iff.mp h
  obtain ⟨numbers, hnumbers, h⟩ := Traced.lift_bind_eq_ok_iff.mp h
  obtain ⟨x, hx, h⟩ := Traced.lift_bind_eq_ok_iff.mp h
  obtain ⟨before, hbefore, h⟩ := Traced.bind_result_eq_ok_iff.mp h
  obtain ⟨others, hothers, h⟩ := Traced.lift_bind_eq_ok_iff.mp h
  obtain ⟨y, hy, h⟩ := Traced.lift_bind_eq_ok_iff.mp h
  refine ⟨x, y, by rw [metricIn, hhere, ok_bind, hnumbers]; exact hx,
    by rw [metricIn, hbefore, ok_bind, hothers]; exact hy, ?_⟩
  cases compare <;> exact h

theorem aggregate_eq_ok
    (h : (aggregate matcher column metric compare active previous).result = .ok o) :
    ∃ x y, metricIn matcher column metric active = .ok x ∧
      metricIn matcher column metric previous = .ok y ∧
      o.value = .number x ∧ o.previous = .number y ∧ o.groups = none := by
  obtain ⟨x, y, hx, hy, h⟩ := aggregate_parts h
  refine ⟨x, y, hx, hy, ?_⟩
  cases compare with
  | true =>
      obtain ⟨change, -, rfl⟩ := Outcome.compared_eq_ok h
      exact ⟨rfl, rfl, rfl⟩
  | false =>
      cases h
      exact ⟨rfl, rfl, rfl⟩

end Aggregate

theorem share_groups {numerator denominator : Matcher} {active : List Value} {o : Outcome}
    (h : (share numerator denominator active).result = .ok o) : o.groups = none := by
  obtain ⟨part, -, h⟩ := Traced.bind_result_eq_ok_iff.mp h
  obtain ⟨whole, -, h⟩ := Traced.bind_result_eq_ok_iff.mp h
  split at h
  · obtain ⟨_, -, h⟩ := Traced.bind_result_eq_ok_iff.mp h
    obtain ⟨_, -, h⟩ := Traced.lift_bind_eq_ok_iff.mp h
    cases h
    rfl
  · obtain ⟨_, -, h⟩ := Traced.lift_bind_eq_ok_iff.mp h
    cases h
    rfl

theorem meanDuration_groups {matcher : Option Matcher} {start finish : Value} {rows : List Value}
    {o : Outcome} (h : (meanDuration matcher start finish rows).result = .ok o) :
    o.groups = none := by
  obtain ⟨days, -, h⟩ := Traced.bind_result_eq_ok_iff.mp h
  split at h
  · cases h
    rfl
  · obtain ⟨_, -, h⟩ := Traced.bind_result_eq_ok_iff.mp h
    cases h
    rfl

theorem meanDays_groups {start finish : Value} {rows : List Value} {o : Outcome}
    (h : (meanDays start finish rows).result = .ok o) : o.groups = none := by
  obtain ⟨days, -, h⟩ := Traced.bind_result_eq_ok_iff.mp h
  split at h
  · cases h
    rfl
  · obtain ⟨_, -, h⟩ := Traced.lift_bind_eq_ok_iff.mp h
    cases h
    rfl

end Measure

end Tileboard
