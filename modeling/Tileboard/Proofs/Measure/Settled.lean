import Mathlib
import Tileboard.Proofs.Measure.Denoted
import Tileboard.Proofs.Number.Fitting

namespace Tileboard

namespace Measure

section Metrics

variable {metric : Option Metric} {numbers : List Binary64} {value previous : Number}

-- Numbers with an average that can be rounded, if the average is asked for.
def Settled (metric : Option Metric) (numbers : List Binary64) : Prop :=
  metric = some .average → numbers ≠ [] → (Statistics.mean numbers).Fits 0

-- A whole number of at most 94 bits, or a binary64 number.
def Moderate : Number → Prop
  | .int k => k.natAbs ≤ 2 ^ 94
  | .real _ => True

theorem aggregate_of_settled (h : Settled metric numbers) :
    ∃ value, Metric.aggregate metric numbers = .ok value ∧ Moderate value := by
  have hzero : Moderate (.int 0) := Nat.zero_le _
  cases numbers with
  | nil => exact ⟨_, rfl, hzero⟩
  | cons x rest =>
      cases metric with
      | none => exact ⟨_, rfl, hzero⟩
      | some metric =>
          cases metric with
          | average =>
              obtain ⟨k, hk, hbound⟩ := roundedWhole_of_fits (h rfl (List.cons_ne_nil x rest))
              refine ⟨.int k, ?_, hbound⟩
              rw [Metric.aggregate, hk]
              rfl
          | _ => exact ⟨_, rfl, trivial⟩

theorem settled_of_aggregate (h : Metric.aggregate metric numbers = .ok value) :
    Settled metric numbers := by
  rintro rfl hne
  obtain ⟨x, rest, rfl⟩ := List.exists_cons_of_ne_nil hne
  obtain ⟨k, hk, -⟩ := map_eq_ok_iff.mp h
  exact fits_of_roundedWhole hk

theorem moderate_of_aggregate (h : Metric.aggregate metric numbers = .ok value) :
    Moderate value := by
  obtain ⟨found, hfound, hmoderate⟩ := aggregate_of_settled (settled_of_aggregate h)
  cases h.symm.trans hfound
  exact hmoderate

theorem toBinary64?_of_moderate (h : Moderate value) : ∃ x, value.toBinary64? = some x := by
  cases value with
  | int k =>
      have hwhole : k.natAbs ≤ Binary64.greatestWhole := h.trans (by decide +kernel)
      exact ⟨_, if_pos (Binary64.isFinite_ofQuotient_one _ hwhole)⟩
  | real x => exact ⟨x, rfl⟩

theorem divide?_whole {a b : Int} (ha : a.natAbs ≤ 2 ^ 95) (hb : 0 < b) :
    ∃ x, Number.divide? (.int a) (.int b) = some x := by
  have hpos : 0 < b.natAbs := by omega
  have hguess : Binary64.guessFor a.natAbs b.natAbs ≤ 970 := by
    unfold Binary64.guessFor
    by_cases hzero : a.natAbs = 0
    · rw [hzero, show Nat.log2 0 = 0 by decide]
      omega
    · have hlog : a.natAbs.log2 < 96 := (Nat.log2_lt hzero).mpr (ha.trans_lt (by decide))
      omega
  exact ⟨_, if_pos (Binary64.isFinite_ofQuotient _ hpos hguess)⟩

theorem pos_of_before {b : Int} (h : Change.zero.before (.int b) = true) : 0 < b := by
  simpa [Change.zero, Number.before, Number.place?, Number.placeBefore] using h

-- The change in hundredths of a positive value: neither the difference nor the quotient is too
-- large.
theorem percentOf_of_moderate (hvalue : Moderate value) (hprevious : Moderate previous)
    (hpositive : Change.zero.before previous = true) :
    ∃ delta, Change.percentOf value previous = .ok delta := by
  obtain ⟨x, hx⟩ := toBinary64?_of_moderate hvalue
  obtain ⟨y, hy⟩ := toBinary64?_of_moderate hprevious
  obtain ⟨difference, hdifference, quotient, hquotient⟩ : ∃ difference,
      value.subtract? previous = some difference ∧
        ∃ quotient, difference.divide? previous = some quotient := by
    cases value with
    | int a =>
        cases previous with
        | int b =>
            have hsize : (a - b).natAbs ≤ 2 ^ 95 := by
              have ha : a.natAbs ≤ 2 ^ 94 := hvalue
              have hb : b.natAbs ≤ 2 ^ 94 := hprevious
              omega
            exact ⟨_, rfl, divide?_whole hsize (pos_of_before hpositive)⟩
        | real w =>
            have hw : (Number.real w).toBinary64? = some w := rfl
            exact ⟨.real (x.sub w), by simp [Number.subtract?, hx, hw], _, rfl⟩
    | real v =>
        have hreal : ∀ v, (Number.real v).toBinary64? = some v := fun _ => rfl
        cases previous with
        | int b =>
            refine ⟨.real (v.sub y), ?_, (v.sub y).div y, ?_⟩
            · simp [Number.subtract?, hy, hreal]
            · simp [Number.divide?, hy, hreal]
        | real w => exact ⟨_, rfl, _, rfl⟩
  refine ⟨quotient.mul (Binary64.ofInt 100), ?_⟩
  have hsized : Change.sized (value.subtract? previous) = .ok difference := by
    rw [hdifference]
    rfl
  rw [Change.percentOf, hsized, ok_bind, hquotient]
  rfl

-- A change in hundredths that can be rounded to one place, or is NaN, if there is one.
def Steady (value previous : Number) : Prop :=
  Change.zero.before previous = true → ∀ delta, Change.percentOf value previous = .ok delta →
    delta = .nan ∨ delta.Fits 1

theorem compute_succeeds_iff (hvalue : Moderate value) (hprevious : Moderate previous) :
    (∃ change, Change.compute value previous = .ok change) ↔ Steady value previous := by
  unfold Change.compute Steady
  by_cases hpositive : Change.zero.before previous = true
  · obtain ⟨delta, hdelta⟩ := percentOf_of_moderate hvalue hprevious hpositive
    have hrounded : (∃ r, rounded delta 1 = .ok r) ↔ delta = .nan ∨ delta.Fits 1 :=
      rounded_succeeds_iff delta 1
    simp only [hpositive, if_true, hdelta, ok_bind, Except.ok.injEq, forall_eq', true_imp_iff]
    rw [← hrounded]
    constructor
    · rintro ⟨change, h⟩
      obtain ⟨percent, hpercent, -⟩ := bind_eq_ok_iff.mp h
      exact ⟨percent, hpercent⟩
    · rintro ⟨percent, hpercent⟩
      exact ⟨_, bind_eq_ok_iff.mpr ⟨percent, hpercent, rfl⟩⟩
  · simp only [hpositive, if_false, false_imp_iff, iff_true, Bool.false_eq_true]
    split
    · exact ⟨_, rfl⟩
    · exact ⟨_, rfl⟩

end Metrics

section Windows

variable {matcher : Option Matcher} {name : String} {metric : Option Metric} {compare : Bool}
  {rows active previous : List Value} {here before : List Binary64}

def matched (matcher : Option Matcher) (rows : List Value) : List Value :=
  rows.filter fun row => (wants matcher row).isTrue

theorem matching_matched (h : ∀ row ∈ rows, (wants matcher row).Answers) :
    (matching matcher rows).result = .ok (matched matcher rows) := by
  rw [matching_eq_keep]
  exact Selection.keep_eq_filter h

theorem records_of_matched (h : ∀ row ∈ rows, ∃ fields, row = .object fields) :
    ∀ row ∈ matched matcher rows, ∃ fields, row = .object fields :=
  fun row hrow => h row (List.mem_of_mem_filter hrow)

def outcomeOf (compare : Bool) (value previous : Number) : Except Fault Outcome :=
  if compare then Outcome.compared value previous
  else .ok (.ofValue (.number value) (.number previous))

theorem outcomeOf_values {value previous : Number} {o : Outcome}
    (h : outcomeOf compare value previous = .ok o) :
    o.value = .number value ∧ o.previous = .number previous := by
  unfold outcomeOf at h
  split at h
  · obtain ⟨change, -, h⟩ := bind_eq_ok_iff.mp h
    cases h
    exact ⟨rfl, rfl⟩
  · cases h
    exact ⟨rfl, rfl⟩

theorem outcomeOf_succeeds_iff {value previous : Number} (hvalue : Moderate value)
    (hprevious : Moderate previous) : (∃ o, outcomeOf compare value previous = .ok o) ↔
      (compare = true → Steady value previous) := by
  unfold outcomeOf
  cases compare with
  | false => simp
  | true =>
      rw [← compute_succeeds_iff hvalue hprevious, if_pos rfl]
      simp only [forall_const]
      constructor
      · rintro ⟨o, h⟩
        obtain ⟨change, hchange, -⟩ := bind_eq_ok_iff.mp h
        exact ⟨change, hchange⟩
      · rintro ⟨change, hchange⟩
        exact ⟨_, bind_eq_ok_iff.mpr ⟨change, hchange, rfl⟩⟩

theorem metricIn_eq_ok_iff {numbers : List Binary64} {value : Number} (h : Kept name rows numbers)
    (hrows : ∀ row ∈ rows, ∃ fields, row = .object fields) :
    (numbersIn (.text name) rows >>= Metric.aggregate metric) = .ok value ↔
      Bounded name rows ∧ Metric.aggregate metric numbers = .ok value := by
  rw [bind_eq_ok_iff]
  constructor
  · rintro ⟨found, hfound, hvalue⟩
    have hbounded := bounded_of_numbersIn hfound hrows
    cases (numbersIn_of_kept h hrows hbounded).symm.trans hfound
    exact ⟨hbounded, hvalue⟩
  · rintro ⟨hbounded, hvalue⟩
    exact ⟨numbers, numbersIn_of_kept h hrows hbounded, hvalue⟩

-- What a metric needs of the rows of two windows and of the numbers in them: no number past all
-- others, averages that can be rounded, and a change that can be, if it is asked for.
structure Measurable (name : String) (metric : Option Metric) (compare : Bool)
    (rows rowsBefore : List Value) (numbers numbersBefore : List Binary64) : Prop where
  bounded : Bounded name rows
  boundedBefore : Bounded name rowsBefore
  settled : Settled metric numbers
  settledBefore : Settled metric numbersBefore
  steady : compare = true → ∀ value previous, Metric.aggregate metric numbers = .ok value →
    Metric.aggregate metric numbersBefore = .ok previous → Steady value previous

section Aggregate

variable (hrows : ∀ row ∈ active ++ previous, ∃ fields, row = .object fields)
  (hanswers : ∀ row ∈ active ++ previous, (wants matcher row).Answers)
  (hhere : Kept name (matched matcher active) here)
  (hbefore : Kept name (matched matcher previous) before)

include hrows hanswers hhere hbefore

theorem aggregate_eq_ok_iff {o : Outcome} :
    (aggregate matcher (.text name) metric compare active previous).result = .ok o ↔
      Bounded name (matched matcher active) ∧ Bounded name (matched matcher previous) ∧
      ∃ value valueBefore, Metric.aggregate metric here = .ok value ∧
        Metric.aggregate metric before = .ok valueBefore ∧
        outcomeOf compare value valueBefore = .ok o := by
  obtain ⟨hrowsHere, hrowsBefore⟩ := List.forall_mem_append.mp hrows
  obtain ⟨hanswersHere, hanswersBefore⟩ := List.forall_mem_append.mp hanswers
  have hsteps : (aggregate matcher (.text name) metric compare active previous).result = (do
      let value ← numbersIn (.text name) (matched matcher active) >>= Metric.aggregate metric
      let valueBefore ← numbersIn (.text name) (matched matcher previous) >>= Metric.aggregate metric
      outcomeOf compare value valueBefore) := by
    rw [aggregate_result matcher (matching_matched hanswersHere) (matching_matched hanswersBefore)]
    simp only [bind_assoc]
    rfl
  simp only [hsteps, bind_eq_ok_iff, metricIn_eq_ok_iff hhere (records_of_matched hrowsHere),
    metricIn_eq_ok_iff hbefore (records_of_matched hrowsBefore)]
  constructor
  · rintro ⟨value, ⟨hbounded, hvalue⟩, valueBefore, ⟨hboundedBefore, hvalueBefore⟩, ho⟩
    exact ⟨hbounded, hboundedBefore, value, valueBefore, hvalue, hvalueBefore, ho⟩
  · rintro ⟨hbounded, hboundedBefore, value, valueBefore, hvalue, hvalueBefore, ho⟩
    exact ⟨value, ⟨hbounded, hvalue⟩, valueBefore, ⟨hboundedBefore, hvalueBefore⟩, ho⟩

theorem aggregate_succeeds_iff :
    (∃ o, (aggregate matcher (.text name) metric compare active previous).result = .ok o) ↔
      Measurable name metric compare (matched matcher active) (matched matcher previous) here
        before := by
  simp only [aggregate_eq_ok_iff hrows hanswers hhere hbefore]
  constructor
  · rintro ⟨o, hbounded, hboundedBefore, value, valueBefore, hvalue, hvalueBefore, ho⟩
    refine ⟨hbounded, hboundedBefore, settled_of_aggregate hvalue, settled_of_aggregate hvalueBefore,
      fun hcompare found foundBefore hfound hfoundBefore => ?_⟩
    cases hvalue.symm.trans hfound
    cases hvalueBefore.symm.trans hfoundBefore
    exact (outcomeOf_succeeds_iff (moderate_of_aggregate hvalue)
      (moderate_of_aggregate hvalueBefore)).mp ⟨o, ho⟩ hcompare
  · rintro ⟨hbounded, hboundedBefore, hsettled, hsettledBefore, hsteady⟩
    obtain ⟨value, hvalue, hmoderate⟩ := aggregate_of_settled hsettled
    obtain ⟨valueBefore, hvalueBefore, hmoderateBefore⟩ := aggregate_of_settled hsettledBefore
    obtain ⟨o, ho⟩ := (outcomeOf_succeeds_iff hmoderate hmoderateBefore).mpr
      fun hcompare => hsteady hcompare value valueBefore hvalue hvalueBefore
    exact ⟨o, hbounded, hboundedBefore, value, valueBefore, hvalue, hvalueBefore, ho⟩

end Aggregate

end Windows

end Measure

end Tileboard
