import Mathlib
import Tileboard.Proofs.Measure.Outcome
import Tileboard.Proofs.Measure.Restriction
import Tileboard.Proofs.Value.Order

namespace Tileboard

-- Of two numbers with a place one is before the other, or they are the same.
theorem Number.before_eq_false_iff {x y : Number} (hx : x ≠ .real .nan) : x.before y = false ↔
    x.same y = true ∨ y.before x = true ∨ y = .real .nan := by
  by_cases hy : y = .real .nan
  · subst hy
    cases x.place? <;> simp [before, place?]
  · obtain ⟨p, hp⟩ := exists_place hx
    obtain ⟨q, hq⟩ := exists_place hy
    have hback := placeBefore_eq_not q p
    rw [Bool.beq_comm] at hback
    simp only [before, same, hp, hq, hback, hy, or_false]
    cases placeBefore q p <;> simp

namespace Change

variable {value previous : Number} {change : Change}

-- A change in three cases. There is a percentage after a positive value, a positive value after
-- zero is a change by itself, and no other change is shown.
structure ThreeWay (value previous : Number) (change : Change) : Prop where
  percentage : (∃ amount, change.trend = some (.percentage amount)) ↔ zero.before previous = true
  absolute : ∀ amount, change.trend = some (.absolute amount) ↔
    amount = value ∧ zero.same previous = true ∧ zero.before value = true
  fresh : zero.same previous = true → zero.before value = true →
    change.direction = some .up ∧ change.percent = some (Binary64.ofInt 100)
  still : zero.before previous = false → ¬(zero.same previous = true ∧ zero.before value = true) →
    change = ⟨none, none, some (Binary64.zero false)⟩

def appeared (value : Number) : Change :=
  ⟨some (.absolute value), some .up, some (Binary64.ofInt 100)⟩

theorem compute_of_positive (hpositive : zero.before previous = true)
    (h : compute value previous = .ok change) : ∃ amount, change.trend = some (.percentage amount) := by
  rw [compute, if_pos hpositive] at h
  obtain ⟨delta, -, h⟩ := bind_eq_ok_iff.mp h
  obtain ⟨percent, -, h⟩ := bind_eq_ok_iff.mp h
  cases h
  exact ⟨_, rfl⟩

theorem compute_of_not_positive (hpositive : zero.before previous = false) :
    compute value previous = .ok (if zero.before value = true then appeared value
      else ⟨none, none, some (Binary64.zero false)⟩) := by
  rw [compute, hpositive, if_neg Bool.false_ne_true]
  split <;> rfl

-- A number is positive, zero, or neither of the two: negative or NaN.
theorem sign_cases (x : Number) :
    (zero.before x = true ∧ zero.same x = false ∧ ¬(x.before zero = true ∨ x = .real .nan)) ∨
    (zero.before x = false ∧ zero.same x = true ∧ ¬(x.before zero = true ∨ x = .real .nan)) ∨
    (zero.before x = false ∧ zero.same x = false ∧ (x.before zero = true ∨ x = .real .nan)) := by
  have hzero : zero ≠ .real .nan := by simp [zero]
  by_cases hnan : x = .real .nan
  · subst hnan
    exact .inr (.inr ⟨rfl, rfl, .inr rfl⟩)
  · have hback := Number.before_eq_false_iff (y := zero) hnan
    have hthere := Number.before_eq_false_iff (y := x) hzero
    rw [Number.same_comm] at hback
    simp only [hnan, hzero, or_false] at hback hthere ⊢
    cases hb : zero.before x <;> cases hs : zero.same x <;> cases ha : x.before zero <;> simp_all

theorem threeWay_of_percentage {amount : Binary64} (hprevious : zero.before previous = true)
    (hsame : zero.same previous = false) (htrend : change.trend = some (.percentage amount)) :
    ThreeWay value previous change where
  percentage := ⟨fun _ => hprevious, fun _ => ⟨amount, htrend⟩⟩
  absolute := fun _ => by simp [htrend, hsame]
  fresh := fun hzero => by simp [hsame] at hzero
  still := fun hnone => by simp [hprevious] at hnone

theorem threeWay_of_neither (hprevious : zero.before previous = false)
    (hvalue : zero.before value = false) :
    ThreeWay value previous ⟨none, none, some (Binary64.zero false)⟩ where
  percentage := by simp [hprevious]
  absolute := by simp [hvalue]
  fresh := by simp [hvalue]
  still := fun _ _ => rfl

-- A value that is a change by itself is one of the three cases after zero only.
theorem threeWay_appeared_iff (hprevious : zero.before previous = false)
    (hvalue : zero.before value = true) :
    ThreeWay value previous (appeared value) ↔ zero.same previous = true := by
  constructor
  · intro h
    exact ((h.absolute value).mp rfl).2.1
  · intro hsame
    exact {
      percentage := by simp [hprevious, appeared]
      absolute := by simp [hvalue, hsame, appeared, eq_comm]
      fresh := fun _ _ => ⟨rfl, rfl⟩
      still := fun _ hother => absurd ⟨hsame, hvalue⟩ hother }

-- The three cases leave out a positive value after one that is neither positive nor zero. It is
-- shown as a change by itself, as if there had been zero before.
theorem threeWay_iff (h : compute value previous = .ok change) :
    (ThreeWay value previous change ↔
      ¬(zero.before value = true ∧ (previous.before zero = true ∨ previous = .real .nan))) ∧
    (zero.before value = true → previous.before zero = true ∨ previous = .real .nan →
      change = appeared value) := by
  have hsigns := sign_cases previous
  cases hprevious : zero.before previous with
  | true =>
      obtain ⟨amount, htrend⟩ := compute_of_positive hprevious h
      simp only [hprevious, true_and, Bool.true_eq_false, false_and, or_false] at hsigns
      obtain ⟨hsame, hnot⟩ := hsigns
      exact ⟨iff_of_true (threeWay_of_percentage hprevious hsame htrend) fun hleft => hnot hleft.2,
        fun _ hneither => absurd hneither hnot⟩
  | false =>
      rw [compute_of_not_positive hprevious, Except.ok.injEq] at h
      subst h
      cases hvalue : zero.before value with
      | false =>
          rw [if_neg Bool.false_ne_true]
          exact ⟨iff_of_true (threeWay_of_neither hprevious hvalue) (by simp), by simp⟩
      | true =>
          rw [if_pos rfl, threeWay_appeared_iff hprevious hvalue]
          simp only [hprevious, Bool.false_eq_true, false_and, true_and, false_or] at hsigns
          refine ⟨?_, fun _ _ => rfl⟩
          rcases hsigns with ⟨hsame, hnot⟩ | ⟨hsame, hneither⟩
          · exact iff_of_true hsame fun hleft => hnot hleft.2
          · exact iff_of_false (by simp [hsame]) fun hnot => hnot ⟨rfl, hneither⟩

end Change

namespace Measure

variable {mode : Mode} {f : Option Filter} {field : Value} {metric : Option Metric}
  {active previous : List Value} {o : Outcome}

theorem aggregateOf_compared
    (h : (aggregateOf mode f field metric true active previous).result = .ok o) :
    ∃ matcher value before, (readyFor mode f).result = .ok matcher ∧
      metricIn matcher field metric active = .ok value ∧
      metricIn matcher field metric previous = .ok before ∧
      o.value = .number value ∧ o.previous = .number before ∧
      Change.compute value before = .ok o.change := by
  rw [aggregateOf] at h
  obtain ⟨matcher, hmatcher, h⟩ := Traced.bind_result_eq_ok_iff.mp h
  obtain ⟨value, before, hvalue, hbefore, h⟩ := aggregate_parts h
  obtain ⟨change, hchange, rfl⟩ := Outcome.compared_eq_ok h
  exact ⟨matcher, value, before, hmatcher, hvalue, hbefore, rfl, rfl, hchange⟩

-- Metrics of two windows that are compared have their change in the three cases, except for a
-- positive value after a negative one or NaN.
theorem change_threeWay_iff
    (h : (aggregateOf mode f field metric true active previous).result = .ok o) :
    ∃ matcher value before, (readyFor mode f).result = .ok matcher ∧
      metricIn matcher field metric active = .ok value ∧
      metricIn matcher field metric previous = .ok before ∧
      o.value = .number value ∧ o.previous = .number before ∧
      (Change.ThreeWay value before o.change ↔ ¬(Change.zero.before value = true ∧
        (before.before Change.zero = true ∨ before = .real .nan))) ∧
      (Change.zero.before value = true → before.before Change.zero = true ∨ before = .real .nan →
        o.change = Change.appeared value) := by
  obtain ⟨matcher, value, before, hmatcher, hvalue, hbefore, hshown, hshownBefore, hchange⟩ :=
    aggregateOf_compared h
  exact ⟨matcher, value, before, hmatcher, hvalue, hbefore, hshown, hshownBefore,
    Change.threeWay_iff hchange⟩

def amounts (numbers : List Int) : List Value :=
  numbers.map fun n => .object [("q", .int n)]

-- Two amounts in a store after two that cancel each other.
theorem sum_after_nothing :
    ∃ o, (aggregateOf .strict none (.text "q") (some .sum) true
      (amounts [2, 3]) (amounts [-3, 3])).result = .ok o ∧
    Change.ThreeWay (.real (Binary64.ofInt 5)) (.real (Binary64.ofInt 0)) o.change := by
  obtain ⟨o, ho⟩ := eq_ok_of_isOk (show (aggregateOf .strict none (.text "q") (some .sum) true
    (amounts [2, 3]) (amounts [-3, 3])).result.isOk = true by decide +kernel)
  obtain ⟨matcher, value, before, hmatcher, hvalue, hbefore, -, -, hthree, -⟩ :=
    change_threeWay_iff ho
  cases hmatcher
  have hfive : Statistics.sum [Binary64.ofInt 2, Binary64.ofInt 3] = Binary64.ofInt 5 := by
    decide +kernel
  have hnothing : Statistics.sum [Binary64.ofInt (-3), Binary64.ofInt 3] = Binary64.ofInt 0 := by
    decide +kernel
  obtain rfl : Number.real (Statistics.sum [Binary64.ofInt 2, Binary64.ofInt 3]) = value :=
    Except.ok.inj hvalue
  obtain rfl : Number.real (Statistics.sum [Binary64.ofInt (-3), Binary64.ofInt 3]) = before :=
    Except.ok.inj hbefore
  rw [hfive, hnothing] at hthree
  exact ⟨o, ho, hthree.mpr (by decide +kernel)⟩

-- Five after minus three is shown as an increase by five.
theorem five_after_minus_three :
    ∃ o, (aggregateOf .permissive none (.text "q") (some .sum) true
      (amounts [5]) (amounts [-3])).result = .ok o ∧
    o.value = .real (Binary64.ofInt 5) ∧ o.previous = .real (Binary64.ofInt (-3)) ∧
    o.change = ⟨some (.absolute (.real (Binary64.ofInt 5))), some .up, some (Binary64.ofInt 100)⟩ := by
  obtain ⟨o, ho⟩ := eq_ok_of_isOk (show (aggregateOf .permissive none (.text "q") (some .sum) true
    (amounts [5]) (amounts [-3])).result.isOk = true by decide +kernel)
  obtain ⟨matcher, value, before, hmatcher, hvalue, hbefore, hshown, hshownBefore, hchange⟩ :=
    aggregateOf_compared ho
  cases hmatcher
  have hfive : Statistics.sum [Binary64.ofInt 5] = Binary64.ofInt 5 := by decide +kernel
  have hthree : Statistics.sum [Binary64.ofInt (-3)] = Binary64.ofInt (-3) := by decide +kernel
  obtain rfl : Number.real (Statistics.sum [Binary64.ofInt 5]) = value := Except.ok.inj hvalue
  obtain rfl : Number.real (Statistics.sum [Binary64.ofInt (-3)]) = before := Except.ok.inj hbefore
  rw [hfive] at hshown hchange
  rw [hthree] at hshownBefore hchange
  rw [Change.compute_of_not_positive (by decide +kernel), if_pos (by decide +kernel)] at hchange
  exact ⟨o, ho, hshown, hshownBefore, (Except.ok.inj hchange).symm⟩

end Measure

end Tileboard
