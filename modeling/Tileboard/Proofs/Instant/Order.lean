import Mathlib
import Tileboard.Proofs.Instant.Reading
import Tileboard.Proofs.Number.Exact
import Tileboard.Proofs.Value.Equality

namespace Tileboard

namespace Number

theorem before_int (m n : Int) : (int m).before (int n) = decide (m < n) := by
  simp [before, place?, placeBefore]

theorem same_int (m n : Int) : (int m).same (int n) = decide (m = n) := by
  simp [same, place?, Prod.ext_iff, Bool.beq_eq_decide_eq]

end Number

namespace Comparison

def onInstants (cmp : Comparison) (t u : Instant) : Bool :=
  cmp.onNumbers (.int t.nanoseconds) (.int u.nanoseconds)

-- Texts that are before each other just as some whole numbers are answer all comparisons alike.
theorem onTexts_eq_onNumbers {s s' : String} {m n : Int} (hlt : s < s' ↔ m < n)
    (hgt : s' < s ↔ n < m) (cmp : Comparison) :
    cmp.onTexts s s' = cmp.onNumbers (.int m) (.int n) := by
  rw [Bool.eq_iff_iff]
  cases cmp <;> simp only [onTexts, onNumbers, Number.before_int, Number.same_int, hlt, hgt,
    decide_eq_true_eq, Bool.or_eq_true, Bool.not_eq_true', decide_eq_false_iff_not] <;> omega

-- A number that is whole in quantity compares as the whole number.
theorem onNumbers_of_toRat? {x : Binary64} {n : Int} (h : x.toRat? = some (n : Rat))
    (cmp : Comparison) (y : Number) : cmp.onNumbers (.real x) y = cmp.onNumbers (.int n) y :=
  cmp.onNumbers_congr (Number.place?_real h) y

end Comparison

namespace Instant

inductive Precision
  | day
  | second
  deriving DecidableEq

-- The canonical texts of a precision, each with its moment in nanoseconds since the start of 1970.
inductive Writes : Precision → String → Int → Prop
  | day {d : Date} (hd : d.IsPlain) : Writes .day d.text d.midnight
  | second {d : Date} (hd : d.IsPlain) {hour minute second : Nat}
      (hclock : (Clock.mk hour minute second 0).isValid = true) :
      Writes .second
        (d.text ++ "T" ++ padded 2 hour ++ ":" ++ padded 2 minute ++ ":" ++ padded 2 second)
        (d.midnight + (Clock.mk hour minute second 0).sinceMidnight)

theorem toList_second {d : Date} (hd : d.IsPlain) {hour minute second : Nat}
    (hclock : (Clock.mk hour minute second 0).isValid = true) :
    (d.text ++ "T" ++ padded 2 hour ++ ":" ++ padded 2 minute ++ ":" ++ padded 2 second).toList =
      d.chars ++ 'T' :: (Clock.mk hour minute second 0).chars := by
  have hnone : fractionText 0 = "" := rfl
  have h := toList_clocked hd hclock (by simp)
  rwa [hnone, String.append_empty] at h

theorem Clock.chars_lt_iff {hour minute second hour' minute' second' : Nat}
    (hclock : (Clock.mk hour minute second 0).isValid = true)
    (hclock' : (Clock.mk hour' minute' second' 0).isValid = true) :
    (Clock.mk hour minute second 0).chars < (Clock.mk hour' minute' second' 0).chars ↔
      (Clock.mk hour minute second 0).sinceMidnight <
        (Clock.mk hour' minute' second' 0).sinceMidnight := by
  obtain ⟨hhour, hminute, hsecond⟩ := Clock.lt_hundred hclock
  obtain ⟨hhour', hminute', hsecond'⟩ := Clock.lt_hundred hclock'
  simp only [Clock.isValid, Bool.and_eq_true, decide_eq_true_eq] at hclock hclock'
  simp only [chars, digitChars_append_lt_iff hhour hhour',
    digitChars_append_lt_iff hminute hminute', digitChars_append_lt_iff hsecond hsecond',
    List.cons_lt_cons_iff, Char.lt_irrefl, false_or, true_and, List.lt_irrefl, and_false, or_false,
    sinceMidnight]
  omega

theorem midnight_lt_iff {d e : Date} : d.midnight < e.midnight ↔ d.toDay < e.toDay := by
  unfold Date.midnight nanosecondsPerDay
  omega

variable {precision : Precision} {s s' : String} {m n : Int} {t u : Instant}

-- Texts of one precision are in the order of their moments.
theorem Writes.lt_iff (hs : Writes precision s m) (hs' : Writes precision s' n) :
    s < s' ↔ m < n := by
  cases hs with
  | @day d hd =>
      obtain @⟨e, he⟩ := hs'
      have h := Date.text_append_lt_iff hd he ""
      rw [String.append_empty] at h
      rw [h, midnight_lt_iff]
  | @second d hd hour minute second hclock =>
      obtain _ | @⟨e, he, hour', minute', second', hclock'⟩ := hs'
      have hrange := Clock.sinceMidnight_range hclock (by simp)
      have hrange' := Clock.sinceMidnight_range hclock' (by simp)
      rw [String.lt_iff, toList_second hd hclock, toList_second he hclock',
        Date.chars_append_lt_iff hd he, List.cons_lt_cons_iff, Clock.chars_lt_iff hclock hclock',
        ← Date.toDay_inj hd.valid he.valid]
      unfold Date.midnight
      unfold nanosecondsPerDay at hrange hrange' ⊢
      simp only [Char.lt_irrefl, false_or, true_and]
      omega

theorem Writes.ofText?_eq (h : Writes precision s m) : ofText? s = ofNanoseconds? m := by
  cases h with
  | day hd => exact Date.ofText?_text hd
  | second hd hclock =>
      rw [ofText?_of_chars hd hclock (by simp) (toList_second hd hclock)]
      rfl

theorem Writes.instant_eq (h : Writes precision s t.nanoseconds) :
    (Value.text s).instant = .ok (some t) :=
  congrArg Except.ok (h.ofText?_eq.trans (ofNanoseconds?_eq_some_iff.mpr rfl))

theorem Writes.exists_days (hs : Writes .day s m) (hs' : Writes .day s' n) :
    ∃ days : Int, n - m = days * nanosecondsPerDay := by
  obtain @⟨d, -⟩ := hs
  obtain @⟨e, -⟩ := hs'
  refine ⟨(e.toDay : Int) - d.toDay, ?_⟩
  unfold Date.midnight nanosecondsPerDay
  omega

theorem toRat?_seconds {k : Int} (hk : k.natAbs ≤ 106751) :
    (seconds (k * nanosecondsPerDay)).toRat? = some ((k * 86400 : Int) : Rat) := by
  have hmicro : (k * nanosecondsPerDay).fdiv 1000 = k * 86400000000 := by
    rw [Int.fdiv_eq_ediv_of_nonneg _ (by decide)]
    unfold nanosecondsPerDay
    omega
  have hwhole : (k * 86400000000).fdiv 1000000 = k * 86400 := by
    rw [Int.fdiv_eq_ediv_of_nonneg _ (by decide)]
    omega
  have hrest : (k * 86400000000).fmod 1000000 = 0 := by
    rw [Int.fmod_eq_emod_of_nonneg _ (by decide)]
    omega
  unfold seconds
  dsimp only
  rw [hmicro, hwhole, hrest]
  have hfraction : ((Binary64.ofInt 0).div (Binary64.ofInt 1000000)).toRat? =
      some ((0 : Int) : Rat) :=
    Binary64.toRat?_div (Binary64.toRat?_ofInt (by decide)) (Binary64.toRat?_ofInt (by decide))
      (by norm_num) (by norm_num) (by decide)
  exact Binary64.toRat?_add (Binary64.toRat?_ofInt (by omega)) hfraction (by norm_num) (by omega)

theorem toRat?_days {k : Int} (hk : k.natAbs ≤ 106751) :
    (days (k * nanosecondsPerDay)).toRat? = some (k : Rat) := by
  have hday : (86400 : Rat) ≠ 0 := by norm_num
  refine Binary64.toRat?_div (toRat?_seconds hk) (Binary64.toRat?_ofInt (n := 86400) (by decide))
    (by exact_mod_cast hday) ?_ (by omega)
  rw [Int.cast_mul]
  exact mul_div_cancel_right₀ _ (by exact_mod_cast hday)

-- More days than 106751 are more nanoseconds than can be counted.
theorem spanTo_days {k : Int} (hk : u.nanoseconds - t.nanoseconds = k * nanosecondsPerDay) :
    (k.natAbs ≤ 106751 → t.spanTo u = .ok (k * nanosecondsPerDay)) ∧
      (106751 < k.natAbs → t.spanTo u = .error .dateOutOfRange) := by
  have hspan := spanTo_eq t u
  rw [hk] at hspan
  unfold IsCount missing reach nanosecondsPerDay at hspan
  rcases hspan with ⟨hcount, -, h⟩ | ⟨hmissing, -⟩ | ⟨hcount, h⟩
  · exact ⟨fun _ => h, fun hfar => by omega⟩
  · omega
  · exact ⟨fun hnear => by omega, fun _ => h⟩

theorem daysBetween_eq (hs : Writes precision s t.nanoseconds)
    (hs' : Writes precision s' u.nanoseconds) :
    Value.daysBetween (.text s) (.text s') = t.daysTo u := by
  unfold Value.daysBetween
  rw [hs.instant_eq, hs'.instant_eq]
  rfl

theorem orderedBy_texts (cmp : Comparison) (s s' : String) :
    (Value.text s).orderedBy cmp.name (.text s') = return cmp.onTexts s s' := by
  have hname : Comparison.ofName? cmp.name = some cmp := by cases cmp <;> decide
  unfold Value.orderedBy
  rw [hname]
  rfl

-- Two texts of times in reach, both of a date or both of a date with a time of day, compare as the
-- times do. The days between two dates are one or more just if the first text is before the second,
-- as long as the time between them can be counted; else it is refused.
theorem text_order_is_time_order (hs : Writes precision s t.nanoseconds)
    (hs' : Writes precision s' u.nanoseconds) :
    (Value.text s).instant = .ok (some t) ∧ (Value.text s').instant = .ok (some u) ∧
    (∀ cmp : Comparison,
      (Value.text s).orderedBy cmp.name (.text s') = return cmp.onInstants t u) ∧
    (precision = .day → ∃ days : Int,
      u.nanoseconds - t.nanoseconds = days * nanosecondsPerDay ∧
      (days.natAbs ≤ 106751 → ∃ x : Binary64,
        Value.daysBetween (.text s) (.text s') = .ok (some x) ∧ x.toRat? = some (days : Rat) ∧
        (s < s' ↔ Comparison.greaterOrEqual.onNumbers (.real x) (.int 1) = true)) ∧
      (106751 < days.natAbs →
        Value.daysBetween (.text s) (.text s') = .error .dateOutOfRange)) := by
  refine ⟨hs.instant_eq, hs'.instant_eq, fun cmp => ?_, ?_⟩
  · rw [orderedBy_texts, cmp.onTexts_eq_onNumbers (hs.lt_iff hs') (hs'.lt_iff hs)]
    rfl
  · rintro rfl
    obtain ⟨k, hk⟩ := hs.exists_days hs'
    obtain ⟨hnear, hfar⟩ := spanTo_days hk
    rw [daysBetween_eq hs hs']
    unfold daysTo
    refine ⟨k, hk, fun hdays => ⟨days (k * nanosecondsPerDay), ?_, toRat?_days hdays, ?_⟩,
      fun hdays => ?_⟩
    · rw [hnear hdays]
      rfl
    · rw [hs.lt_iff hs', Comparison.onNumbers_of_toRat? (toRat?_days hdays)]
      unfold nanosecondsPerDay at hk
      simp only [Comparison.onNumbers, Number.before_int, Number.same_int, Bool.or_eq_true,
        decide_eq_true_eq]
      omega
    · rw [hfar hdays]
      rfl

theorem Writes.of_eq (h : Writes precision s m) (htext : s = s') (hmoment : m = n) :
    Writes precision s' n := htext ▸ hmoment ▸ h

def leapStart : Instant := ⟨1709078400000000000, by decide⟩

def leapEnd : Instant := ⟨1709251200000000000, by decide⟩

theorem writes_leapStart : Writes .day "2024-02-28" leapStart.nanoseconds :=
  (Writes.day (d := ⟨2024, 2, 28⟩) ⟨by decide, by decide⟩).of_eq (by decide +kernel)
    (by decide +kernel)

theorem writes_leapEnd : Writes .day "2024-03-01" leapEnd.nanoseconds :=
  (Writes.day (d := ⟨2024, 3, 1⟩) ⟨by decide, by decide⟩).of_eq (by decide +kernel)
    (by decide +kernel)

def secondBefore1970 : Instant := ⟨-1000000000, by decide⟩

def startOf1970 : Instant := ⟨0, by decide⟩

theorem writes_secondBefore1970 :
    Writes .second "1969-12-31T23:59:59" secondBefore1970.nanoseconds := by
  have hclock : (Clock.mk 23 59 59 0).isValid = true := rfl
  exact (Writes.second (d := ⟨1969, 12, 31⟩) ⟨by decide, by decide⟩ hclock).of_eq
    (by decide +kernel) (by decide +kernel)

theorem writes_startOf1970 : Writes .second "1970-01-01T00:00:00" startOf1970.nanoseconds := by
  have hclock : (Clock.mk 0 0 0 0).isValid = true := rfl
  exact (Writes.second (d := ⟨1970, 1, 1⟩) ⟨by decide, by decide⟩ hclock).of_eq
    (by decide +kernel) (by decide +kernel)

-- The last second before 1970 comes before the first of it, and over the leap day there are two
-- days between the ends.
theorem leap_days_counted :
    (Value.text "1969-12-31T23:59:59").orderedBy "gte" (.text "1970-01-01T00:00:00") =
      Pure.pure false ∧
    (Value.text "2024-02-28").orderedBy "lte" (.text "2024-03-01") = Pure.pure true ∧
    ∃ x : Binary64, Value.daysBetween (.text "2024-02-28") (.text "2024-03-01") = .ok (some x) ∧
      x.toRat? = some 2 ∧ Comparison.greaterOrEqual.onNumbers (.real x) (.int 1) = true := by
  have hseconds := text_order_is_time_order writes_secondBefore1970 writes_startOf1970
  obtain ⟨-, -, hordered, hdays⟩ := text_order_is_time_order writes_leapStart writes_leapEnd
  obtain ⟨k, hk, hnear, -⟩ := hdays rfl
  have htwo : k = 2 := by
    unfold leapStart leapEnd nanosecondsPerDay at hk
    dsimp only at hk
    omega
  subst htwo
  obtain ⟨x, hx, hcount, hiff⟩ := hnear (by decide)
  exact ⟨hseconds.2.2.1 .greaterOrEqual, hordered .lessOrEqual, x, hx, hcount,
    hiff.mp (by decide)⟩

-- From one end of the reach to the other there are more days than can be counted.
theorem reach_days_refused :
    ("1677-09-22" : String) < "2262-04-11" ∧
    ((Value.text "1677-09-22").instant.toOption.join.isSome = true ∧
      (Value.text "2262-04-11").instant.toOption.join.isSome = true) ∧
    Value.daysBetween (.text "1677-09-22") (.text "2262-04-11") = .error .dateOutOfRange := by
  refine ⟨by decide, ⟨by cbv, by cbv⟩, by cbv⟩

end Instant

end Tileboard
