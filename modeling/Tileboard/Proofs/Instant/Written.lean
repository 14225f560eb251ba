import Tileboard.Proofs.Instant.Calendar
import Tileboard.Proofs.Number.Digits
import Tileboard.Proofs.Text.Trimming
import Tileboard.Proofs.Window.Selection

namespace Tileboard

open Numeral (takeDigits digitsValue)

namespace Date

-- Dates whose text has ten characters: years of four digits.
structure IsPlain (d : Date) : Prop where
  valid : d.isValid = true
  year : d.year < 10000

variable {d e : Date}

def chars (d : Date) : List Char :=
  digitChars 4 d.year ++ '-' :: (digitChars 2 d.month ++ '-' :: digitChars 2 d.day)

theorem length_chars (d : Date) : d.chars.length = 10 := by
  simp [chars, length_digitChars]

theorem chars_ne_nil (d : Date) : d.chars ≠ [] :=
  List.length_pos_iff.mp (by rw [length_chars]; decide)

theorem month_lt_hundred (h : d.isValid = true) : d.month < tenTo 2 := by
  have := (isValid_iff.mp h).2.1
  have : tenTo 2 = 100 := rfl
  omega

theorem monthLength_le (year month : Nat) : Calendar.monthLength year month ≤ 31 := by
  unfold Calendar.monthLength Calendar.monthLengths
  cases h : ([31, if Calendar.isLeap year then 29 else 28, 31, 30, 31, 30, 31, 31, 30, 31, 30,
      31] : List Nat)[month - 1]? with
  | none => exact Nat.zero_le _
  | some length =>
      have hmem := List.mem_of_getElem? h
      simp only [List.mem_cons, List.not_mem_nil, or_false] at hmem
      change length ≤ 31
      split at hmem <;> omega

theorem day_lt_hundred (h : d.isValid = true) : d.day < tenTo 2 := by
  have hlength := (isValid_iff.mp h).2.2.2
  have := monthLength_le d.year d.month
  have : tenTo 2 = 100 := rfl
  omega

theorem toList_text (h : d.IsPlain) : d.text.toList = d.chars := by
  have hyear : d.year < tenTo 4 := h.year
  simp only [text, String.toList_append, toList_padded (by decide) hyear,
    toList_padded (by decide) (month_lt_hundred h.valid),
    toList_padded (by decide) (day_lt_hundred h.valid)]
  simp [chars]

theorem text_ne_empty (h : d.IsPlain) : d.text ≠ "" := by
  rw [Ne, ← String.toList_eq_nil_iff, toList_text h]
  exact chars_ne_nil d

-- The order of texts that begin with a date is that of the days, then that of the rest.
theorem chars_append_lt_iff (hd : d.IsPlain) (he : e.IsPlain) (xs ys : List Char) :
    d.chars ++ xs < e.chars ++ ys ↔ d.toDay < e.toDay ∨ d = e ∧ xs < ys := by
  have hyears : d.year < tenTo 4 ∧ e.year < tenTo 4 := ⟨hd.year, he.year⟩
  simp only [chars, List.append_assoc, List.cons_append,
    digitChars_append_lt_iff hyears.1 hyears.2, List.cons_lt_cons_iff,
    digitChars_append_lt_iff (month_lt_hundred hd.valid) (month_lt_hundred he.valid),
    digitChars_append_lt_iff (day_lt_hundred hd.valid) (day_lt_hundred he.valid),
    toDay_lt_iff hd.valid he.valid, Precedes, Char.lt_irrefl, false_or, true_and]
  obtain ⟨year, month, day⟩ := d
  obtain ⟨year', month', day'⟩ := e
  simp only [Date.mk.injEq]
  tauto

theorem text_append_lt_iff (hd : d.IsPlain) (he : e.IsPlain) (s : String) :
    d.text ++ s < e.text ↔ d.toDay < e.toDay := by
  rw [String.lt_iff, String.toList_append, toList_text hd, toList_text he,
    ← List.append_nil e.chars, chars_append_lt_iff hd he]
  simp

theorem text_lt_append_iff (hd : d.IsPlain) (he : e.IsPlain) (s : String) :
    d.text < e.text ++ s ↔ d.toDay < e.toDay ∨ d = e ∧ s ≠ "" := by
  rw [String.lt_iff, String.toList_append, toList_text hd, toList_text he,
    ← List.append_nil d.chars, chars_append_lt_iff hd he]
  have hrest : ([] : List Char) < s.toList ↔ s ≠ "" := by
    rw [Ne, ← String.toList_eq_nil_iff]
    cases s.toList with
    | nil => simp
    | cons c cs => simp
  rw [hrest]

theorem text_append_eq_iff (hd : d.IsPlain) (he : e.IsPlain) (s : String) :
    d.text ++ s = e.text ↔ d = e ∧ s = "" := by
  constructor
  · intro h
    -- equal texts are in neither order
    have hnot : ¬e.text < d.text ++ s := h ▸ String.lt_irrefl _
    have hnot' : ¬d.text ++ s < e.text := h ▸ String.lt_irrefl _
    rw [text_lt_append_iff he hd, not_or] at hnot
    rw [text_append_lt_iff hd he] at hnot'
    have heq : e = d := (toDay_inj he.valid hd.valid).mp (by omega)
    exact ⟨heq.symm, by_contra fun hs => hnot.2 ⟨heq, hs⟩⟩
  · rintro ⟨rfl, rfl⟩
    exact String.append_empty

end Date

namespace Text

theorem isBlank_of_mem_digitChars {width n : Nat} {c : Char} (h : c ∈ digitChars width n) :
    isBlank c = false := by
  obtain ⟨d, hd, rfl⟩ := List.mem_map.mp h
  exact isBlank_digitChar (lt_ten_of_mem_lastDigits hd)

end Text

namespace Date

theorem isBlank_of_mem_chars {d : Date} {c : Char} (h : c ∈ d.chars) :
    Text.isBlank c = false := by
  have hhyphen : Text.isBlank '-' = false := by decide
  simp only [chars, List.mem_append, List.mem_cons] at h
  rcases h with h | rfl | h | rfl | h
  · exact Text.isBlank_of_mem_digitChars h
  · exact hhyphen
  · exact Text.isBlank_of_mem_digitChars h
  · exact hhyphen
  · exact Text.isBlank_of_mem_digitChars h

end Date

namespace Instant

variable {d : Date} {cs rest : List Char}

theorem takeDigits_hyphen (rest : List Char) : takeDigits ('-' :: rest) = ([], '-' :: rest) :=
  Numeral.takeDigits_cons_other (by decide) rest

theorem takeNumber?_digitChars {least most width n : Nat} (hn : n < tenTo width)
    (hleast : least ≤ width) (hmost : width ≤ most) (hrest : takeDigits rest = ([], rest)) :
    takeNumber? least most (digitChars width n ++ rest) = some (n, rest) := by
  unfold takeNumber?
  rw [Numeral.takeDigits_digitChars, hrest]
  simp only [List.append_nil, length_lastDigits, digitsValue_lastDigits hn]
  exact if_pos ⟨hleast, hmost⟩

-- No digit stands behind a number that is as wide as it may be.
theorem eq_of_takeNumber?_digitChars {least width n : Nat} {found : Nat × List Char}
    (hn : n < tenTo width) (h : takeNumber? least width (digitChars width n ++ rest) = some found) :
    found = (n, rest) := by
  unfold takeNumber? at h
  rw [Numeral.takeDigits_digitChars] at h
  simp only [List.length_append, length_lastDigits] at h
  split at h
  · rename_i hwidth
    have hnone : (takeDigits rest).1 = [] := List.length_eq_zero_iff.mp (by omega)
    have hrest := Numeral.takeDigits_of_none hnone
    rw [hrest, List.append_nil, digitsValue_lastDigits hn] at h
    exact (Option.some.inj h).symm
  · cases h

-- Of a text that begins with a plain date, year and month are read as they are. Digits
-- behind the date would belong to the day.
theorem takeDate?_chars (hd : d.IsPlain) (rest : List Char) : takeDate? (d.chars ++ rest) =
    (takeNumber? 1 2 (digitChars 2 d.day ++ rest)).map fun day =>
      (⟨d.year, d.month, day.1⟩, day.2) := by
  have hyear : takeDigits (d.chars ++ rest) = (lastDigits 4 d.year,
      '-' :: (digitChars 2 d.month ++ '-' :: (digitChars 2 d.day ++ rest))) := by
    simp only [Date.chars, List.append_assoc, List.cons_append]
    rw [Numeral.takeDigits_digitChars, takeDigits_hyphen, List.append_nil]
  have hmonth : takeNumber? 1 2 (digitChars 2 d.month ++ '-' :: (digitChars 2 d.day ++ rest)) =
      some (d.month, '-' :: (digitChars 2 d.day ++ rest)) :=
    takeNumber?_digitChars (Date.month_lt_hundred hd.valid) (by decide) (by decide)
      (takeDigits_hyphen _)
  have hvalue : digitsValue (lastDigits 4 d.year) = d.year := digitsValue_lastDigits hd.year
  unfold takeDate?
  rw [hyear]
  simp only [length_lastDigits, hvalue]
  unfold yearFirst?
  simp only [true_or, if_true]
  rw [hmonth]
  simp only [Option.bind_eq_bind, Option.bind_some, dropChar?, if_true, List.isEmpty_cons,
    Bool.false_eq_true, if_false]
  cases takeNumber? 1 2 (digitChars 2 d.day ++ rest) <;> rfl

theorem eq_of_takeDate?_chars (hd : d.IsPlain) {found : Date × List Char}
    (h : takeDate? (d.chars ++ rest) = some found) : found = (d, rest) := by
  rw [takeDate?_chars hd] at h
  obtain ⟨day, hday, rfl⟩ := Option.map_eq_some_iff.mp h
  rw [eq_of_takeNumber?_digitChars (Date.day_lt_hundred hd.valid) hday]

-- The time of day that stands behind a date has its parts in their ranges, and what is
-- left of the text stands at its end.
theorem takeNumber?_suffix {least most n : Nat} (h : takeNumber? least most cs = some (n, rest)) :
    rest <:+ cs := by
  unfold takeNumber? at h
  split at h
  rename_i ds after htake
  split at h
  · cases h
    have hsuffix := Numeral.takeDigits_suffix cs
    rwa [htake] at hsuffix
  · cases h

theorem takeFraction?_eq_some {n : Nat} (h : takeFraction? cs = some (n, rest)) :
    n < 1000000000 ∧ rest <:+ cs := by
  unfold takeFraction? at h
  split at h
  · rename_i more
    split at h
    · cases h
    · rename_i ds after _ htake
      cases h
      have hsuffix := Numeral.takeDigits_suffix more
      rw [htake] at hsuffix
      refine ⟨?_, hsuffix.trans (List.suffix_cons _ _)⟩
      have hten : ∀ d ∈ ds.take 9, d < 10 := by
        intro d hd
        have hmem : d ∈ (takeDigits more).1 := by
          rw [htake]
          exact List.mem_of_mem_take hd
        exact Numeral.lt_ten_of_mem_takeDigits hmem
      have hlt := digitsValue_lt hten
      have hwidth : (ds.take 9).length ≤ 9 := List.length_take_le 9 ds
      have hnine : tenTo (ds.take 9).length * tenTo (9 - (ds.take 9).length) = 1000000000 := by
        rw [← tenTo_add, Nat.add_sub_cancel' hwidth]
        rfl
      rw [← hnine]
      exact Nat.mul_lt_mul_of_pos_right hlt (tenTo_pos _)
  · cases h
    exact ⟨by decide, List.suffix_refl _⟩

theorem takeClock?_eq_some {clock : Clock} (h : takeClock? cs = some (clock, rest)) :
    clock.nanosecond < 1000000000 ∧ rest <:+ cs := by
  have hdigits := Numeral.takeDigits_suffix cs
  have hzero : 0 < 1000000000 := by decide
  unfold takeClock? at h
  split at h
  rename_i ds after htake
  rw [htake] at hdigits
  split at h
  · obtain ⟨⟨fraction, last⟩, hfraction, h⟩ := Option.bind_eq_some_iff.mp h
    cases h
    obtain ⟨hlt, hsuffix⟩ := takeFraction?_eq_some hfraction
    exact ⟨hlt, hsuffix.trans hdigits⟩
  · cases h
    exact ⟨hzero, hdigits⟩
  · obtain ⟨⟨hour, afterHour⟩, hhour, h⟩ := Option.bind_eq_some_iff.mp h
    have hhour := takeNumber?_suffix hhour
    dsimp only at h
    split at h
    · rename_i more
      obtain ⟨⟨minute, afterMinute⟩, hminute, h⟩ := Option.bind_eq_some_iff.mp h
      have hminute := (takeNumber?_suffix hminute).trans ((List.suffix_cons _ _).trans hhour)
      dsimp only at h
      split at h
      · rename_i further
        obtain ⟨⟨second, afterSecond⟩, hsecond, h⟩ := Option.bind_eq_some_iff.mp h
        obtain ⟨⟨fraction, last⟩, hfraction, h⟩ := Option.bind_eq_some_iff.mp h
        cases h
        obtain ⟨hlt, hsuffix⟩ := takeFraction?_eq_some hfraction
        exact ⟨hlt, hsuffix.trans ((takeNumber?_suffix hsecond).trans
          ((List.suffix_cons _ _).trans hminute))⟩
      · cases h
        exact ⟨hzero, hminute⟩
    · split at h
      · cases h
        exact ⟨hzero, hhour⟩
      · cases h

theorem zone?_eq_zero {zone : Int} (hsign : ∀ c ∈ cs, c ≠ '+' ∧ c ≠ '-')
    (h : zone? cs = some zone) : zone = 0 := by
  unfold zone? at h
  have hsub : ∀ c ∈ dropBlanks cs, c ≠ '+' ∧ c ≠ '-' :=
    fun c hc => hsign c ((List.dropWhile_suffix _).subset hc)
  split at h
  · exact (Option.some.inj h).symm
  · exact (Option.some.inj h).symm
  · rename_i sign more _ heq
    rw [heq] at hsub
    have hne := hsub sign List.mem_cons_self
    rw [if_neg (by simpa using hne)] at h
    cases h

theorem takeTime?_eq_some {clock : Clock} {zone : Int} (h : takeTime? cs = some (clock, zone)) :
    clock.nanosecond < 1000000000 ∧ ((∀ c ∈ cs, c ≠ '+' ∧ c ≠ '-') → zone = 0) := by
  unfold takeTime? at h
  split at h
  · cases h
    exact ⟨by decide, fun _ => rfl⟩
  · cases h
    exact ⟨by decide, fun _ => rfl⟩
  · rename_i mark more _
    split at h
    · obtain ⟨⟨time, after⟩, hclock, h⟩ := Option.bind_eq_some_iff.mp h
      obtain ⟨offset, hzone, h⟩ := Option.bind_eq_some_iff.mp h
      cases h
      obtain ⟨hlt, hsuffix⟩ := takeClock?_eq_some hclock
      refine ⟨hlt, fun hsign => zone?_eq_zero (fun c hc => ?_) hzone⟩
      exact hsign c (List.mem_cons_of_mem _ ((List.dropWhile_suffix _).subset (hsuffix.subset hc)))
    · cases h

namespace Clock

theorem sinceMidnight_range {clock : Clock} (hvalid : clock.isValid = true)
    (h : clock.nanosecond < 1000000000) :
    0 ≤ clock.sinceMidnight ∧ clock.sinceMidnight < nanosecondsPerDay := by
  simp only [isValid, Bool.and_eq_true, decide_eq_true_eq] at hvalid
  unfold sinceMidnight nanosecondsPerDay
  omega

end Clock

end Instant

namespace Date

-- The first moment of a date, in nanoseconds since the start of 1970.
def midnight (d : Date) : Int :=
  ((d.toDay : Int) - Calendar.epochDay) * Instant.nanosecondsPerDay

theorem trimChars_text_append {d : Date} (hd : d.IsPlain) (rest : String) :
    Text.trimChars (d.text ++ rest).toList =
      d.chars ++ Text.dropEnd Text.isBlank rest.toList := by
  rw [String.toList_append, toList_text hd]
  exact Text.trimChars_append (fun c hc => isBlank_of_mem_chars hc) (chars_ne_nil d) rest.toList

theorem ofText?_text {d : Date} (hd : d.IsPlain) :
    Instant.ofText? d.text = Instant.ofNanoseconds? d.midnight := by
  have htrim := trimChars_text_append hd ""
  have hdate : Instant.takeDate? (d.chars ++ []) = some (d, []) := by
    rw [Instant.takeDate?_chars hd, Instant.takeNumber?_digitChars (day_lt_hundred hd.valid)
      (by decide) (by decide) rfl]
    rfl
  rw [String.append_empty] at htrim
  have hclock : Instant.Clock.isValid ⟨0, 0, 0, 0⟩ = true := rfl
  have hreach : Instant.at? d (Instant.Clock.sinceMidnight ⟨0, 0, 0, 0⟩) =
      Instant.ofNanoseconds? d.midnight := congrArg Instant.ofNanoseconds? (Int.add_zero _)
  unfold Instant.ofText?
  rw [htrim, show Text.dropEnd Text.isBlank "".toList = [] from rfl, hdate]
  simp only [Option.bind_eq_bind, Option.bind_some, Instant.takeTime?, hd.valid, hclock,
    Bool.and_self, if_true, hreach]
  cases hmidnight : Instant.ofNanoseconds? d.midnight with
  | none => rfl
  | some t =>
      have ht := Instant.ofNanoseconds?_eq_some_iff.mp hmidnight
      simp [Instant.back?, ht, hmidnight]

-- A text that begins with a date is read as a time on this date, moved by the offset behind
-- it.
theorem ofText?_text_append {d : Date} (hd : d.IsPlain) {rest : String} {t : Instant}
    (h : Instant.ofText? (d.text ++ rest) = some t) :
    ∃ clock zone, Instant.takeTime? (Text.dropEnd Text.isBlank rest.toList) = some (clock, zone) ∧
      clock.isValid = true ∧
      t.nanoseconds = d.midnight + clock.sinceMidnight - zone * 60000000000 := by
  unfold Instant.ofText? at h
  rw [trimChars_text_append hd] at h
  obtain ⟨found, hdate, h⟩ := Option.bind_eq_some_iff.mp h
  cases Instant.eq_of_takeDate?_chars hd hdate
  obtain ⟨⟨clock, zone⟩, htime, h⟩ := Option.bind_eq_some_iff.mp h
  dsimp only at h
  split at h
  · rename_i hvalid
    obtain ⟨localTime, hlocal, h⟩ := Option.bind_eq_some_iff.mp h
    rw [Bool.and_eq_true] at hvalid
    refine ⟨clock, zone, htime, hvalid.2, ?_⟩
    rw [Instant.ofNanoseconds?_eq_some_iff.mp h, Instant.ofNanoseconds?_eq_some_iff.mp hlocal]
    rfl
  · cases h

-- Without a sign behind the date there is no offset, and the time lies on the date.
theorem ofText?_unsigned {d : Date} (hd : d.IsPlain) {rest : String} {t : Instant}
    (h : Instant.ofText? (d.text ++ rest) = some t) (hsign : ∀ c ∈ rest.toList, c ≠ '+' ∧ c ≠ '-') :
    d.midnight ≤ t.nanoseconds ∧ t.nanoseconds < d.midnight + Instant.nanosecondsPerDay := by
  obtain ⟨clock, zone, htime, hvalid, ht⟩ := ofText?_text_append hd h
  obtain ⟨hlt, hzone⟩ := Instant.takeTime?_eq_some htime
  have hkept := Text.dropEnd_prefix Text.isBlank rest.toList
  have hzero : zone = 0 := hzone fun c hc => hsign c (hkept.subset hc)
  have hrange := Instant.Clock.sinceMidnight_range hvalid hlt
  rw [ht, hzero]
  omega

end Date

end Tileboard
