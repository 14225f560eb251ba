import Tileboard.Proofs.Instant.Written
import Tileboard.Proofs.Table.Record

namespace Tileboard

open Numeral (takeDigits digitsValue)

namespace Instant

variable {rest : List Char}

def fractionChars (n : Nat) : List Char :=
  if n = 0 then []
  else if n % 1000 = 0 then '.' :: digitChars 6 (n / 1000)
  else '.' :: digitChars 9 n

theorem toList_fractionText {n : Nat} (h : n < 1000000000) :
    (fractionText n).toList = fractionChars n := by
  have hsix : tenTo 6 = 1000000 := rfl
  have hnine : tenTo 9 = 1000000000 := rfl
  unfold fractionText fractionChars
  by_cases hzero : n = 0
  · rw [if_pos hzero, if_pos hzero]
    rfl
  · rw [if_neg hzero, if_neg hzero]
    by_cases hmicro : n % 1000 = 0
    · rw [if_pos hmicro, if_pos hmicro, String.toList_append,
        toList_padded (by decide) (by omega)]
      rfl
    · rw [if_neg hmicro, if_neg hmicro, String.toList_append,
        toList_padded (by decide) (by omega)]
      rfl

theorem takeFraction?_point {d : Nat} {ds : List Nat} {rest after : List Char}
    (h : takeDigits rest = (d :: ds, after)) : takeFraction? ('.' :: rest) =
      some (digitsValue ((d :: ds).take 9) * tenTo (9 - ((d :: ds).take 9).length), after) := by
  rw [takeFraction?, h]

theorem takeFraction?_digitChars {width n : Nat} (hpos : 0 < width) (hwidth : width ≤ 9)
    (hn : n < tenTo width) : takeFraction? ('.' :: digitChars width n) =
      some (n * tenTo (9 - width), []) := by
  have htake : takeDigits (digitChars width n) = (lastDigits width n, []) := by
    have h := Numeral.takeDigits_digitChars width n []
    rwa [List.append_nil, show takeDigits [] = ([], []) from rfl, List.append_nil] at h
  have hall : (lastDigits width n).take 9 = lastDigits width n :=
    List.take_of_length_le (by rwa [length_lastDigits])
  have hvalue := digitsValue_lastDigits hn
  have hlength := length_lastDigits width n
  cases hdigits : lastDigits width n with
  | nil =>
      rw [hdigits] at hlength
      exact absurd hlength.symm (Nat.ne_of_gt hpos)
  | cons d ds =>
      rw [hdigits] at htake hall hvalue hlength
      rw [takeFraction?_point htake, hall, hvalue, hlength]

theorem takeFraction?_fractionChars {n : Nat} (h : n < 1000000000) :
    takeFraction? (fractionChars n) = some (n, []) := by
  have hsix : tenTo 6 = 1000000 := rfl
  have hnine : tenTo 9 = 1000000000 := rfl
  unfold fractionChars
  by_cases hzero : n = 0
  · rw [if_pos hzero, hzero]
    rfl
  · rw [if_neg hzero]
    by_cases hmicro : n % 1000 = 0
    · rw [if_pos hmicro, takeFraction?_digitChars (by decide) (by decide) (by omega)]
      have hthree : n / 1000 * tenTo (9 - 6) = n := by
        change n / 1000 * 1000 = n
        omega
      rw [hthree]
    · rw [if_neg hmicro, takeFraction?_digitChars (by decide) (by decide) (by omega)]
      exact congrArg (fun m => some (m, [])) (Nat.mul_one n)

theorem takeDigits_fractionChars (n : Nat) :
    takeDigits (fractionChars n) = ([], fractionChars n) := by
  have hpoint : ∀ rest, takeDigits ('.' :: rest) = ([], '.' :: rest) :=
    Numeral.takeDigits_cons_other (by decide)
  unfold fractionChars
  split
  · rfl
  · split
    · exact hpoint _
    · exact hpoint _

theorem takeDigits_colon (rest : List Char) : takeDigits (':' :: rest) = ([], ':' :: rest) :=
  Numeral.takeDigits_cons_other (by decide) rest

namespace Clock

-- Two digits each for hours, minutes and seconds, with colons between them.
def chars (c : Clock) : List Char :=
  digitChars 2 c.hour ++ ':' :: (digitChars 2 c.minute ++ ':' ::
    (digitChars 2 c.second ++ fractionChars c.nanosecond))

def ofSinceMidnight (n : Nat) : Clock :=
  ⟨n / 1000000000 / 3600, n / 1000000000 / 60 % 60, n / 1000000000 % 60, n % 1000000000⟩

theorem ofSinceMidnight_spec {n : Nat} (h : n < 86400000000000) :
    (ofSinceMidnight n).isValid = true ∧ (ofSinceMidnight n).nanosecond < 1000000000 ∧
      (ofSinceMidnight n).sinceMidnight = n := by
  refine ⟨?_, Nat.mod_lt _ (by decide), ?_⟩
  · unfold isValid ofSinceMidnight
    simp only [Bool.and_eq_true, decide_eq_true_eq]
    omega
  · unfold sinceMidnight ofSinceMidnight
    dsimp only
    omega

variable {c : Clock}

theorem lt_hundred (h : c.isValid = true) :
    c.hour < tenTo 2 ∧ c.minute < tenTo 2 ∧ c.second < tenTo 2 := by
  have htwo : tenTo 2 = 100 := rfl
  simp only [isValid, Bool.and_eq_true, decide_eq_true_eq] at h
  omega

theorem isBlank_of_mem_chars {x : Char} (h : x ∈ c.chars) : Text.isBlank x = false := by
  have hcolon : Text.isBlank ':' = false := by decide
  have hpoint : Text.isBlank '.' = false := by decide
  simp only [chars, List.mem_append, List.mem_cons] at h
  rcases h with h | rfl | h | rfl | h | h
  · exact Text.isBlank_of_mem_digitChars h
  · exact hcolon
  · exact Text.isBlank_of_mem_digitChars h
  · exact hcolon
  · exact Text.isBlank_of_mem_digitChars h
  · unfold fractionChars at h
    split at h
    · cases h
    · split at h <;> rcases List.mem_cons.mp h with rfl | h
      · exact hpoint
      · exact Text.isBlank_of_mem_digitChars h
      · exact hpoint
      · exact Text.isBlank_of_mem_digitChars h

theorem chars_ne_nil (c : Clock) : c.chars ≠ [] := by
  unfold chars
  simp

end Clock

theorem takeClock?_chars {c : Clock} (hvalid : c.isValid = true) (hn : c.nanosecond < 1000000000) :
    takeClock? c.chars = some (c, []) := by
  obtain ⟨hhour, hminute, hsecond⟩ := Clock.lt_hundred hvalid
  have hlength := length_lastDigits 2 c.hour
  unfold takeClock? Clock.chars
  rw [Numeral.takeDigits_digitChars, takeDigits_colon, List.append_nil]
  dsimp only
  split
  · rename_i heq
    rw [heq] at hlength
    cases hlength
  · rename_i heq
    rw [heq] at hlength
    cases hlength
  · rw [takeNumber?_digitChars hhour (by decide) (by decide) (takeDigits_colon _)]
    simp only [Option.bind_eq_bind, Option.bind_some]
    rw [takeNumber?_digitChars hminute (by decide) (by decide) (takeDigits_colon _)]
    simp only [Option.bind_some]
    rw [takeNumber?_digitChars hsecond (by decide) (by decide) (takeDigits_fractionChars _)]
    simp only [Option.bind_some]
    rw [takeFraction?_fractionChars hn]
    rfl

theorem takeTime?_chars {c : Clock} (hvalid : c.isValid = true) (hn : c.nanosecond < 1000000000) :
    takeTime? ('T' :: c.chars) = some (c, 0) := by
  have hclock := takeClock?_chars hvalid hn
  have hzone : zone? [] = some 0 := rfl
  cases hchars : c.chars with
  | nil => exact absurd hchars c.chars_ne_nil
  | cons x xs =>
      have hblank : Text.isBlank x = false :=
        Clock.isBlank_of_mem_chars (hchars ▸ List.mem_cons_self)
      have hstart : dropBlanks (x :: xs) = x :: xs := List.dropWhile_cons_of_neg (by simp [hblank])
      rw [hchars] at hclock
      rw [takeTime?]
      · simp only [true_or, if_true]
        rw [hstart, hclock]
        rfl
      · simp

theorem toList_clocked {d : Date} (hd : d.IsPlain) {c : Clock} (hvalid : c.isValid = true)
    (hn : c.nanosecond < 1000000000) :
    (d.text ++ "T" ++ padded 2 c.hour ++ ":" ++ padded 2 c.minute ++ ":" ++ padded 2 c.second ++
      fractionText c.nanosecond).toList = d.chars ++ 'T' :: c.chars := by
  obtain ⟨hhour, hminute, hsecond⟩ := Clock.lt_hundred hvalid
  simp only [String.toList_append, Date.toList_text hd]
  rw [toList_padded (by decide) hhour, toList_padded (by decide) hminute,
    toList_padded (by decide) hsecond, toList_fractionText hn]
  simp [Clock.chars]

theorem toList_stamp {d : Date} (hd : d.IsPlain) {n : Nat} (h : n < 86400000000000) :
    (stamp "T" d n).toList = d.chars ++ 'T' :: (Clock.ofSinceMidnight n).chars := by
  obtain ⟨hvalid, hn, -⟩ := Clock.ofSinceMidnight_spec h
  have hstamp : stamp "T" d n = d.text ++ "T" ++ padded 2 (Clock.ofSinceMidnight n).hour ++ ":" ++
      padded 2 (Clock.ofSinceMidnight n).minute ++ ":" ++
      padded 2 (Clock.ofSinceMidnight n).second ++
      fractionText (Clock.ofSinceMidnight n).nanosecond := rfl
  rw [hstamp, toList_clocked hd hvalid hn]

theorem toDay_date (t : Instant) :
    (t.date.toDay : Int) = t.nanoseconds.fdiv nanosecondsPerDay + Calendar.epochDay := by
  have hepoch : Calendar.epochDay = 719528 := by decide
  have hwithin := t.within
  have hday := (Date.ofDay_spec
    (t.nanoseconds.fdiv nanosecondsPerDay + Calendar.epochDay).toNat).2
  unfold date
  rw [hday, hepoch, Int.fdiv_eq_ediv_of_nonneg _ (by decide)]
  unfold reach at hwithin
  unfold nanosecondsPerDay
  omega

-- The times in reach lie in years of four digits.
theorem isPlain_date (t : Instant) : t.date.IsPlain := by
  have hepoch : Calendar.epochDay = 719528 := by decide
  have hlast : Calendar.daysBeforeYear 10000 = 3652425 := by decide
  have hwithin := t.within
  have hday := toDay_date t
  refine ⟨(Date.ofDay_spec _).1, by_contra fun hyear => ?_⟩
  have hmono := Calendar.daysBeforeYear_mono (Nat.not_lt.mp hyear)
  rw [Int.fdiv_eq_ediv_of_nonneg _ (by decide), hepoch] at hday
  unfold Date.toDay at hday
  unfold reach at hwithin
  unfold nanosecondsPerDay at hday
  omega

theorem sinceMidnight_lt (t : Instant) : t.sinceMidnight < 86400000000000 := by
  unfold sinceMidnight nanosecondsPerDay
  rw [Int.fmod_eq_emod_of_nonneg _ (by decide)]
  omega

theorem at?_date (t : Instant) : at? t.date t.sinceMidnight = some t := by
  unfold at?
  rw [ofNanoseconds?_eq_some_iff, toDay_date]
  unfold sinceMidnight nanosecondsPerDay
  rw [Int.fdiv_eq_ediv_of_nonneg _ (by decide), Int.fmod_eq_emod_of_nonneg _ (by decide)]
  omega

-- A text of a date and a clock time is read as that time on the date, if it is in reach.
theorem ofText?_of_chars {d : Date} (hd : d.IsPlain) {c : Clock} (hvalid : c.isValid = true)
    (hn : c.nanosecond < 1000000000) {s : String} (hs : s.toList = d.chars ++ 'T' :: c.chars) :
    ofText? s = at? d c.sinceMidnight := by
  have htrim : Text.trimChars s.toList = d.chars ++ 'T' :: c.chars := by
    have hblank : ∀ x ∈ d.chars ++ 'T' :: c.chars, Text.isBlank x = false := by
      intro x hx
      rcases List.mem_append.mp hx with hx | hx
      · exact Date.isBlank_of_mem_chars hx
      · rcases List.mem_cons.mp hx with rfl | hx
        · decide
        · exact Clock.isBlank_of_mem_chars hx
    have hkeep := Text.trimChars_append hblank (by simp [Date.chars_ne_nil]) []
    rw [List.append_nil, show Text.dropEnd Text.isBlank [] = [] from rfl, List.append_nil] at hkeep
    rw [hs, hkeep]
  have hmark : ∀ rest, takeDigits ('T' :: rest) = ([], 'T' :: rest) :=
    Numeral.takeDigits_cons_other (by decide)
  have hdate : takeDate? (d.chars ++ 'T' :: c.chars) = some (d, 'T' :: c.chars) := by
    rw [takeDate?_chars hd, takeNumber?_digitChars (Date.day_lt_hundred hd.valid) (by decide)
      (by decide) (hmark _)]
    rfl
  have hback : ∀ t : Instant, t.back? (0 * 60000000000) = some t := by
    intro t
    unfold back?
    rw [ofNanoseconds?_eq_some_iff]
    omega
  unfold ofText?
  rw [htrim, hdate]
  simp only [Option.bind_eq_bind, Option.bind_some, takeTime?_chars hvalid hn, hd.valid, hvalid,
    Bool.and_self, if_true]
  cases at? d c.sinceMidnight with
  | none => rfl
  | some t => exact hback t

-- A time is read back from its text.
theorem ofText?_text (t : Instant) : ofText? t.text = some t := by
  have hd := isPlain_date t
  have hn := sinceMidnight_lt t
  obtain ⟨hvalid, hnano, hsince⟩ := Clock.ofSinceMidnight_spec hn
  rw [text, ofText?_of_chars hd hvalid hnano (toList_stamp hd hn), hsince, at?_date]

theorem startsLikeDate_text (t : Instant) : startsLikeDate t.text = true := by
  have hdigit : ∀ n, Text.isDigit (Nat.digitChar (n % 10)) = true := by
    intro n
    unfold Text.isDigit
    rw [Text.digitValue?_digitChar (Nat.mod_lt n (by decide))]
    rfl
  have hchars : ∀ n, digitChars 2 n = [Nat.digitChar (n / 10 % 10), Nat.digitChar (n % 10)] :=
    fun n => rfl
  have hyear : ∀ n, digitChars 4 n = [Nat.digitChar (n / 10 / 10 / 10 % 10),
      Nat.digitChar (n / 10 / 10 % 10), Nat.digitChar (n / 10 % 10), Nat.digitChar (n % 10)] :=
    fun n => rfl
  unfold startsLikeDate
  rw [text, toList_stamp (isPlain_date t) (sinceMidnight_lt t)]
  simp [Date.chars, hchars, hyear, hdigit]

def daysTo (t u : Instant) : Except Fault (Option Binary64) := do
  return some (days (← t.spanTo u))

end Instant

def Cell.ofInstant (t : Instant) : Cell := .moment t.date t.sinceMidnight

namespace Instant

-- The record of a row has the text of a time under the column that holds it, and this text begins
-- like a date and is read as that very time. So the days between two such texts are those between
-- the times, and a row with one is in a window just if the window's period has the time.
theorem written_read_back (t : Instant) :
    (∀ before column after, column ∉ after.map Prod.fst →
      (Table.record (before ++ (column, .ofInstant t) :: after)).cell (.text column) =
        .ok (.text t.text)) ∧
    (Value.text t.text).isDateText = true ∧
    (Value.text t.text).instant = .ok (some t) ∧
    (∀ u : Instant, Value.daysBetween (.text t.text) (.text u.text) = t.daysTo u) ∧
    ∀ (column : String) (start finish : Value) (p : Period) (rows : List Value)
      (w : Windows Value) (row : Value), Period.ofValues start finish = .ok (some p) →
      Windows.select (Windows.timeIn (.text column)) start finish rows = .ok w → row ∈ rows →
      row.cell (.text column) = .ok (.text t.text) →
      (row ∈ w.current ↔
        p.first.nanoseconds ≤ t.nanoseconds ∧ t.nanoseconds ≤ p.last.nanoseconds) ∧
      ∃ before, p.previous = .ok before ∧
        (∀ q, before = some q → q.first.nanoseconds = p.startBefore ∧ q.last = p.first) ∧
        (row ∈ w.previous ↔ ∃ q, before = some q ∧
          q.first.nanoseconds ≤ t.nanoseconds ∧ t.nanoseconds ≤ q.last.nanoseconds) := by
  have hread : ∀ u : Instant, (Value.text u.text).instant = .ok (some u) := fun u =>
    congrArg Except.ok (ofText?_text u)
  refine ⟨fun before column after h => Table.record_cell before after column _ h,
    startsLikeDate_text t, hread t, fun u => ?_, ?_⟩
  · unfold Value.daysBetween
    rw [hread t, hread u]
    rfl
  · intro column start finish p rows w row hp hw hrow hcell
    refine Windows.mem_windows_iff hp hw hrow ?_
    unfold Windows.timeIn
    rw [hcell, ok_bind, hread t]

-- The last nanosecond before 1970, in the record of a row.
def lastBefore1970 : Instant := ⟨-1, by decide⟩

def lastRecord : Value := Table.record [("site", .missing), ("day", .ofInstant lastBefore1970)]

theorem lastRecord_read_back :
    lastRecord.cell (.text "day") = .ok (.text "1969-12-31T23:59:59.999999999") ∧
    ∃ w, Windows.select (Windows.timeIn (.text "day")) (.text "1969-12-31") (.text "1970-01-01")
        [lastRecord] = .ok w ∧ lastRecord ∈ w.current := by
  obtain ⟨hrecord, -, -, -, hwindows⟩ := written_read_back lastBefore1970
  have htext : lastBefore1970.text = "1969-12-31T23:59:59.999999999" := by decide +kernel
  have hcell := hrecord [("site", .missing)] "day" [] List.not_mem_nil
  have hp : Period.ofValues (.text "1969-12-31") (.text "1970-01-01") =
      .ok (some ⟨⟨-86400000000000, by decide⟩, ⟨0, by decide⟩⟩) := by cbv
  obtain ⟨w, hw⟩ : ∃ w, Windows.select (Windows.timeIn (.text "day")) (.text "1969-12-31")
      (.text "1970-01-01") [lastRecord] = .ok w := ⟨⟨[lastRecord], [], [lastRecord]⟩, by cbv⟩
  refine ⟨htext ▸ hcell, w, hw, ?_⟩
  exact (hwindows "day" _ _ _ _ w lastRecord hp hw List.mem_cons_self hcell).1.mpr (by decide)

end Instant

end Tileboard
