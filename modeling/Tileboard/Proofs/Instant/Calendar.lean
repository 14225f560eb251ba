import Tileboard.Instant.Calendar
import Mathlib.Data.Nat.Init

namespace Tileboard

namespace Calendar

-- Each of the three quotients grows by one in the years that its divisor divides.
theorem daysBeforeYear_succ (year : Nat) :
    daysBeforeYear (year + 1) = daysBeforeYear year + if isLeap year then 366 else 365 := by
  have hfour : (year + 4) / 4 = (year + 3) / 4 + if year % 4 = 0 then 1 else 0 := by
    split <;> omega
  have hcentury : (year + 100) / 100 = (year + 99) / 100 + if year % 100 = 0 then 1 else 0 := by
    split <;> omega
  have hera : (year + 400) / 400 = (year + 399) / 400 + if year % 400 = 0 then 1 else 0 := by
    split <;> omega
  have hle : (year + 99) / 100 ≤ 365 * year + (year + 3) / 4 := by omega
  have hcenturies : year % 100 = 0 → year % 4 = 0 := by omega
  have heras : year % 400 = 0 → year % 100 = 0 := by omega
  have hleap : isLeap year = true ↔ year % 4 = 0 ∧ (year % 100 ≠ 0 ∨ year % 400 = 0) := by
    simp [isLeap]
  unfold daysBeforeYear
  rw [Nat.add_assoc year 1 3, Nat.add_assoc year 1 99, Nat.add_assoc year 1 399, hfour, hcentury,
    hera]
  simp only [hleap]
  generalize (year + 3) / 4 = fours at hle ⊢
  generalize (year + 99) / 100 = centuries at hle ⊢
  generalize (year + 399) / 400 = eras
  clear hfour hcentury hera hleap
  split <;> split <;> split <;> split <;> omega

theorem daysBeforeYear_mono {year later : Nat} (h : year ≤ later) :
    daysBeforeYear year ≤ daysBeforeYear later := by
  induction later, h using Nat.le_induction with
  | base => exact Nat.le_refl _
  | succ later _ ih =>
      rw [daysBeforeYear_succ]
      omega

def monthLength (year month : Nat) : Nat := ((monthLengths year)[month - 1]?).getD 0

theorem daysBeforeMonth_succ {month : Nat} (year : Nat) (h : 1 ≤ month) :
    daysBeforeMonth year (month + 1) = daysBeforeMonth year month + monthLength year month := by
  obtain ⟨earlier, rfl⟩ : ∃ earlier, month = earlier + 1 := ⟨month - 1, by omega⟩
  unfold daysBeforeMonth monthLength
  rw [Nat.add_sub_cancel, Nat.add_sub_cancel, List.take_add_one, List.foldl_append]
  cases (monthLengths year)[earlier]? <;> rfl

theorem daysBeforeMonth_add_le {year month later : Nat} (hmonth : 1 ≤ month) (h : month < later) :
    daysBeforeMonth year month + monthLength year month ≤ daysBeforeMonth year later := by
  induction later, h using Nat.le_induction with
  | base => exact Nat.le_of_eq (daysBeforeMonth_succ year hmonth).symm
  | succ later hle ih =>
      rw [daysBeforeMonth_succ year (by omega)]
      omega

theorem daysBeforeMonth_thirteen (year : Nat) :
    daysBeforeMonth year 13 = if isLeap year then 366 else 365 := by
  unfold daysBeforeMonth monthLengths
  cases isLeap year <;> rfl

-- A year has 365.2425 days on the mean, and no year starts far from where that puts it.
theorem daysBeforeYear_bounds (year : Nat) :
    146097 * year ≤ 400 * daysBeforeYear year + 396 ∧
      400 * daysBeforeYear year ≤ 146097 * year + 699 := by
  have hle : (year + 99) / 100 ≤ 365 * year + (year + 3) / 4 := by omega
  unfold daysBeforeYear
  omega

theorem yearOf_spec (day : Nat) :
    daysBeforeYear (yearOf day) ≤ day ∧ day < daysBeforeYear (yearOf day + 1) := by
  unfold yearOf
  generalize hguess : day * 400 / 146097 = guess
  have hlow : 146097 * guess ≤ 400 * day := by omega
  have hhigh : 400 * day < 146097 * (guess + 1) := by omega
  have hnext := daysBeforeYear_bounds (guess + 1 + 1)
  dsimp only
  split
  · rename_i h
    exact ⟨h, by omega⟩
  · split
    · rename_i hafter h
      exact ⟨h, by omega⟩
    · rename_i hafter hbefore
      have hpos : guess ≠ 0 := by
        rintro rfl
        exact hbefore (Nat.zero_le day)
      have hprevious := daysBeforeYear_bounds (guess - 1)
      rw [Nat.sub_add_cancel (by omega)]
      omega

theorem foldl_add_cons (n : Nat) (ns : List Nat) :
    (n :: ns).foldl (· + ·) 0 = n + ns.foldl (· + ·) 0 := by
  rw [List.foldl_cons, Nat.add_comm 0 n]
  exact List.foldl_assoc

-- Induction on the months: those that have passed come off the front.
theorem monthAndDay_spec {lengths : List Nat} {rest : Nat} (month : Nat)
    (h : rest < lengths.foldl (· + ·) 0) :
    ∃ passed day length, monthAndDay month lengths rest = (month + passed, day + 1) ∧
      (lengths.take passed).foldl (· + ·) 0 + day = rest ∧ lengths[passed]? = some length ∧
      day < length := by
  induction lengths generalizing month rest with
  | nil => exact absurd h (Nat.not_lt_zero rest)
  | cons length lengths ih =>
      rw [foldl_add_cons] at h
      unfold monthAndDay
      by_cases hrest : rest < length
      · exact ⟨0, rest, length, by rw [if_pos hrest]; rfl, by simp, rfl, hrest⟩
      · obtain ⟨passed, day, found, hfound, hsum, hget, hday⟩ :=
          ih (month + 1) (show rest - length < lengths.foldl (· + ·) 0 by omega)
        refine ⟨passed + 1, day, found, ?_, ?_, hget, hday⟩
        · rw [if_neg hrest, hfound, Nat.add_assoc, Nat.add_comm 1 passed]
        · rw [List.take_succ_cons, foldl_add_cons]
          omega

end Calendar

namespace Date

open Calendar

variable {d e : Date}

theorem isValid_iff : d.isValid = true ↔
    1 ≤ d.month ∧ d.month ≤ 12 ∧ 1 ≤ d.day ∧ d.day ≤ monthLength d.year d.month := by
  simp only [isValid, monthLength, Bool.and_eq_true, decide_eq_true_eq, and_assoc]

-- Earlier by the year, in one year by the month, in one month by the day.
def Precedes (d e : Date) : Prop :=
  d.year < e.year ∨ d.year = e.year ∧ (d.month < e.month ∨ d.month = e.month ∧ d.day < e.day)

theorem toDay_lt_of_precedes (hd : d.isValid = true) (he : e.isValid = true)
    (h : d.Precedes e) : d.toDay < e.toDay := by
  obtain ⟨hmonth, htwelve, hday, hlength⟩ := isValid_iff.mp hd
  obtain ⟨hmonth', -, hday', -⟩ := isValid_iff.mp he
  unfold toDay
  rcases h with hyear | ⟨hyear, hlt | ⟨heq, hlt⟩⟩
  · have hrest : daysBeforeMonth d.year d.month + monthLength d.year d.month ≤
        daysBeforeMonth d.year 13 := daysBeforeMonth_add_le hmonth (by omega)
    rw [daysBeforeMonth_thirteen] at hrest
    have hnext := daysBeforeYear_succ d.year
    have hyears : daysBeforeYear (d.year + 1) ≤ daysBeforeYear e.year := daysBeforeYear_mono hyear
    omega
  · have hmonths : daysBeforeMonth d.year d.month + monthLength d.year d.month ≤
        daysBeforeMonth d.year e.month := daysBeforeMonth_add_le hmonth hlt
    rw [hyear] at hmonths hlength ⊢
    omega
  · rw [hyear, heq]
    omega

theorem precedes_trichotomy (d e : Date) : d.Precedes e ∨ d = e ∨ e.Precedes d := by
  obtain ⟨year, month, day⟩ := d
  obtain ⟨year', month', day'⟩ := e
  simp only [Precedes, Date.mk.injEq]
  omega

theorem toDay_lt_iff (hd : d.isValid = true) (he : e.isValid = true) :
    d.toDay < e.toDay ↔ d.Precedes e := by
  refine ⟨fun h => ?_, toDay_lt_of_precedes hd he⟩
  rcases precedes_trichotomy d e with hlt | rfl | hgt
  · exact hlt
  · exact absurd h (Nat.lt_irrefl _)
  · exact absurd h (Nat.lt_asymm (toDay_lt_of_precedes he hd hgt))

theorem toDay_inj (hd : d.isValid = true) (he : e.isValid = true) :
    d.toDay = e.toDay ↔ d = e := by
  refine ⟨fun h => ?_, fun h => h ▸ rfl⟩
  rcases precedes_trichotomy d e with hlt | heq | hgt
  · exact absurd h (Nat.ne_of_lt (toDay_lt_of_precedes hd he hlt))
  · exact heq
  · exact absurd h (Nat.ne_of_gt (toDay_lt_of_precedes he hd hgt))

theorem ofDay_spec (day : Nat) : (ofDay day).isValid = true ∧ (ofDay day).toDay = day := by
  obtain ⟨hlow, hhigh⟩ := yearOf_spec day
  have hyear : daysBeforeMonth (yearOf day) 13 = (monthLengths (yearOf day)).foldl (· + ·) 0 := rfl
  have hrest : day - daysBeforeYear (yearOf day) < (monthLengths (yearOf day)).foldl (· + ·) 0 := by
    rw [daysBeforeYear_succ] at hhigh
    rw [← hyear, daysBeforeMonth_thirteen]
    omega
  obtain ⟨passed, rest, length, hfound, hsum, hget, hlt⟩ := monthAndDay_spec 1 hrest
  have hof : ofDay day = ⟨yearOf day, 1 + passed, rest + 1⟩ := by
    unfold ofDay
    dsimp only
    rw [hfound]
  have htwelve : passed < 12 := (List.getElem?_eq_some_iff.mp hget).1
  have hlength : monthLength (yearOf day) (1 + passed) = length := by
    unfold monthLength
    rw [Nat.add_sub_cancel_left, hget]
    rfl
  have hmonths : daysBeforeMonth (yearOf day) (1 + passed) =
      ((monthLengths (yearOf day)).take passed).foldl (· + ·) 0 := by
    unfold daysBeforeMonth
    rw [Nat.add_sub_cancel_left]
  rw [hof]
  refine ⟨isValid_iff.mpr ⟨Nat.le_add_right 1 passed, ?_, Nat.le_add_left 1 rest, ?_⟩, ?_⟩
  · dsimp only
    omega
  · dsimp only
    rw [hlength]
    exact hlt
  · unfold toDay
    dsimp only
    rw [hmonths, Nat.add_sub_cancel]
    omega

end Date

end Tileboard
