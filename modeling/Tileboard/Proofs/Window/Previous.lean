import Mathlib
import Tileboard.Period
import Tileboard.Proofs.Computation

namespace Tileboard

namespace Instant

def IsCount (n : Int) : Prop := missing ≤ n ∧ n ≤ reach

theorem eq_of_nanoseconds {t u : Instant} (h : t.nanoseconds = u.nanoseconds) : t = u := by
  cases t; cases u; cases h; rfl

theorem ne_missing (t : Instant) : t.nanoseconds ≠ missing := by
  have h := t.within.1
  simp only [reach, missing] at h ⊢
  omega

theorem ofNanoseconds?_eq_some_iff {n : Int} {t : Instant} :
    ofNanoseconds? n = some t ↔ t.nanoseconds = n := by
  unfold ofNanoseconds?
  constructor
  · intro h
    split at h
    · exact (Option.some.inj h) ▸ rfl
    · cases h
  · rintro rfl
    rw [dif_pos t.within]

theorem ofNanoseconds?_eq_none_iff {n : Int} :
    ofNanoseconds? n = none ↔ n = missing ∨ ¬IsCount n := by
  unfold ofNanoseconds? IsCount
  split
  · rename_i h
    simp only [reach, missing] at h ⊢
    simp only [reduceCtorEq, false_iff]
    omega
  · rename_i h
    simp only [reach, missing] at h ⊢
    simp only [true_iff]
    omega

theorem spanTo_eq (s u : Instant) :
    (IsCount (u.nanoseconds - s.nanoseconds) ∧ u.nanoseconds - s.nanoseconds ≠ missing ∧
      s.spanTo u = .ok (u.nanoseconds - s.nanoseconds)) ∨
    (u.nanoseconds - s.nanoseconds = missing ∧ s.spanTo u = .error .missingSpan) ∨
    (¬IsCount (u.nanoseconds - s.nanoseconds) ∧ s.spanTo u = .error .dateOutOfRange) := by
  unfold spanTo until?
  cases h : ofNanoseconds? (u.nanoseconds - s.nanoseconds) with
  | some v =>
      have hv := ofNanoseconds?_eq_some_iff.mp h
      have hreach := v.within
      left
      refine ⟨?_, hv ▸ ne_missing v, by rw [← hv]; rfl⟩
      simp only [IsCount, ← hv, reach, missing] at hreach ⊢
      omega
  | none =>
      right
      by_cases hm : u.nanoseconds - s.nanoseconds = missing
      · exact .inl ⟨hm, by simp [hm]⟩
      · have hc := (ofNanoseconds?_eq_none_iff.mp h).resolve_left hm
        exact .inr ⟨hc, by simp [hm]⟩

theorem earlier_eq (t : Instant) (span : Int) :
    (∃ v : Instant, v.nanoseconds = t.nanoseconds - span ∧ t.earlier span = .ok (some v)) ∨
    (t.nanoseconds - span = missing ∧ t.earlier span = .ok none) ∨
    (¬IsCount (t.nanoseconds - span) ∧ t.earlier span = .error .dateOutOfRange) := by
  unfold earlier back?
  cases h : ofNanoseconds? (t.nanoseconds - span) with
  | some v => exact .inl ⟨v, ofNanoseconds?_eq_some_iff.mp h, rfl⟩
  | none =>
      right
      by_cases hm : t.nanoseconds - span = missing
      · exact .inl ⟨hm, by simp [hm]⟩
      · have hc := (ofNanoseconds?_eq_none_iff.mp h).resolve_left hm
        exact .inr ⟨hc, by simp [hm]⟩

theorem earlier_eq_ok {t v : Instant} {span : Int} (h : v.nanoseconds = t.nanoseconds - span) :
    t.earlier span = .ok (some v) := by
  unfold earlier back?
  rw [ofNanoseconds?_eq_some_iff.mpr h]

end Instant

namespace Period

open Instant

def length (p : Period) : Int := p.last.nanoseconds - p.first.nanoseconds

def startBefore (p : Period) : Int := p.first.nanoseconds - p.length

theorem earlier_last (p : Period) : p.last.earlier p.length = .ok (some p.first) :=
  earlier_eq_ok (by unfold length; omega)

-- The four ways in which the period before one is found. It always ends where the
-- period starts.
theorem previous_eq (p : Period) :
    (∃ first : Instant, first.nanoseconds = p.startBefore ∧
      p.previous = .ok (some ⟨first, p.first⟩) ∧ IsCount p.length ∧ p.length ≠ missing) ∨
    (p.startBefore = missing ∧ p.previous = .ok none ∧ IsCount p.length ∧ p.length ≠ missing) ∨
    (p.length = missing ∧ p.previous = .error .missingSpan) ∨
    (p.length ≠ missing ∧ (¬IsCount p.length ∨ ¬IsCount p.startBefore) ∧
      p.previous = .error .dateOutOfRange) := by
  unfold previous
  rcases spanTo_eq p.first p.last with ⟨hc, hm, h⟩ | ⟨hm, h⟩ | ⟨hc, h⟩
  · rw [h]
    simp only [ok_bind]
    change p.length ≠ missing at hm
    change IsCount p.length at hc
    have hlast := earlier_last p
    rcases earlier_eq p.first p.length with ⟨v, hv, he⟩ | ⟨hv, he⟩ | ⟨hv, he⟩
    · exact .inl ⟨v, hv, by simp only [length] at he hlast; simp [he, hlast, ofEnds], hc, hm⟩
    · exact .inr (.inl ⟨hv, by simp only [length] at he hlast; simp [he, hlast, ofEnds], hc, hm⟩)
    · exact .inr (.inr (.inr ⟨hm, .inr hv, by simp only [length] at he; simp [he]⟩))
  · exact .inr (.inr (.inl ⟨hm, by rw [h]; rfl⟩))
  · refine .inr (.inr (.inr ⟨?_, .inl hc, by rw [h]; rfl⟩))
    intro hm
    apply hc
    unfold length at hm
    simp only [IsCount, hm, missing, reach]
    omega

theorem ofValues_eq {start finish : Value} {p : Period}
    (hstart : start.instant = .ok (some p.first)) (hfinish : finish.instant = .ok (some p.last)) :
    ofValues start finish = .ok (some p) := by
  unfold ofValues
  rw [hstart, hfinish]
  rfl

theorem not_isCount_startBefore {p : Period} (h : p.length = missing) :
    ¬IsCount p.startBefore := by
  have hfirst := p.first.within
  have hlast := p.last.within
  simp only [IsCount, startBefore, length, missing, reach] at *
  omega

theorem previous_eq_dateOutOfRange_iff (p : Period) :
    p.previous = .error .dateOutOfRange ↔
      p.length ≠ missing ∧ (¬IsCount p.length ∨ ¬IsCount p.startBefore) := by
  rcases previous_eq p with ⟨first, hf, hp, hc, hm⟩ | ⟨hs, hp, hc, hm⟩ | ⟨hm, hp⟩ | ⟨hm, hc, hp⟩
  · have hstart : IsCount p.startBefore := by
      have := first.within
      simp only [IsCount, ← hf, missing, reach] at this ⊢
      omega
    simp [hp, hc, hstart]
  · have hstart : IsCount p.startBefore := by
      simp only [hs, IsCount, missing, reach]
      omega
    simp [hp, hc, hstart]
  · simp [hp, hm]
  · simp [hp, hm, hc]

theorem previous_eq_missingSpan_iff (p : Period) :
    p.previous = .error .missingSpan ↔ p.length = missing := by
  rcases previous_eq p with ⟨first, hf, hp, hc, hm⟩ | ⟨hs, hp, hc, hm⟩ | ⟨hm, hp⟩ | ⟨hm, hc, hp⟩ <;>
    simp [hp, hm]

theorem exists_previous_iff (p : Period) :
    (∃ q, p.previous = .ok q) ↔ IsCount p.length ∧ IsCount p.startBefore := by
  constructor
  · rintro ⟨q, hq⟩
    have hrange := mt p.previous_eq_dateOutOfRange_iff.mpr (by simp [hq])
    have hspan := mt p.previous_eq_missingSpan_iff.mpr (by simp [hq])
    tauto
  · rintro ⟨hc, hs⟩
    cases hp : p.previous with
    | ok q => exact ⟨q, rfl⟩
    | error e =>
        rcases previous_eq p with ⟨_, _, h, -⟩ | ⟨-, h, -⟩ | ⟨hm, h⟩ | ⟨-, hn, h⟩
        · rw [hp] at h; cases h
        · rw [hp] at h; cases h
        · exact absurd hs (not_isCount_startBefore hm)
        · tauto

end Period

end Tileboard
