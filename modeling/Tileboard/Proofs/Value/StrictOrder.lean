import Mathlib
import Tileboard.Proofs.Value.Chains

namespace Tileboard

namespace Comparison

-- The comparison that holds of two values where this one holds of them the other way round.
def converse : Comparison → Comparison
  | .less => .greater
  | .lessOrEqual => .greaterOrEqual
  | .greater => .less
  | .greaterOrEqual => .lessOrEqual

theorem onNumbers_converse (cmp : Comparison) (x y : Number) :
    cmp.converse.onNumbers y x = cmp.onNumbers x y := by
  cases cmp <;> simp [converse, onNumbers, Number.same_comm y x]

theorem onTexts_converse (cmp : Comparison) (s t : String) :
    cmp.converse.onTexts t s = cmp.onTexts s t := by
  cases cmp <;> rfl

theorem onLengths_converse (cmp : Comparison) (m n : Nat) :
    cmp.converse.onLengths n m = cmp.onLengths m n := by
  cases cmp <;> rfl

end Comparison

namespace Value

variable {u v w : Value}

theorem compare?_converse (cmp : Comparison) (hv : v.WellFormed) (hw : w.WellFormed) :
    compare? cmp.converse w v = compare? cmp v w := by
  induction v, w using pair_induction with
  | apart v w hlists =>
      cases v <;> cases w <;> simp_all [compare?, Comparison.onNumbers_converse,
        Comparison.onTexts_converse]
  | nil_left ys => rw [compare?_nil_left, compare?_nil_right, Comparison.onLengths_converse]
  | nil_right xs => rw [compare?_nil_left, compare?_nil_right, Comparison.onLengths_converse]
  | cons x y xs ys hfirst hothers =>
      rw [wellFormed_list_iff, List.forall_mem_cons] at hv hw
      rw [compare?_cons, compare?_cons, equal_comm hw.1 hv.1, hfirst hv.1 hw.1,
        hothers (.list hv.2) (.list hw.2)]

theorem equal_of_numbers {x y : Number} (hv : v.number? = some x) (hw : w.number? = some y) :
    v.equal w = x.same y := by
  cases v with
  | bool a =>
      cases hv
      cases w with
      | bool b =>
          cases hw
          cases a <;> cases b <;> simp [equal, Number.same, Number.place?]
      | number y =>
          cases hw
          rw [equal]
      | _ => cases hw
  | number x =>
      cases hv
      cases w with
      | bool b =>
          cases hw
          rw [equal]
      | number y =>
          cases hw
          rw [equal]
      | _ => cases hw
  | _ => cases hv

theorem lessOrEqual_of_comparable (h : Comparable v w) :
    compare? .lessOrEqual v w = some true ↔ Before v w ∨ v.equal w = true := by
  rcases h with ⟨hx, hy⟩ | ⟨hs, ht⟩
  · obtain ⟨x, hx⟩ := Option.isSome_iff_exists.mp hx
    obtain ⟨y, hy⟩ := Option.isSome_iff_exists.mp hy
    rw [Before, compare?_of_numbers _ hx hy, compare?_of_numbers _ hx hy, equal_of_numbers hx hy]
    simp [Comparison.onNumbers]
  · cases v with
    | text s =>
        cases w with
        | text t =>
            have hle : ¬t < s ↔ s < t ∨ s = t := by rw [not_lt, le_iff_lt_or_eq]
            rw [Before, compare?, compare?, equal, Comparison.onTexts, Comparison.onTexts]
            simpa using hle
        | _ => cases ht
    | _ => cases hs

-- Two values that are at most one another where they are equal.
def Ranked (v w : Value) : Prop := Comparable v w ∨ ∃ xs ys, v = .list xs ∧ w = .list ys

theorem ranked_lists (xs ys : List Value) : Ranked (.list xs) (.list ys) := .inr ⟨xs, ys, rfl, rfl⟩

theorem Before.ranked (h : Before v w) : Ranked v w := by
  by_cases hlists : ∃ xs ys, v = .list xs ∧ w = .list ys
  · exact .inr hlists
  · exact .inl (h.comparable fun xs ys hv hw => hlists ⟨xs, ys, hv, hw⟩)

theorem lessOrEqual_iff :
    compare? .lessOrEqual v w = some true ↔ AtOrBefore v w ∧ Ranked v w := by
  induction v, w using pair_induction with
  | apart v w hlists =>
      by_cases hcomparable : Comparable v w
      · rw [lessOrEqual_of_comparable hcomparable, or_comm]
        exact (and_iff_left (.inl hcomparable)).symm
      · rw [(compare?_eq_none_of_not_lists hlists).mpr hcomparable]
        have hranked : ¬Ranked v w := by
          rintro (h | ⟨xs, ys, hv, hw⟩)
          · exact hcomparable h
          · exact hlists xs ys hv hw
        simp [hranked]
  | nil_left ys =>
      simp [compare?_nil_left, Comparison.onLengths, atOrBefore_nil_left, ranked_lists]
  | nil_right xs =>
      cases xs with
      | nil => simp [compare?_nil_left, Comparison.onLengths, atOrBefore_nil_left, ranked_lists]
      | cons x xs => simp [compare?_nil_right, Comparison.onLengths, not_atOrBefore_nil]
  | cons x y xs ys hfirst hothers =>
      rw [compare?_cons, atOrBefore_cons_iff, and_iff_left (ranked_lists _ _)]
      cases hxy : x.equal y with
      | true =>
          have hnot : ¬Before x y := not_before_of_equal hxy
          simpa [hnot, ranked_lists] using hothers
      | false =>
          have hiff : AtOrBefore x y ∧ Ranked x y ↔ Before x y :=
            ⟨fun h => h.1.resolve_left (by simp [hxy]), fun h => ⟨.inr h, h.ranked⟩⟩
          simpa [hiff] using hfirst

theorem result_orderedBy (cmp : Comparison) (v w : Value) :
    (v.orderedBy cmp.name w).result = .ok ((compare? cmp v w).getD false) := by
  have hname : Comparison.ofName? cmp.name = some cmp := by cases cmp <;> decide
  rw [orderedBy, hname]
  dsimp only
  unfold ordered
  cases compare? cmp v w <;> rfl

theorem orderedBy_iff (cmp : Comparison) (v w : Value) :
    (v.orderedBy cmp.name w).result = .ok true ↔ compare? cmp v w = some true := by
  rw [result_orderedBy]
  cases compare? cmp v w <;> simp

theorem orderedBy_converse (cmp : Comparison) (hv : v.WellFormed) (hw : w.WellFormed) :
    (v.orderedBy cmp.converse.name w).result = (w.orderedBy cmp.name v).result := by
  rw [result_orderedBy, result_orderedBy, compare?_converse cmp hw hv]

theorem orderedBy_self (v : Value) : (v.orderedBy "lt" v).result = .ok false := by
  have hresult := result_orderedBy .less v v
  cases h : compare? .less v v with
  | none =>
      rw [h] at hresult
      exact hresult
  | some answer =>
      rw [h] at hresult
      cases answer with
      | false => exact hresult
      | true => exact absurd h (not_before_self v)

-- Every comparison comes to an answer. To be less is irreflexive and transitive, to be greater is
-- to be less the other way round, and to be at most is to be less or equal.
theorem orderedBy_strict_partial_order {a b c : Value} (ha : a.WellFormed) (hb : b.WellFormed) :
    (∀ name ∈ ["lt", "lte", "gt", "gte"], ∃ answer, (a.orderedBy name b).result = .ok answer) ∧
    (a.orderedBy "lt" a).result = .ok false ∧
    ((a.orderedBy "lt" b).result = .ok true → (b.orderedBy "lt" c).result = .ok true →
      (a.orderedBy "lt" c).result = .ok true) ∧
    (a.orderedBy "gt" b).result = (b.orderedBy "lt" a).result ∧
    (a.orderedBy "gte" b).result = (b.orderedBy "lte" a).result ∧
    ((a.orderedBy "lte" b).result = .ok true ↔ (a.orderedBy "lt" b).result = .ok true ∨
      a.equal b = true ∧ Ranked a b) := by
  have hless : ∀ v w, (v.orderedBy "lt" w).result = .ok true ↔ Before v w := orderedBy_iff .less
  have hmost : (a.orderedBy "lte" b).result = .ok true ↔ AtOrBefore a b ∧ Ranked a b :=
    (orderedBy_iff .lessOrEqual a b).trans lessOrEqual_iff
  refine ⟨?_, orderedBy_self a, ?_, ?_, ?_, ?_⟩
  · have hanswer : ∀ cmp : Comparison, ∃ answer, (a.orderedBy cmp.name b).result = .ok answer :=
      fun cmp => ⟨_, result_orderedBy cmp a b⟩
    simp only [List.forall_mem_cons]
    exact ⟨hanswer .less, hanswer .lessOrEqual, hanswer .greater, hanswer .greaterOrEqual, by simp⟩
  · rw [hless, hless, hless]
    exact Before.trans hb
  · exact orderedBy_converse .less ha hb
  · exact orderedBy_converse .lessOrEqual ha hb
  · rw [hmost, hless]
    constructor
    · rintro ⟨hequal | hbefore, hranked⟩
      · exact .inr ⟨hequal, hranked⟩
      · exact .inl hbefore
    · rintro (hbefore | ⟨hequal, hranked⟩)
      · exact ⟨.inr hbefore, hbefore.ranked⟩
      · exact ⟨.inl hequal, hranked⟩

-- The first items are true, one and one as a float; of the second 2 ^ 53 is before infinity and not
-- told from its float, and the text that comes last has no order with the list across from it.
def narrow : Value := .list [.bool true, .list [.int (2 ^ 53), .text "b"], .null]

def middling : Value := .list [.int 1, .list [.real (.ofInt (2 ^ 53)), .text "c"], .list []]

def wide : Value := .list [.real (.ofInt 1), .list [.real (.infinite false), .list []], .text "a"]

theorem narrow_orderedBy_wide : (narrow.orderedBy "lt" wide).result = .ok true ∧
    (middling.orderedBy "gt" narrow).result = .ok true ∧
    (narrow.orderedBy "lte" middling).result = .ok true ∧
    (middling.orderedBy "gte" narrow).result = .ok true := by
  have hnarrow : narrow.WellFormed := by simp [narrow, int]
  have hmiddling : middling.WellFormed := by simp [middling, int, real]
  have hbefore : compare? .less narrow middling = some true := by decide +kernel
  have hbefore' : compare? .less middling wide = some true := by decide +kernel
  have hless : (narrow.orderedBy "lt" middling).result = .ok true :=
    (orderedBy_iff .less _ _).mpr hbefore
  have hless' : (middling.orderedBy "lt" wide).result = .ok true :=
    (orderedBy_iff .less _ _).mpr hbefore'
  obtain ⟨-, -, htrans, -, -, hmost⟩ := orderedBy_strict_partial_order (c := wide) hnarrow hmiddling
  obtain ⟨-, -, -, hgreater, hleast, -⟩ :=
    orderedBy_strict_partial_order (c := wide) hmiddling hnarrow
  have hmost' := hmost.mpr (.inl hless)
  exact ⟨htrans hless hless', hgreater.trans hless, hmost', hleast.trans hmost'⟩

end Value

end Tileboard
