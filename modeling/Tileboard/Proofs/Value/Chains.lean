import Mathlib
import Tileboard.Proofs.Value.Equivalence
import Tileboard.Proofs.Value.Order

namespace Tileboard

namespace Number

theorem placeBefore_iff {p q : Int × Rat} : placeBefore p q = true ↔ toLex p < toLex q := by
  simp [placeBefore, Prod.Lex.toLex_lt_toLex]

theorem before_iff {x y : Number} : before x y = true ↔
    ∃ p q, x.place? = some p ∧ y.place? = some q ∧ toLex p < toLex q := by
  unfold before
  cases x.place? <;> cases y.place? <;> simp [placeBefore_iff]

end Number

namespace Value

section Lists

variable {cmp : Comparison} {x y : Value} {xs ys : List Value}

theorem compare?_nil_left : compare? cmp (.list []) (.list ys) =
    some (cmp.onLengths 0 ys.length) := by
  rw [compare?, compareLists?] <;> simp

theorem compare?_nil_right : compare? cmp (.list xs) (.list []) =
    some (cmp.onLengths xs.length 0) := by
  rw [compare?, compareLists?] <;> simp

theorem compare?_cons : compare? cmp (.list (x :: xs)) (.list (y :: ys)) =
    if x.equal y = true then compare? cmp (.list xs) (.list ys) else compare? cmp x y := by
  rw [compare?, compare?, compareLists?]

theorem equal_cons : (Value.list (x :: xs)).equal (.list (y :: ys)) =
    (x.equal y && (Value.list xs).equal (.list ys)) := by
  rw [equal, equal, equalLists]

end Lists

variable {u v w : Value}

-- One value is before the other: the comparison of the two comes to true.
def Before (v w : Value) : Prop := compare? .less v w = some true

-- The order of marks: no mark of one kind is before one of another kind.
def Mark.Before : Mark → Mark → Prop
  | .place p, .place q => toLex p < toLex q
  | .text s, .text t => s < t
  | _, _ => False

theorem Mark.Before.trans {l m n : Mark} (h : l.Before m) (h' : m.Before n) : l.Before n := by
  cases l <;> cases m <;> cases n <;> simp only [Mark.Before] at h h' ⊢
  · exact h.trans h'
  · exact h.trans h'

theorem Mark.Before.ne {m n : Mark} (h : m.Before n) : m ≠ n := by
  rintro rfl
  cases m with
  | null => exact h
  | place p => exact lt_irrefl _ h
  | text s => exact lt_irrefl _ h

theorem numbers_before_iff {x y : Number} : x.before y = true ↔
    ∃ m n, x.place?.map Mark.place = some m ∧ y.place?.map Mark.place = some n ∧ m.Before n := by
  rw [Number.before_iff]
  constructor
  · rintro ⟨p, q, hx, hy, h⟩
    exact ⟨.place p, .place q, by rw [hx]; rfl, by rw [hy]; rfl, h⟩
  · rintro ⟨m, n, hx, hy, h⟩
    obtain ⟨p, hp, rfl⟩ := Option.map_eq_some_iff.mp hx
    obtain ⟨q, hq, rfl⟩ := Option.map_eq_some_iff.mp hy
    exact ⟨p, q, hp, hq, h⟩

theorem before_iff_mark (hv : v.canBeKey = true) (hw : w.canBeKey = true) :
    Before v w ↔ ∃ m n, v.mark? = some m ∧ w.mark? = some n ∧ m.Before n := by
  unfold Before
  cases v with
  | null => simp [compare?_null, mark?, Mark.Before]
  | bool a =>
      cases w with
      | bool b => simp [compare?, mark?, Comparison.onNumbers, numbers_before_iff]
      | number y => simp [compare?, mark?, Comparison.onNumbers, numbers_before_iff]
      | _ => simp_all [compare?, mark?, Mark.Before, canBeKey]
  | number x =>
      cases w with
      | bool b => simp [compare?, mark?, Comparison.onNumbers, numbers_before_iff]
      | number y => simp [compare?, mark?, Comparison.onNumbers, numbers_before_iff]
      | _ => simp_all [compare?, mark?, Mark.Before, canBeKey]
  | text s =>
      cases w with
      | text t => simp [compare?, mark?, Comparison.onTexts, Mark.Before]
      | _ => simp_all [compare?, mark?, Mark.Before, canBeKey]
  | _ => cases hv

mutual

-- Induction on two values at once: on the first items and the others where both are lists.
@[elab_as_elim]
theorem pair_induction {P : Value → Value → Prop}
    (apart : ∀ v w, (∀ xs ys, v = .list xs → w ≠ .list ys) → P v w)
    (nil_left : ∀ ys, P (.list []) (.list ys))
    (nil_right : ∀ xs, P (.list xs) (.list []))
    (cons : ∀ x y xs ys, P x y → P (.list xs) (.list ys) →
      P (.list (x :: xs)) (.list (y :: ys))) (v w : Value) : P v w := by
  by_cases hlists : ∃ xs ys, v = .list xs ∧ w = .list ys
  · obtain ⟨xs, ys, rfl, rfl⟩ := hlists
    exact pair_induction_lists apart nil_left nil_right cons xs ys
  · exact apart v w fun xs ys hv hw => hlists ⟨xs, ys, hv, hw⟩

theorem pair_induction_lists {P : Value → Value → Prop}
    (apart : ∀ v w, (∀ xs ys, v = .list xs → w ≠ .list ys) → P v w)
    (nil_left : ∀ ys, P (.list []) (.list ys))
    (nil_right : ∀ xs, P (.list xs) (.list []))
    (cons : ∀ x y xs ys, P x y → P (.list xs) (.list ys) →
      P (.list (x :: xs)) (.list (y :: ys))) : ∀ xs ys : List Value, P (.list xs) (.list ys)
  | [], ys => nil_left ys
  | x :: xs, [] => nil_right (x :: xs)
  | x :: xs, y :: ys => cons x y xs ys (pair_induction apart nil_left nil_right cons x y)
      (pair_induction_lists apart nil_left nil_right cons xs ys)

end

theorem Comparable.canBeKey (h : Comparable v w) : v.canBeKey = true ∧ w.canBeKey = true := by
  cases v <;> cases w <;> simp_all [Comparable, number?, isText, Value.canBeKey]

theorem Before.comparable (hlists : ∀ xs ys, v = .list xs → w ≠ .list ys) (h : Before v w) :
    Comparable v w := by
  by_contra hnone
  rw [Before, (compare?_eq_none_of_not_lists hlists).mpr hnone] at h
  cases h

theorem Before.equal_eq_false (h : Before v w) : v.equal w = false := by
  induction v, w using pair_induction with
  | apart v w hlists =>
      obtain ⟨hkey, hkey'⟩ := (h.comparable hlists).canBeKey
      obtain ⟨m, n, hm, hn, hbefore⟩ := (before_iff_mark hkey hkey').mp h
      rw [Bool.eq_false_iff, ne_eq, equal_iff_mark hkey hkey']
      rintro ⟨l, hl, hl'⟩
      rw [hm, Option.some.injEq] at hl
      rw [hn, Option.some.injEq] at hl'
      exact hbefore.ne (hl.trans hl'.symm)
  | nil_left ys =>
      cases ys with
      | nil => simp [Before, compare?_nil_left, Comparison.onLengths] at h
      | cons y ys => simp [equal, equalLists]
  | nil_right xs => simp [Before, compare?_nil_right, Comparison.onLengths] at h
  | cons x y xs ys hfirst hothers =>
      rw [Before, compare?_cons] at h
      rw [equal_cons]
      cases hxy : x.equal y with
      | false => rfl
      | true =>
          rw [hxy, if_pos rfl] at h
          exact hothers h

theorem not_before_of_equal (h : v.equal w = true) : ¬Before v w := by
  intro hbefore
  rw [hbefore.equal_eq_false] at h
  cases h

theorem before_cons_iff {x y : Value} {xs ys : List Value} :
    Before (.list (x :: xs)) (.list (y :: ys)) ↔
      Before x y ∨ x.equal y = true ∧ Before (.list xs) (.list ys) := by
  rw [Before, Before, Before, compare?_cons]
  cases hxy : x.equal y with
  | false => simp
  | true =>
      have hnot : ¬compare? .less x y = some true := not_before_of_equal hxy
      simp [hnot]

def AtOrBefore (v w : Value) : Prop := v.equal w = true ∨ Before v w

section AtOrBefore

variable {xs ys : List Value}

theorem AtOrBefore.canBeKey_eq (h : AtOrBefore v w) : v.canBeKey = w.canBeKey := by
  rcases h with h | h
  · exact canBeKey_eq_of_equal h
  · cases v <;> cases w <;> first | rfl | simp [Before, compare?] at h

theorem AtOrBefore.exists_list_right (h : AtOrBefore (.list xs) w) : ∃ ys, w = .list ys := by
  cases w with
  | list ys => exact ⟨ys, rfl⟩
  | _ => simp [AtOrBefore, Before, equal, compare?] at h

theorem AtOrBefore.exists_list_left (h : AtOrBefore v (.list ys)) : ∃ xs, v = .list xs := by
  cases v with
  | list xs => exact ⟨xs, rfl⟩
  | _ => simp [AtOrBefore, Before, equal, compare?] at h

theorem atOrBefore_iff_mark (hv : v.canBeKey = true) (hw : w.canBeKey = true) :
    AtOrBefore v w ↔ ∃ m n, v.mark? = some m ∧ w.mark? = some n ∧ (m = n ∨ m.Before n) := by
  rw [AtOrBefore, equal_iff_mark hv hw, before_iff_mark hv hw]
  constructor
  · rintro (⟨m, hm, hn⟩ | ⟨m, n, hm, hn, h⟩)
    · exact ⟨m, m, hm, hn, .inl rfl⟩
    · exact ⟨m, n, hm, hn, .inr h⟩
  · rintro ⟨m, n, hm, hn, rfl | h⟩
    · exact .inl ⟨m, hm, hn⟩
    · exact .inr ⟨m, n, hm, hn, h⟩

theorem atOrBefore_nil_left (ys : List Value) : AtOrBefore (.list []) (.list ys) := by
  cases ys with
  | nil => simp [AtOrBefore, equal, equalLists]
  | cons y ys => simp [AtOrBefore, Before, compare?_nil_left, Comparison.onLengths]

theorem not_atOrBefore_nil {x : Value} : ¬AtOrBefore (.list (x :: xs)) (.list []) := by
  simp [AtOrBefore, Before, compare?_nil_right, Comparison.onLengths, equal, equalLists]

theorem atOrBefore_cons_iff {x y : Value} : AtOrBefore (.list (x :: xs)) (.list (y :: ys)) ↔
    Before x y ∨ x.equal y = true ∧ AtOrBefore (.list xs) (.list ys) := by
  rw [AtOrBefore, AtOrBefore, equal_cons, before_cons_iff, Bool.and_eq_true]
  tauto

end AtOrBefore

-- Wherever the value stands between two others, all three are equal or the first is before the
-- last.
def Chains (v : Value) : Prop :=
  ∀ u w, AtOrBefore u v → AtOrBefore v w → u.equal v = true ∧ v.equal w = true ∨ Before u w

theorem chains_key (hv : v.canBeKey = true) : Chains v := by
  intro u w huv hvw
  have hu : u.canBeKey = true := by rw [huv.canBeKey_eq, hv]
  have hw : w.canBeKey = true := by rw [← hvw.canBeKey_eq, hv]
  obtain ⟨l, m, hl, hm, hlm⟩ := (atOrBefore_iff_mark hu hv).mp huv
  obtain ⟨m', n, hm', hn, hmn⟩ := (atOrBefore_iff_mark hv hw).mp hvw
  rw [hm, Option.some.injEq] at hm'
  subst hm'
  rw [equal_iff_mark hu hv, equal_iff_mark hv hw, before_iff_mark hu hw]
  rcases hlm with rfl | hlm
  · rcases hmn with rfl | hmn
    · exact .inl ⟨⟨l, hl, hm⟩, ⟨l, hm, hn⟩⟩
    · exact .inr ⟨l, n, hl, hn, hmn⟩
  · rcases hmn with rfl | hmn
    · exact .inr ⟨l, m, hl, hn, hlm⟩
    · exact .inr ⟨l, n, hl, hn, hlm.trans hmn⟩

-- Induction on the middle list.
theorem chains_list {ys : List Value} (hys : ∀ y ∈ ys, y.WellFormed ∧ Chains y) :
    Chains (.list ys) := by
  intro u w huv hvw
  obtain ⟨xs, rfl⟩ := huv.exists_list_left
  obtain ⟨zs, rfl⟩ := hvw.exists_list_right
  induction ys generalizing xs zs with
  | nil =>
      cases xs with
      | cons x xs => exact absurd huv not_atOrBefore_nil
      | nil =>
          rcases hvw with h | h
          · exact .inl ⟨rfl, h⟩
          · exact .inr h
  | cons y ys ih =>
      obtain ⟨⟨hy, hchains⟩, hothers⟩ := List.forall_mem_cons.mp hys
      cases zs with
      | nil => exact absurd hvw not_atOrBefore_nil
      | cons z zs =>
          cases xs with
          | nil => exact .inr (by simp [Before, compare?_nil_left, Comparison.onLengths])
          | cons x xs =>
              rw [atOrBefore_cons_iff] at huv hvw
              have hxy : AtOrBefore x y := huv.elim .inr fun h => .inl h.1
              have hyz : AtOrBefore y z := hvw.elim .inr fun h => .inl h.1
              -- Where the three first items are equal, none is before another: the others decide.
              rcases hchains x z hxy hyz with ⟨hxy, hyz⟩ | hbefore
              · have hxs := huv.resolve_left (not_before_of_equal hxy)
                have hzs := hvw.resolve_left (not_before_of_equal hyz)
                have hxz : x.equal z = true := equal_trans hy hxy hyz
                rcases ih hothers xs hxs.2 zs hzs.2 with ⟨hequal, hequal'⟩ | hbefore
                · exact .inl ⟨by rw [equal_cons, hxy, hequal]; rfl,
                    by rw [equal_cons, hyz, hequal']; rfl⟩
                · exact .inr (before_cons_iff.mpr (.inr ⟨hxz, hbefore⟩))
              · exact .inr (before_cons_iff.mpr (.inl hbefore))

theorem WellFormed.chains (hv : v.WellFormed) : Chains v := by
  induction hv with
  | key hkey => exact chains_key hkey
  | list hys ih => exact chains_list fun y hy => ⟨hys y hy, ih y hy⟩
  | object hnames hfields _ =>
      intro u w huv hvw
      have hleft := huv.resolve_right (by cases u <;> simp [Before, compare?])
      have hright := hvw.resolve_right (by cases w <;> simp [Before, compare?])
      exact .inl ⟨hleft, hright⟩

theorem Before.trans (hv : v.WellFormed) (huv : Before u v) (hvw : Before v w) : Before u w := by
  rcases hv.chains u w (.inr huv) (.inr hvw) with ⟨hequal, -⟩ | hbefore
  · exact absurd huv (not_before_of_equal hequal)
  · exact hbefore

theorem not_before_self (v : Value) : ¬Before v v := by
  suffices h : ∀ v w : Value, v = w → ¬Before v w from h v v rfl
  intro v w
  induction v, w using pair_induction with
  | apart v w hlists =>
      rintro rfl h
      obtain ⟨hkey, -⟩ := (h.comparable hlists).canBeKey
      obtain ⟨m, n, hm, hn, hbefore⟩ := (before_iff_mark hkey hkey).mp h
      rw [hm, Option.some.injEq] at hn
      exact hbefore.ne hn
  | nil_left ys =>
      rintro ⟨⟩ h
      simp [Before, compare?_nil_left, Comparison.onLengths] at h
  | nil_right xs =>
      rintro ⟨⟩ h
      simp [Before, compare?_nil_left, Comparison.onLengths] at h
  | cons x y xs ys hfirst hothers =>
      rintro ⟨⟩ h
      rcases before_cons_iff.mp h with h | ⟨-, h⟩
      · exact hfirst rfl h
      · exact hothers rfl h

end Value

end Tileboard
