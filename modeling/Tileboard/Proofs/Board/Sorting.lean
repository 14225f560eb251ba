import Tileboard.BarChart
import Tileboard.Proofs.Number.Nearest

namespace Tileboard

namespace Number

def quantity (n : Number) : Rat := n.quantity?.getD 0

variable {x y : Number} {p q : Rat}

theorem quantity_eq (h : x.quantity? = some p) : x.quantity = p := by
  rw [quantity, h, Option.getD_some]

theorem before_of_quantities (hx : x.quantity? = some p) (hy : y.quantity? = some q) :
    x.before y = decide (p < q) := by
  simp [before, place?_of_quantity? hx, place?_of_quantity? hy, placeBefore]

end Number

namespace Bar

-- A bar of finite length, as its label and the quantity.
def pair (b : Bar) : String × Rat := (b.label, b.position.quantity)

def IsFinite (b : Bar) : Prop := ∃ n q, b.length = .number n ∧ n.quantity? = some q

variable {a b : Bar}

theorem before_position (ha : a.IsFinite) (hb : b.IsFinite) :
    a.position.before b.position = decide (a.pair.2 < b.pair.2) := by
  obtain ⟨m, p, hm, hp⟩ := ha
  obtain ⟨n, q, hn, hq⟩ := hb
  have hpa : a.position = m := by rw [position, hm]; rfl
  have hpb : b.position = n := by rw [position, hn]; rfl
  rw [pair, pair, hpa, hpb, Number.before_of_quantities hp hq, Number.quantity_eq hp,
    Number.quantity_eq hq]

end Bar

namespace BarChart

-- What is asked of a sort: that it keeps the bars, and puts none of them before a longer one.
structure Sorts (sort : Sorter) : Prop where
  perm {bars : List Bar} : (∀ b ∈ bars, b.IsFinite) → (sort bars).Perm bars
  ordered {bars : List Bar} : (∀ b ∈ bars, b.IsFinite) →
    (sort bars).Pairwise fun a b => a.position.before b.position = false

variable {sort : Sorter} {bars others : List Bar}

theorem Sorts.finite (hsort : Sorts sort) (h : ∀ b ∈ bars, b.IsFinite) :
    ∀ b ∈ sort bars, b.IsFinite := fun b hb => h b ((hsort.perm h).mem_iff.mp hb)

theorem Sorts.pairwise (hsort : Sorts sort) (h : ∀ b ∈ bars, b.IsFinite) :
    (sort bars).Pairwise fun a b => b.pair.2 ≤ a.pair.2 := by
  refine (hsort.ordered h).imp_of_mem fun {a b} ha hb hbefore => ?_
  rw [Bar.before_position (hsort.finite h a ha) (hsort.finite h b hb), decide_eq_false_iff_not,
    not_lt] at hbefore
  exact hbefore

-- Where bars of one length are the same, there is but one order.
theorem Sorts.eq_of_perm (hsort : Sorts sort) (hperm : others.Perm bars)
    (h : ∀ b ∈ bars, b.IsFinite)
    (hsame : ∀ a ∈ bars, ∀ b ∈ bars, a.pair.2 = b.pair.2 → a = b) :
    sort others = sort bars := by
  have hothers : ∀ b ∈ others, b.IsFinite := fun b hb => h b (hperm.mem_iff.mp hb)
  have hkept := (hsort.perm hothers).trans hperm
  refine List.Perm.eq_of_pairwise (fun a b ha hb hab hba => ?_) (hsort.pairwise hothers)
    (hsort.pairwise h) (hkept.trans (hsort.perm h).symm)
  exact hsame a (hkept.mem_iff.mp ha) b ((hsort.perm h).mem_iff.mp hb) (le_antisymm hba hab)

-- Equal bars stay in the order in which they come.
def inTurn (bars : List Bar) : List Bar :=
  bars.mergeSort fun a b => decide (b.pair.2 ≤ a.pair.2)

theorem inTurn_sorts : Sorts inTurn where
  perm _ := List.mergeSort_perm _ _
  ordered {bars} h := by
    have hsorted : (inTurn bars).Pairwise fun a b => decide (b.pair.2 ≤ a.pair.2) = true :=
      List.pairwise_mergeSort (fun a b c => by simpa using fun hab hbc => le_trans hbc hab)
        (fun a b => by simpa using le_total _ _) bars
    have hfinite : ∀ b ∈ inTurn bars, b.IsFinite := fun b hb => h b (List.mem_mergeSort.mp hb)
    refine hsorted.imp_of_mem fun {a b} ha hb hle => ?_
    rw [Bar.before_position (hfinite a ha) (hfinite b hb), decide_eq_false_iff_not, not_lt]
    exact of_decide_eq_true hle

end BarChart

end Tileboard
