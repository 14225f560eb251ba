import Tileboard.Proofs.Column.Agreement
import Tileboard.Tile.Plan

namespace Tileboard

open Value

namespace Measure

variable {columns rows others : List Value}

section Reading

theorem numbersIn_eq {column : Value} (h : List.Forall₂ (AgreesOn columns) rows others)
    (hc : column ∈ columns) : numbersIn column rows = numbersIn column others := by
  induction h with
  | nil => rfl
  | cons hrow _ ih => rw [numbersIn, numbersIn, hrow column hc, ih]

theorem size_eq {distinctColumn : Value} (h : List.Forall₂ (AgreesOn columns) rows others)
    (hc : [distinctColumn].filter Value.holds ⊆ columns) :
    size distinctColumn rows = size distinctColumn others := by
  unfold size
  by_cases hholds : distinctColumn.holds = true
  · have hmem : distinctColumn ∈ columns := hc (by simp [hholds])
    have hcells : (rows.mapM fun row => row.cell distinctColumn) =
        others.mapM fun row => row.cell distinctColumn :=
      mapM_eq_of_forall₂ (h.imp fun _ _ hrow => hrow distinctColumn hmem)
    rw [if_pos hholds, if_pos hholds, distinctTexts, distinctTexts, hcells]
  · rw [if_neg hholds, if_neg hholds, h.length_eq]

theorem addRow_eq {column field row other : Value} {groups : Groups}
    (h : AgreesOn columns row other) (hc : column ∈ columns) (hf : field ∈ columns) :
    addRow column field groups row = addRow column field groups other := by
  have hnumbers : numbersIn field [row] = numbersIn field [other] :=
    numbersIn_eq (.cons h .nil) hf
  unfold addRow
  rw [h column hc, hnumbers]

theorem hasDates_eq {start finish row other : Value} (h : AgreesOn columns row other)
    (hs : start ∈ columns) (hf : finish ∈ columns) :
    hasDates start finish row = hasDates start finish other := by
  unfold hasDates
  rw [h start hs, h finish hf]

end Reading

section Matching

variable {matcher : Option Matcher}

theorem matching_related (h : List.Forall₂ (AgreesOn columns) rows others)
    (hm : matcher.toList.flatMap Matcher.columns ⊆ columns) :
    Traced.Related (List.Forall₂ (AgreesOn columns)) (matching matcher rows)
      (matching matcher others) := by
  cases matcher with
  | none => exact .ok [] h
  | some m =>
      have hm : m.columns ⊆ columns := by simpa using hm
      exact Selection.keep_related h fun row other hrow => m.accepts_eq (hrow.mono hm)

theorem aggregate_eq {before othersBefore : List Value} {column : Value} {metric : Option Metric}
    {compare : Bool} (h : List.Forall₂ (AgreesOn columns) rows others)
    (hbefore : List.Forall₂ (AgreesOn columns) before othersBefore)
    (hm : matcher.toList.flatMap Matcher.columns ⊆ columns) (hc : column ∈ columns) :
    aggregate matcher column metric compare rows before =
      aggregate matcher column metric compare others othersBefore := by
  unfold aggregate
  refine (matching_related h hm).bind_eq fun here hereOther hhere => ?_
  rw [numbersIn_eq hhere hc]
  congr 1
  funext numbers
  congr 1
  funext value
  refine (matching_related hbefore hm).bind_eq fun earlier earlierOther hearlier => ?_
  rw [numbersIn_eq hearlier hc]

-- Induction on the rows: related rows are wanted alike and go into the same group.
theorem groupRows_eq {column field : Value} (h : List.Forall₂ (AgreesOn columns) rows others)
    (hm : matcher.toList.flatMap Matcher.columns ⊆ columns) (hc : column ∈ columns)
    (hf : field ∈ columns) (groups : Groups) :
    groupRows matcher column field groups rows = groupRows matcher column field groups others := by
  induction h generalizing groups with
  | nil => rfl
  | @cons row other rows others hrow _ ih =>
      have hadd : addRow column field groups row = addRow column field groups other :=
        addRow_eq hrow hc hf
      cases matcher with
      | none => simp only [groupRows, hadd, ih]
      | some m =>
          have haccepts : m.accepts row = m.accepts other :=
            m.accepts_eq (hrow.mono (by simpa using hm))
          simp only [groupRows, haccepts, hadd, ih]

theorem grouped_eq {column field filterType : Value} {metric : Option Metric}
    (h : List.Forall₂ (AgreesOn columns) rows others)
    (hm : matcher.toList.flatMap Matcher.columns ⊆ columns) (hc : column ∈ columns)
    (hf : field ∈ columns) :
    grouped matcher column field metric filterType rows =
      grouped matcher column field metric filterType others := by
  unfold grouped
  rw [groupRows_eq h hm hc hf]

theorem daysIn_eq {start finish row other : Value} (h : AgreesOn columns row other)
    (hm : matcher.toList.flatMap Matcher.columns ⊆ columns) (hs : start ∈ columns)
    (hf : finish ∈ columns) :
    daysIn matcher start finish row = daysIn matcher start finish other := by
  unfold daysIn
  rw [hasDates_eq h hs hf, h start hs, h finish hf]
  cases matcher with
  | none => rfl
  | some m =>
      have haccepts : m.accepts row = m.accepts other :=
        m.accepts_eq (h.mono (by simpa using hm))
      simp only [haccepts]

theorem dayCounts_eq {start finish : Value} (h : List.Forall₂ (AgreesOn columns) rows others)
    (hm : matcher.toList.flatMap Matcher.columns ⊆ columns) (hs : start ∈ columns)
    (hf : finish ∈ columns) :
    dayCounts matcher start finish rows = dayCounts matcher start finish others := by
  have hdays : rows.mapM (daysIn matcher start finish) =
      others.mapM (daysIn matcher start finish) :=
    mapM_eq_of_forall₂ (h.imp fun _ _ hrow => daysIn_eq hrow hm hs hf)
  unfold dayCounts
  rw [hdays]

end Matching

section Counting

theorem count_eq {before othersBefore : List Value} {matcher : Matcher} {distinctColumn : Value}
    {shareOfBase : Bool} (h : List.Forall₂ (AgreesOn columns) rows others)
    (hbefore : List.Forall₂ (AgreesOn columns) before othersBefore)
    (hm : matcher.columns ⊆ columns) (hc : [distinctColumn].filter Value.holds ⊆ columns) :
    count matcher distinctColumn shareOfBase rows before =
      count matcher distinctColumn shareOfBase others othersBefore := by
  have haccepts : ∀ row other, AgreesOn columns row other →
      matcher.accepts row = matcher.accepts other :=
    fun row other hrow => matcher.accepts_eq (hrow.mono hm)
  unfold count
  refine (Selection.keep_related h haccepts).bind_eq fun here hereOther hhere => ?_
  refine (Selection.keep_related hbefore haccepts).bind_eq fun earlier earlierOther hearlier => ?_
  rw [size_eq hhere hc, size_eq hearlier hc, size_eq h hc]

theorem share_eq {numerator denominator : Matcher}
    (h : List.Forall₂ (AgreesOn columns) rows others)
    (hn : numerator.columns ⊆ columns) (hd : denominator.columns ⊆ columns) :
    share numerator denominator rows = share numerator denominator others := by
  have hpart : Selection.count numerator.accepts rows = Selection.count numerator.accepts others :=
    Selection.count_eq h fun row other hrow => numerator.accepts_eq (hrow.mono hn)
  have hwhole : Selection.count denominator.accepts rows =
      Selection.count denominator.accepts others :=
    Selection.count_eq h fun row other hrow => denominator.accepts_eq (hrow.mono hd)
  unfold share
  rw [hpart, hwhole]

end Counting

end Measure

namespace Plan

open Tileboard.Measure

theorem run_eq {plan : Plan Matcher} {columns active activeOther before beforeOther : List Value}
    (hplan : plan.columns Matcher.columns ⊆ columns)
    (hactive : List.Forall₂ (AgreesOn columns) active activeOther)
    (hbefore : List.Forall₂ (AgreesOn columns) before beforeOther) :
    plan.run active before = plan.run activeOther beforeOther := by
  cases plan with
  | fixed value => rfl
  | group matcher column field metric filterType =>
      obtain ⟨hm, hrest⟩ := List.append_subset.mp hplan
      exact grouped_eq hactive hm (hrest (by simp)) (hrest (by simp))
  | aggregate matcher field metric compare =>
      obtain ⟨hm, hrest⟩ := List.append_subset.mp hplan
      exact aggregate_eq hactive hbefore hm (hrest (by simp))
  | count matcher distinctColumn shareOfBase =>
      obtain ⟨hm, hrest⟩ := List.append_subset.mp hplan
      exact count_eq hactive hbefore hm hrest
  | share numerator denominator =>
      obtain ⟨hn, hd⟩ := List.append_subset.mp hplan
      exact share_eq hactive hn hd
  | duration matcher start finish =>
      obtain ⟨hm, hrest⟩ := List.append_subset.mp hplan
      have hdays : dayCounts matcher start finish active =
          dayCounts matcher start finish activeOther :=
        dayCounts_eq hactive hm (hrest (by simp)) (hrest (by simp))
      simp only [run, meanDuration, hdays]
  | days start finish =>
      have hstart : start ∈ columns := hplan (by simp [Plan.columns])
      have hfinish : finish ∈ columns := hplan (by simp [Plan.columns])
      have hdays : dayCounts none start finish active = dayCounts none start finish activeOther :=
        dayCounts_eq hactive (by simp) hstart hfinish
      simp only [run, meanDays, hdays]

end Plan

end Tileboard
