import Tileboard.Board
import Tileboard.Proofs.Computation

namespace Tileboard

theorem append_subset_append {α : Type} {as bs cs ds : List α} (h : as ⊆ bs) (h' : cs ⊆ ds) :
    as ++ cs ⊆ bs ++ ds :=
  List.append_subset.mpr ⟨List.subset_append_of_subset_left _ h,
    List.subset_append_of_subset_right _ h'⟩

namespace Filter

mutual

def columns : Filter → List Value
  | .leaf column _ _ => [column]
  | .all parts => columnsOf parts
  | .any parts => columnsOf parts

def columnsOf : List Filter → List Value
  | [] => []
  | f :: rest => columns f ++ columnsOf rest

end

end Filter

namespace Matcher

mutual

def columns : Matcher → List Value
  | .always => []
  | .never => []
  | .isNull column _ => [column]
  | .equals column _ _ => [column]
  | .compare column _ _ => [column]
  | .contains column _ _ => [column]
  | .search column _ _ => [column]
  | .member column _ _ => [column]
  | .all parts => columnsOf parts
  | .any parts => columnsOf parts

def columnsOf : List Matcher → List Value
  | [] => []
  | m :: rest => columns m ++ columnsOf rest

end

theorem columns_searchFor {mode : Mode} {column operand : Value} {negated : Bool} {m : Matcher}
    (h : (searchFor mode column operand negated).result = .ok m) : m.columns ⊆ [column] := by
  unfold searchFor at h
  split at h
  · cases h
    simp [columns]
  · cases mode with
    | strict => cases h
    | permissive =>
        cases h
        simp [columns]
  · cases h
  · cases h

theorem columns_ofLeaf {mode : Mode} {column operand : Value} {operator : Option Operator}
    {m : Matcher} (h : (ofLeaf mode column operator operand).result = .ok m) :
    m.columns ⊆ [column] := by
  cases operator with
  | none =>
      cases mode with
      | strict => cases h
      | permissive =>
          cases h
          simp [columns]
  | some operator =>
      cases operator with
      | contains negated =>
          unfold ofLeaf ofTest at h
          dsimp only at h
          split at h <;> cases h <;> simp [columns]
      | search negated => exact columns_searchFor h
      | _ =>
          cases h
          simp [columns]

mutual

theorem columns_ofFilter {mode : Mode} : ∀ {f : Filter} {m : Matcher},
    (ofFilter mode f).result = .ok m → m.columns ⊆ f.columns
  | .leaf _ _ _, _, h => columns_ofLeaf h
  | .all parts, m, h => by
      obtain ⟨ms, hms, h⟩ := Traced.bind_result_eq_ok_iff.mp h
      cases h
      exact columnsOf_ofFilters hms
  | .any parts, m, h => by
      obtain ⟨ms, hms, h⟩ := Traced.bind_result_eq_ok_iff.mp h
      cases h
      exact columnsOf_ofFilters hms

theorem columnsOf_ofFilters {mode : Mode} : ∀ {fs : List Filter} {ms : List Matcher},
    (ofFilters mode fs).result = .ok ms → columnsOf ms ⊆ Filter.columnsOf fs
  | [], _, h => by cases h; simp [columnsOf]
  | f :: rest, _, h => by
      obtain ⟨m, hm, h⟩ := Traced.bind_result_eq_ok_iff.mp h
      obtain ⟨ms, hms, h⟩ := Traced.bind_result_eq_ok_iff.mp h
      cases h
      exact append_subset_append (columns_ofFilter hm) (columnsOf_ofFilters hms)

end

end Matcher

namespace Plan

-- The columns of a plan, by the columns of the filters it refers to. A count looks at a
-- distinct column only if it holds one.
def columns {F : Type} (ofFilter : F → List Value) : Plan F → List Value
  | .fixed _ => []
  | .group filter column field _ _ => filter.toList.flatMap ofFilter ++ [column, field]
  | .aggregate filter field _ _ => filter.toList.flatMap ofFilter ++ [field]
  | .count filter distinctColumn _ => ofFilter filter ++ [distinctColumn].filter Value.holds
  | .share numerator denominator => ofFilter numerator ++ ofFilter denominator
  | .duration filter start finish => filter.toList.flatMap ofFilter ++ [start, finish]
  | .days start finish => [start, finish]

def optional (mode : Mode) : Option Filter → Traced (Option Matcher)
  | some filter => some <$> Matcher.ofFilter mode filter
  | none => pure none

theorem columns_optional {mode : Mode} {filter : Option Filter} {ready : Option Matcher}
    (h : (optional mode filter).result = .ok ready) :
    ready.toList.flatMap Matcher.columns ⊆ filter.toList.flatMap Filter.columns := by
  cases filter with
  | none =>
      cases h
      simp
  | some f =>
      rw [optional, map_eq_pure_bind] at h
      obtain ⟨m, hm, h⟩ := Traced.bind_result_eq_ok_iff.mp h
      cases h
      simpa using Matcher.columns_ofFilter hm

theorem columns_prepare {mode : Mode} {plan : Plan Filter} {ready : Plan Matcher}
    (h : (plan.prepare (Matcher.ofFilter mode)).result = .ok ready) :
    ready.columns Matcher.columns ⊆ plan.columns Filter.columns := by
  cases plan with
  | fixed value =>
      cases h
      simp [columns]
  | days start finish =>
      cases h
      simp [columns]
  | count filter distinctColumn shareOfBase =>
      obtain ⟨m, hm, h⟩ := Traced.bind_result_eq_ok_iff.mp h
      cases h
      exact append_subset_append (Matcher.columns_ofFilter hm) (List.Subset.refl _)
  | share numerator denominator =>
      obtain ⟨top, htop, h⟩ := Traced.bind_result_eq_ok_iff.mp h
      obtain ⟨bottom, hbottom, h⟩ := Traced.bind_result_eq_ok_iff.mp h
      cases h
      exact append_subset_append (Matcher.columns_ofFilter htop) (Matcher.columns_ofFilter hbottom)
  | group filter column field metric filterType =>
      obtain ⟨m, hm, h⟩ := Traced.bind_result_eq_ok_iff.mp h
      have hm : (optional mode filter).result = .ok m := by cases filter <;> exact hm
      cases h
      exact append_subset_append (columns_optional hm) (List.Subset.refl _)
  | aggregate filter field metric compare =>
      obtain ⟨m, hm, h⟩ := Traced.bind_result_eq_ok_iff.mp h
      have hm : (optional mode filter).result = .ok m := by cases filter <;> exact hm
      cases h
      exact append_subset_append (columns_optional hm) (List.Subset.refl _)
  | duration filter start finish =>
      obtain ⟨m, hm, h⟩ := Traced.bind_result_eq_ok_iff.mp h
      have hm : (optional mode filter).result = .ok m := by cases filter <;> exact hm
      cases h
      exact append_subset_append (columns_optional hm) (List.Subset.refl _)

end Plan

namespace Tile

def columns (t : Tile Filter) : List Value :=
  t.filter.toList.flatMap Filter.columns ++
    t.percentage.toList.flatMap (fun parts => parts.1.columns ++ parts.2.columns) ++
    t.average.toList.flatMap (fun ends => [ends.1, ends.2]) ++
    [t.field, t.column, t.distinctColumn]

section Parts

variable {t : Tile Filter}

theorem optional_subset_columns : t.filter.toList.flatMap Filter.columns ⊆ t.columns := by
  intro c hc
  simp only [columns, List.mem_append]
  exact .inl (.inl (.inl hc))

theorem filter_subset_columns {filter : Filter} (h : t.filter = some filter) :
    filter.columns ⊆ t.columns := by
  have hsub := t.optional_subset_columns
  rw [h] at hsub
  simpa using hsub

theorem percentage_subset_columns {numerator denominator : Filter}
    (h : t.percentage = some (numerator, denominator)) :
    numerator.columns ++ denominator.columns ⊆ t.columns := by
  intro c hc
  simp only [columns, List.mem_append, h]
  exact .inl (.inl (.inr (by simpa using hc)))

theorem average_subset_columns {start finish : Value} (h : t.average = some (start, finish)) :
    [start, finish] ⊆ t.columns := by
  intro c hc
  simp only [columns, List.mem_append, h]
  exact .inl (.inr (by simpa using hc))

theorem fields_subset_columns : [t.field, t.column, t.distinctColumn] ⊆ t.columns :=
  List.subset_append_right _ _

end Parts

-- The columns of the tiles that a value describes. What cannot be read mentions none.
def mentioned (descriptions : Value) : List Value :=
  match listOfValue descriptions with
  | .ok ts => ts.flatMap columns
  | .error _ => []

theorem columns_subset_mentioned {descriptions : Value} {ts : List (Tile Filter)}
    (h : listOfValue descriptions = .ok ts) {t : Tile Filter} (ht : t ∈ ts) :
    t.columns ⊆ mentioned descriptions := by
  intro c hc
  rw [mentioned, h]
  exact List.mem_flatMap.mpr ⟨t, ht, hc⟩

end Tile

namespace Plan

theorem columns_full {t : Tile Filter} {plan : Plan Filter} (h : full t = .ok plan) :
    plan.columns Filter.columns ⊆ t.columns := by
  have hfield : t.field ∈ t.columns := t.fields_subset_columns (by simp)
  have hcolumn : t.column ∈ t.columns := t.fields_subset_columns (by simp)
  have hdistinct : t.distinctColumn ∈ t.columns := t.fields_subset_columns (by simp)
  have hoptional := t.optional_subset_columns
  unfold full at h
  by_cases hpre : t.preCalculated = true
  · rw [if_pos hpre] at h
    cases h
    simp [columns]
  rw [if_neg hpre] at h
  obtain ⟨grouped, -, hrest⟩ := bind_eq_ok_iff.mp h
  cases grouped with
  | true =>
      cases hrest
      exact List.append_subset.mpr ⟨hoptional, by simp [hcolumn, hfield]⟩
  | false =>
      dsimp only at hrest
      rw [if_neg (by simp)] at hrest
      split at hrest <;> cases hrest
      case h_1 =>
        exact List.append_subset.mpr ⟨hoptional, by simp [hfield]⟩
      case h_2 filter _ hcounted =>
        have hfilter : t.filter = some filter := by
          split at hcounted
          · cases hcounted
          · exact hcounted
        refine List.append_subset.mpr ⟨t.filter_subset_columns hfilter, ?_⟩
        split
        · exact List.Subset.trans (List.filter_subset_self _) (by simp [hdistinct])
        · simp [Value.holds]
      case h_3 hpercentage => exact t.percentage_subset_columns hpercentage
      case h_4 haverage =>
        exact List.append_subset.mpr ⟨hoptional, t.average_subset_columns haverage⟩
      case h_5 => simp [columns]

theorem columns_simple (t : Tile Filter) : (simple t).columns Filter.columns ⊆ t.columns := by
  unfold simple
  split
  case h_1 filter _ _ hfilter =>
    exact List.append_subset.mpr ⟨t.filter_subset_columns hfilter, by simp [Value.holds]⟩
  case h_2 hpercentage => exact t.percentage_subset_columns hpercentage
  case h_3 haverage => exact t.average_subset_columns haverage
  case h_4 => simp [columns]

end Plan

end Tileboard
