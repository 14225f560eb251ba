import Tileboard.Proofs.Column.Mention
import Mathlib.Logic.Relation

namespace Tileboard

namespace Value

-- Two rows have the same cells in these columns, or cannot be asked for the same reason.
def AgreesOn (columns : List Value) (row other : Value) : Prop :=
  ∀ column ∈ columns, row.cell column = other.cell column

theorem AgreesOn.refl (columns : List Value) (row : Value) : AgreesOn columns row row :=
  fun _ _ => rfl

theorem AgreesOn.trans {columns : List Value} {row other third : Value}
    (h : AgreesOn columns row other) (h' : AgreesOn columns other third) :
    AgreesOn columns row third :=
  fun column hcolumn => (h column hcolumn).trans (h' column hcolumn)

theorem AgreesOn.cell_eq {column row other : Value} (h : AgreesOn [column] row other) :
    row.cell column = other.cell column := h column List.mem_cons_self

theorem AgreesOn.mono {columns fewer : List Value} {row other : Value}
    (h : AgreesOn columns row other) (hsub : fewer ⊆ columns) : AgreesOn fewer row other :=
  fun column hcolumn => h column (hsub hcolumn)

-- A change of a record that no mentioned column shows: a null cell is taken out, or a
-- column that is not mentioned is put in.
inductive Edit (columns : List Value) : Value → Value → Prop
  | dropNull {before after : List (String × Value)} {name : String}
      (hname : name ∉ after.map (·.1)) :
      Edit columns (.object (before ++ (name, .null) :: after)) (.object (before ++ after))
  | addColumn {before after : List (String × Value)} {name : String} {value : Value}
      (hname : .text name ∉ columns) :
      Edit columns (.object (before ++ after)) (.object (before ++ (name, value) :: after))

theorem agreesOn_of_lookup {columns : List Value} {fields others : List (String × Value)}
    (h : ∀ name, .text name ∈ columns →
      (fields.lookup name).getD .null = (others.lookup name).getD .null) :
    AgreesOn columns (.object fields) (.object others) := by
  intro column hcolumn
  cases column with
  | text name => simp only [cell, h name hcolumn]
  | _ => rfl

theorem lookup_eq_none {fields : List (String × Value)} {name : String}
    (h : name ∉ fields.map (·.1)) : fields.lookup name = none := by
  rw [List.lookup_eq_none_iff]
  intro field hfield
  have hne : name ≠ field.1 := by
    rintro rfl
    exact h (List.mem_map_of_mem hfield)
  simpa using hne

theorem Edit.agreesOn {columns : List Value} {row other : Value} (h : Edit columns row other) :
    AgreesOn columns row other := by
  cases h with
  | @dropNull before after name hname =>
      refine agreesOn_of_lookup fun asked _ => ?_
      rw [List.lookup_append, List.lookup_append, List.lookup_cons]
      by_cases heq : asked = name
      · subst heq
        rw [lookup_eq_none hname]
        cases before.lookup asked <;> simp
      · have hne : (asked == name) = false := by simpa using heq
        rw [hne]
  | @addColumn before after name value hname =>
      refine agreesOn_of_lookup fun asked hasked => ?_
      have hne : (asked == name) = false := by
        rw [beq_eq_false_iff_ne]
        rintro rfl
        exact hname hasked
      rw [List.lookup_append, List.lookup_append, List.lookup_cons, hne]

theorem agreesOn_of_edits {columns : List Value} {row other : Value}
    (h : Relation.ReflTransGen (Edit columns) row other) : AgreesOn columns row other := by
  induction h with
  | refl => exact .refl columns row
  | tail _ hedit ih => exact ih.trans hedit.agreesOn

end Value

open Value

namespace Matcher

mutual

-- Induction on the matcher: the groups ask their parts in turn.
theorem accepts_eq {row other : Value} : ∀ (m : Matcher), AgreesOn m.columns row other →
    m.accepts row = m.accepts other
  | .always, _ => rfl
  | .never, _ => rfl
  | .isNull column _, h => by
      have hcell : row.cell column = other.cell column := h.cell_eq
      simp only [accepts, hcell]
  | .equals column _ _, h => by
      have hcell : row.cell column = other.cell column := h.cell_eq
      simp only [accepts, hcell]
  | .compare column _ _, h => by
      have hcell : row.cell column = other.cell column := h.cell_eq
      simp only [accepts, hcell]
  | .contains column _ _, h => by
      have hcell : row.cell column = other.cell column := h.cell_eq
      simp only [accepts, hcell]
  | .search column _ _, h => by
      have hcell : row.cell column = other.cell column := h.cell_eq
      simp only [accepts, hcell]
  | .member column _ _, h => by
      have hcell : row.cell column = other.cell column := h.cell_eq
      simp only [accepts, hcell]
  | .all parts, h => by
      rw [accepts, accepts]
      exact acceptsAll_eq parts h
  | .any parts, h => by
      rw [accepts, accepts]
      exact acceptsAny_eq parts h

theorem acceptsAll_eq {row other : Value} : ∀ (ms : List Matcher),
    AgreesOn (columnsOf ms) row other → acceptsAll ms row = acceptsAll ms other
  | [], _ => rfl
  | m :: rest, h => by
      have hfirst := accepts_eq m (h.mono (List.subset_append_left _ _))
      have hrest := acceptsAll_eq rest (h.mono (List.subset_append_right _ _))
      simp only [acceptsAll, hfirst, hrest]

theorem acceptsAny_eq {row other : Value} : ∀ (ms : List Matcher),
    AgreesOn (columnsOf ms) row other → acceptsAny ms row = acceptsAny ms other
  | [], _ => rfl
  | m :: rest, h => by
      have hfirst := accepts_eq m (h.mono (List.subset_append_left _ _))
      have hrest := acceptsAny_eq rest (h.mono (List.subset_append_right _ _))
      simp only [acceptsAny, hfirst, hrest]

end

end Matcher

namespace Selection

-- A test that answers alike on related items keeps related items.
theorem keep_related {α : Type} {R : α → α → Prop} {test : α → Traced Bool} {items others : List α}
    (h : List.Forall₂ R items others) (htest : ∀ a b, R a b → test a = test b) :
    Traced.Related (List.Forall₂ R) (keep test items) (keep test others) := by
  induction h with
  | nil => exact .ok [] .nil
  | @cons a b items others hab _ ih =>
      rw [keep, keep, htest a b hab]
      refine (Traced.Related.refl (test b)).bind ?_
      rintro answer _ rfl
      cases answer with
      | false => exact ih
      | true => exact ih.bind fun kept keptOther hkept => .ok [] (.cons hab hkept)

theorem count_eq {α : Type} {R : α → α → Prop} {test : α → Traced Bool} {items others : List α}
    (h : List.Forall₂ R items others) (htest : ∀ a b, R a b → test a = test b) :
    count test items = count test others :=
  (keep_related h htest).bind_eq fun kept keptOther hkept => by rw [hkept.length_eq]

end Selection

end Tileboard
