import Tileboard.Proofs.Filter.Description
import Tileboard.Proofs.Workspace.Course

namespace Tileboard.Selection

-- What selects by the items of two lists keeps the rows that pass each of them, however the items
-- are put together. Some items stand for all of them joined.
structure Conjoins {ι α : Type} (select : List ι → List α → Except Fault (List α))
    (test : ι → α → Bool) (joined : ι → Prop) (F G : List ι) (rows kept : List α) : Prop where
  passing : kept = rows.filter fun row => (F ++ G).all fun i => test i row
  together : select (F ++ G) rows = .ok kept
  inTurn : ∃ first, select F rows = .ok first ∧ select G first = .ok kept
  anyOrder : ∀ H, (∀ i, i ∈ H ↔ i ∈ F ++ G) → select H rows = .ok kept
  grouped : ∀ i, joined i → select [i] rows = .ok kept
  sublist : kept.Sublist rows
  again : select (F ++ G) kept = .ok kept

section Tests

variable {ι α : Type} {select : List ι → List α → Except Fault (List α)} {test : ι → α → Bool}
  {joined : ι → Prop} {F G : List ι} {rows : List α}

-- Where each item is a test of single rows, and a joined one the test by all of them.
theorem conjoins_of_tests (hselect : ∀ H rs, (∀ i ∈ H, i ∈ F ++ G ∨ joined i) → rs ⊆ rows →
      select H rs = .ok (rs.filter fun a => H.all fun i => test i a))
    (hjoined : ∀ i, joined i → ∀ a ∈ rows, test i a = (F ++ G).all fun i => test i a) :
    Conjoins select test joined F G rows
      (rows.filter fun a => (F ++ G).all fun i => test i a) where
  passing := rfl
  together := hselect _ _ (fun i hi => .inl hi) (List.Subset.refl _)
  inTurn := by
    refine ⟨_, hselect F rows (fun i hi => .inl (List.mem_append_left _ hi)) (List.Subset.refl _),
      ?_⟩
    rw [hselect G _ (fun i hi => .inl (List.mem_append_right _ hi)) (List.filter_subset_self _),
      List.filter_filter]
    simp only [List.all_append, Bool.and_comm]
  anyOrder := by
    intro H hH
    rw [hselect H rows (fun i hi => .inl ((hH i).mp hi)) (List.Subset.refl _)]
    refine congrArg Except.ok (List.filter_congr fun a _ => ?_)
    rw [Bool.eq_iff_iff, List.all_eq_true, List.all_eq_true]
    exact forall_congr' fun i => by rw [hH i]
  grouped := by
    intro i hi
    rw [hselect [i] rows (fun j hj => .inr (List.mem_singleton.mp hj ▸ hi)) (List.Subset.refl _)]
    refine congrArg Except.ok (List.filter_congr fun a ha => ?_)
    rw [List.all_cons, List.all_nil, Bool.and_true, hjoined i hi a ha]
  sublist := List.filter_sublist
  again := by
    rw [hselect _ _ (fun i hi => .inl hi) (List.filter_subset_self _), List.filter_filter]
    simp only [Bool.and_self]

-- The test by what an item is read as.
def testAs {κ : Type} (read : κ → Except Fault ι) (test : ι → α → Bool) (k : κ) (row : α) : Bool :=
  match read k with
  | .ok i => test i row
  | .error _ => false

variable {κ : Type} {read : κ → Except Fault ι}

theorem all_testAs {ks : List κ} {is : List ι} (h : List.Forall₂ (fun k i => read k = .ok i) ks is)
    (row : α) : (ks.all fun k => testAs read test k row) = is.all fun i => test i row := by
  induction h with
  | nil => rfl
  | cons hk _ ih => rw [List.all_cons, List.all_cons, ih, testAs, hk]

-- What reads its items first, and then selects by what it has read, keeps the same.
theorem Conjoins.of_read {selectRead : List κ → List α → Except Fault (List α)}
    {joinedRead : κ → Prop} {fs gs : List κ} {kept : List α}
    (h : Conjoins select test joined F G rows kept) (hF : fs.mapM read = .ok F)
    (hG : gs.mapM read = .ok G)
    (hjoined : ∀ k, joinedRead k → ∃ i, read k = .ok i ∧ joined i)
    (hselect : ∀ ks is rs, ks.mapM read = .ok is → selectRead ks rs = select is rs) :
    Conjoins selectRead (testAs read test) joinedRead fs gs rows kept := by
  have hboth : (fs ++ gs).mapM read = .ok (F ++ G) := by
    rw [List.mapM_append, hF, hG]
    rfl
  refine ⟨?_, (hselect _ _ _ hboth).trans h.together, ?_, fun ks hks => ?_, fun k hk => ?_,
    h.sublist, (hselect _ _ _ hboth).trans h.again⟩
  · simpa only [all_testAs (mapM_eq_ok hboth)] using h.passing
  · obtain ⟨first, hfirst, hkept⟩ := h.inTurn
    exact ⟨first, (hselect _ _ _ hF).trans hfirst, (hselect _ _ _ hG).trans hkept⟩
  · have hreadable : ∀ k ∈ ks, ∃ i, read k = .ok i := fun k hk =>
      mapM_succeeds_iff.mp ⟨_, hboth⟩ k ((hks k).mp hk)
    obtain ⟨is, his⟩ := mapM_succeeds_iff.mpr hreadable
    refine (hselect _ _ _ his).trans (h.anyOrder is fun i => ?_)
    constructor
    · intro hi
      obtain ⟨k, hk, hki⟩ := exists_left_of_forall₂ (mapM_eq_ok his) hi
      obtain ⟨j, hj, hkj⟩ := exists_right_of_forall₂ (mapM_eq_ok hboth) ((hks k).mp hk)
      exact Except.ok.inj (hki.symm.trans hkj) ▸ hj
    · intro hi
      obtain ⟨k, hk, hki⟩ := exists_left_of_forall₂ (mapM_eq_ok hboth) hi
      obtain ⟨j, hj, hkj⟩ := exists_right_of_forall₂ (mapM_eq_ok his) ((hks k).mpr hk)
      exact Except.ok.inj (hki.symm.trans hkj) ▸ hj
  · obtain ⟨i, hi, hji⟩ := hjoined k hk
    have hone : [k].mapM read = .ok [i] := by
      rw [List.mapM_cons, hi]
      rfl
    exact (hselect _ _ _ hone).trans (h.grouped i hji)

end Tests

section Filters

variable {α : Type} {record : α → Value} {mode : Mode} {rows : List α}

-- A filter that can be made ready and comes to an answer on every row.
def Usable (record : α → Value) (mode : Mode) (rows : List α) (f : Filter) : Prop :=
  ∃ m, (Matcher.ofFilter mode f).result = .ok m ∧ ∀ row ∈ rows, (m.accepts (record row)).Answers

def passes (record : α → Value) (mode : Mode) (f : Filter) (row : α) : Bool :=
  match (Matcher.ofFilter mode f).result with
  | .ok m => (m.accepts (record row)).isTrue
  | .error _ => false

theorem all_passes_of_made {fs : List Filter} {ms : List Matcher}
    (h : List.Forall₂ (fun f m => (Matcher.ofFilter mode f).result = .ok m) fs ms) (row : α) :
    (ms.all fun m => (m.accepts (record row)).isTrue) =
      fs.all fun f => passes record mode f row := by
  induction h with
  | nil => rfl
  | cons hfm _ ih => rw [List.all_cons, List.all_cons, ih, passes, hfm]

-- A selection that comes to its end keeps the rows that pass all filters.
theorem apply_eq_ok {fs : List Filter} {kept : List α}
    (h : (apply record mode fs rows).result = .ok kept) :
    kept = rows.filter fun row => fs.all fun f => passes record mode f row := by
  unfold apply at h
  by_cases hidle : isIdle fs rows = true
  · rw [if_pos hidle] at h
    cases h
    refine (List.filter_eq_self.mpr fun row hrow => ?_).symm
    rcases Bool.or_eq_true_iff.mp hidle with hfs | hrows
    · rw [List.isEmpty_iff.mp hfs]
      rfl
    · rw [List.isEmpty_iff.mp hrows] at hrow
      cases hrow
  · rw [if_neg hidle] at h
    obtain ⟨ms, hms, hkept⟩ := Traced.bind_result_eq_ok_iff.mp h
    rw [Matcher.ofFilters_result] at hms
    rw [(keep_eq_ok hkept).2]
    refine List.filter_congr fun row _ => ?_
    rw [Matcher.isTrue_acceptsAll, all_passes_of_made (mapM_eq_ok hms)]

theorem ofFilters_of_usable {fs : List Filter} (h : ∀ f ∈ fs, Usable record mode rows f) :
    ∃ ms, (Matcher.ofFilters mode fs).result = .ok ms ∧
      (∀ m ∈ ms, ∀ row ∈ rows, (m.accepts (record row)).Answers) ∧
      ∀ row, (ms.all fun m => (m.accepts (record row)).isTrue) =
        fs.all fun f => passes record mode f row := by
  rw [Matcher.ofFilters_result]
  obtain ⟨ms, hms⟩ := mapM_succeeds_iff.mpr fun f hf => (h f hf).imp fun _ hm => hm.1
  have hmade := mapM_eq_ok hms
  refine ⟨ms, hms, fun m hm => ?_, all_passes_of_made hmade⟩
  obtain ⟨f, hf, hfm⟩ := exists_left_of_forall₂ hmade hm
  obtain ⟨n, hn, hanswers⟩ := h f hf
  exact Except.ok.inj (hfm.symm.trans hn) ▸ hanswers

theorem apply_of_usable {fs : List Filter} (h : ∀ f ∈ fs, Usable record mode rows f) :
    (apply record mode fs rows).result =
      .ok (rows.filter fun row => fs.all fun f => passes record mode f row) := by
  obtain ⟨ms, hms, hanswers, htest⟩ := ofFilters_of_usable h
  rw [apply_result hms fun row hrow m hm => hanswers m hm row hrow]
  simp only [htest]

theorem usable_all {fs : List Filter} (h : ∀ f ∈ fs, Usable record mode rows f) :
    Usable record mode rows (.all fs) ∧
      ∀ row, passes record mode (.all fs) row = fs.all fun f => passes record mode f row := by
  obtain ⟨ms, hms, hanswers, htest⟩ := ofFilters_of_usable h
  have hall : (Matcher.ofFilter mode (.all fs)).result = .ok (.all ms) := by
    rw [Matcher.ofFilter, Traced.result_bind, hms]
    rfl
  refine ⟨⟨.all ms, hall, fun row hrow => ?_⟩, fun row => ?_⟩
  · rw [Matcher.accepts]
    exact Matcher.acceptsAll_answers fun m hm => hanswers m hm row hrow
  · rw [passes, hall, ← htest row]
    dsimp only
    rw [Matcher.accepts, Matcher.isTrue_acceptsAll]

theorem apply_conjoins {fs gs : List Filter} (h : ∀ f ∈ fs ++ gs, Usable record mode rows f) :
    ∃ kept, Conjoins (fun hs rs => (apply record mode hs rs).result) (passes record mode)
      (· = .all (fs ++ gs)) fs gs rows kept := by
  obtain ⟨husable, hpasses⟩ := usable_all h
  refine ⟨_, conjoins_of_tests (fun hs rs hhs hrs => ?_) fun f hf row _ => ?_⟩
  · refine apply_of_usable fun f hf => ?_
    have hall : Usable record mode rows f := (hhs f hf).elim (h f) fun heq => heq ▸ husable
    obtain ⟨m, hm, hanswers⟩ := hall
    exact ⟨m, hm, fun row hrow => hanswers row (hrs hrow)⟩
  · rw [hf, hpasses]

-- Described filters are read, and then select as the filters that they describe.
theorem applyDescribed_of_read {vs : List Value} {fs : List Filter} (rs : List α)
    (h : vs.mapM Filter.ofValue = .ok fs) :
    (applyDescribed record mode vs rs).result = (apply record mode fs rs).result := by
  have hread := mapM_eq_ok h
  have hidle : isIdle vs rs = isIdle fs rs := by cases hread <;> rfl
  have hready : (readAll mode vs).result = (Matcher.ofFilters mode fs).result := by
    rw [readAll_result, Matcher.ofFilters_result]
    exact mapM_eq_of_forall₂ (hread.imp fun v f hvf => by rw [hvf, ok_bind])
  unfold applyDescribed apply
  rw [hidle]
  cases isIdle fs rs with
  | true => rfl
  | false => simp only [Bool.false_eq_true, if_false, Traced.result_bind, hready]

end Filters

section Sources

variable {α : Type} {record : α → Value} {mode : Mode} {F G : List Value} {fs gs : List Filter}
  {rows : List α}

theorem ofValue_joined {vs : List Value} {fs : List Filter} (h : vs.mapM Filter.ofValue = .ok fs) :
    Filter.ofValue (.object [("and", .list vs)]) = .ok (.all fs) := by
  have hgroup : Filter.groupIn [("and", .list vs)] = some ("and", .list vs) := rfl
  rw [Filter.ofValue_list hgroup, h]
  rfl

-- Filters, their descriptions, and the names under which a workspace holds them all select as one
-- conjunction, the last two by way of any cache of the mode as well. They all keep the same rows,
-- those that pass each of the filters.
theorem conjoins_from_any_source (hF : F.mapM Filter.ofValue = .ok fs)
    (hG : G.mapM Filter.ofValue = .ok gs) (h : ∀ f ∈ fs ++ gs, Usable record mode rows f) :
    ∃ kept,
      Conjoins (fun hs rs => (apply record mode hs rs).result) (passes record mode)
        (· = .all (fs ++ gs)) fs gs rows kept ∧
      Conjoins (fun vs rs => (applyDescribed record mode vs rs).result)
        (testAs Filter.ofValue (passes record mode)) (· = .object [("and", .list (F ++ G))]) F G
        rows kept ∧
      ∀ actions cacheName, (Workspace.course actions).HasCache cacheName mode →
        Conjoins (fun vs rs =>
            (Workspace.applyDescribed record vs rs cacheName (Workspace.course actions)).2.result)
          (testAs Filter.ofValue (passes record mode)) (· = .object [("and", .list (F ++ G))]) F G
          rows kept ∧
        ∀ names others, names.mapM (Workspace.course actions).filterUnder = .ok fs →
          others.mapM (Workspace.course actions).filterUnder = .ok gs →
          Conjoins (fun ns rs =>
              (Workspace.apply record ns rs cacheName (Workspace.course actions)).2.result)
            (testAs (Workspace.course actions).filterUnder (passes record mode))
            (fun n => (Workspace.course actions).filterUnder n = .ok (.all (fs ++ gs)))
            names others rows kept := by
  obtain ⟨kept, hkept⟩ := apply_conjoins h
  have hboth : (F ++ G).mapM Filter.ofValue = .ok (fs ++ gs) := by
    rw [List.mapM_append, hF, hG]
    rfl
  have hjoined : ∀ v, v = .object [("and", .list (F ++ G))] →
      ∃ f, Filter.ofValue v = .ok f ∧ f = .all (fs ++ gs) := fun v hv =>
    ⟨_, hv ▸ ofValue_joined hboth, rfl⟩
  have hdescribed := hkept.of_read hF hG hjoined fun vs hs rs hvs => applyDescribed_of_read rs hvs
  refine ⟨kept, hkept, hdescribed, fun actions cacheName hcache => ?_⟩
  have hsound := Workspace.course_sound actions
  refine ⟨?_, fun names others hnames hothers => ?_⟩
  · exact hkept.of_read hF hG hjoined fun vs hs rs hvs =>
      (Workspace.applyDescribed_comesTo hsound hcache vs).result_eq.trans
        (applyDescribed_of_read rs hvs)
  · exact hkept.of_read hnames hothers (fun n hn => ⟨_, hn, rfl⟩) fun ns hs rs hns =>
      (Workspace.apply_comesTo hsound hcache hns).result_eq

end Sources

-- Two descriptions with the filters that they describe, and a workspace that holds these.
def lateDescription : Value := .object [("column", .text "status"), ("equals", .text "late")]

def longDescription : Value := .object [("column", .text "hours"), ("gt", .int 2)]

def late : Filter := .leaf (.text "status") (some (.equals false)) (.text "late")

def long : Filter := .leaf (.text "hours") (some (.compare .greater)) (.int 2)

def holding : List Workspace.Action :=
  [.parse "late" lateDescription, .parse "long" longDescription, .newCache "s" .strict]

def shifts : List Value :=
  [.object [("status", .text "Late "), ("hours", .int 3)],
    .object [("status", .text "late"), ("hours", .int 1)], .object [("hours", .int 5)]]

theorem shifts_conjoined :
    ∃ kept,
      Conjoins (fun vs rs => (applyDescribed id .strict vs rs).result)
        (testAs Filter.ofValue (passes id .strict))
        (· = .object [("and", .list [lateDescription, longDescription])])
        [lateDescription] [longDescription] shifts kept ∧
      (Workspace.course holding).HasCache "s" .strict ∧
      Conjoins (fun ns rs => (Workspace.apply id ns rs "s" (Workspace.course holding)).2.result)
        (testAs (Workspace.course holding).filterUnder (passes id .strict))
        (fun n => (Workspace.course holding).filterUnder n = .ok (.all [late, long]))
        ["late"] ["long"] shifts kept := by
  have husable : ∀ f ∈ [late] ++ [long], Usable id .strict shifts f := by
    intro f hf
    simp only [List.cons_append, List.nil_append, List.mem_cons, List.not_mem_nil, or_false] at hf
    have hrows : ∀ {m : Matcher}, (m.accepts shifts[0]).Answers → (m.accepts shifts[1]).Answers →
        (m.accepts shifts[2]).Answers → ∀ row ∈ shifts, (m.accepts (id row)).Answers := by
      intro m h₀ h₁ h₂ row hrow
      simp only [shifts, List.mem_cons, List.not_mem_nil, or_false] at hrow
      rcases hrow with rfl | rfl | rfl
      · exact h₀
      · exact h₁
      · exact h₂
    rcases hf with rfl | rfl <;> exact ⟨_, rfl, hrows ⟨_, rfl⟩ ⟨_, rfl⟩ ⟨_, rfl⟩⟩
  have hlate : (Workspace.course holding).filterUnder "late" = .ok late :=
    congrArg Except.ok (Dag.toFilter_of_leaf rfl)
  have hlong : (Workspace.course holding).filterUnder "long" = .ok long :=
    congrArg Except.ok (Dag.toFilter_of_leaf rfl)
  have hone : ∀ {name f}, (Workspace.course holding).filterUnder name = .ok f →
      [name].mapM (Workspace.course holding).filterUnder = .ok [f] := by
    intro name f hname
    rw [List.mapM_cons, hname]
    rfl
  have hcache : (Workspace.course holding).HasCache "s" .strict := ⟨_, rfl, rfl⟩
  have hreadLate : [lateDescription].mapM Filter.ofValue = .ok [late] := rfl
  have hreadLong : [longDescription].mapM Filter.ofValue = .ok [long] := rfl
  obtain ⟨kept, -, hdescribed, hworkspace⟩ :=
    conjoins_from_any_source hreadLate hreadLong husable
  exact ⟨kept, hdescribed, hcache,
    (hworkspace holding "s" hcache).2 _ _ (hone hlate) (hone hlong)⟩

end Tileboard.Selection
