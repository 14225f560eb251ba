import Tileboard.Tile.Pass
import Tileboard.Proofs.Computation

namespace Tileboard

theorem lookup_putField (fields : List (String × Value)) (name other : String) (v : Value) :
    (putField fields name v).lookup other = if other = name then some v else fields.lookup other := by
  induction fields with
  | nil =>
      by_cases h : other = name
      · simp [putField, h]
      · simp [putField, h]
  | cons field rest ih =>
      obtain ⟨n, u⟩ := field
      unfold putField
      by_cases hn : n = name
      · subst hn
        by_cases h : other = n
        · simp [h]
        · simp [h, List.lookup_cons, beq_false_of_ne h]
      · by_cases h : other = n
        · simp [h, hn]
        · simp [hn, List.lookup_cons, beq_false_of_ne h, ih]

-- A list of descriptions is read one by one, the empty one included.
theorem Tile.listOfValue_list (descriptions : List Value) :
    Tile.listOfValue (.list descriptions) = descriptions.mapM Tile.ofValue := by
  unfold Tile.listOfValue Value.itemsOrNone
  cases descriptions <;> rfl

namespace Pass

theorem lookup_putAll_of_notMem {name : String} {more : List (String × Value)}
    (fields : List (String × Value)) (h : name ∉ more.map (·.1)) :
    (putAll fields more).lookup name = fields.lookup name := by
  unfold putAll
  induction more generalizing fields with
  | nil => rfl
  | cons field rest ih =>
      simp only [List.map_cons, List.mem_cons, not_or] at h
      rw [List.foldl_cons, ih _ h.2, lookup_putField, if_neg h.1]

-- Of several fields put in, the one under a name is found if no later one has it.
theorem lookup_putAll {name : String} {v : Value} {after : List (String × Value)}
    (fields before : List (String × Value)) (h : name ∉ after.map (·.1)) :
    (putAll fields (before ++ (name, v) :: after)).lookup name = some v := by
  have hsplit : putAll fields (before ++ (name, v) :: after) =
      putAll (putField (putAll fields before) name v) after := by
    simp [putAll, List.foldl_append]
  rw [hsplit, lookup_putAll_of_notMem _ h, lookup_putField, if_pos rfl]

-- The description of a tile with its outcome and the fields that depend on more than
-- the outcome.
def shown {F : Type} (pass : Pass) (t : Tile F) (o : Outcome) (subtitle trend : Value) :
    List (String × Value) :=
  putAll t.description
    ([("value", o.value), ("previous", o.previous), ("trend", trend),
      ("direction", directionName o.change.direction), ("percent", optionalReal o.change.percent),
      ("subtitle", subtitle), ("clickFilter", pass.clickFilter t),
      ("clickable", if t.clickable.isNull then .bool (pass.clickFilter t).holds else t.clickable)] ++
    match o.groups with
    | some tiles => [("tiles", Value.list tiles)]
    | none => [])

-- The subtitle of a tile: its own, or that of its metric.
def subtitleOf {F : Type} (subtitles : Subtitles) (t : Tile F) : Except Fault Value :=
  if t.subtitle.isNull then subtitles.subtitle (.text t.key) t.matchKey else .ok t.subtitle

theorem assemble_eq_ok_iff {F : Type} {pass : Pass} {subtitles : Subtitles} {t : Tile F}
    {o : Outcome} {r : Value} :
    pass.assemble subtitles t o = .ok r ↔ ∃ subtitle trend, subtitleOf subtitles t = .ok subtitle ∧
      o.trendText = .ok trend ∧ r = .object (pass.shown t o subtitle trend) := by
  have hassemble : pass.assemble subtitles t o = (do
      let subtitle ← subtitleOf subtitles t
      let trend ← o.trendText
      .ok (.object (pass.shown t o subtitle trend))) := by
    unfold assemble subtitleOf
    cases t.subtitle.isNull <;> rfl
  rw [hassemble, bind_eq_ok_iff]
  constructor
  · rintro ⟨subtitle, hsubtitle, h⟩
    obtain ⟨trend, htrend, h⟩ := bind_eq_ok_iff.mp h
    exact ⟨subtitle, trend, hsubtitle, htrend, (Except.ok.inj h).symm⟩
  · rintro ⟨subtitle, trend, hsubtitle, htrend, rfl⟩
    exact ⟨subtitle, hsubtitle, bind_eq_ok_iff.mpr ⟨trend, htrend, rfl⟩⟩

section Fields

variable {F : Type} (pass : Pass) (t : Tile F) (o : Outcome) (subtitle trend : Value)

def results : List (String × Value) :=
  [("value", o.value), ("previous", o.previous), ("trend", trend),
    ("direction", directionName o.change.direction), ("percent", optionalReal o.change.percent),
    ("subtitle", subtitle)]

theorem field?_shown {name : String} {v : Value}
    (h : (results o subtitle trend).lookup name = some v) :
    (Value.object (pass.shown t o subtitle trend)).field? name = some v := by
  have hmem := mem_of_lookup h
  simp only [results, List.mem_cons, Prod.mk.injEq, List.not_mem_nil, or_false] at hmem
  rcases hmem with ⟨rfl, rfl⟩ | ⟨rfl, rfl⟩ | ⟨rfl, rfl⟩ | ⟨rfl, rfl⟩ | ⟨rfl, rfl⟩ | ⟨rfl, rfl⟩
  · exact lookup_putAll _ [] (by cases o.groups <;> simp)
  · exact lookup_putAll _ [_] (by cases o.groups <;> simp)
  · exact lookup_putAll _ [_, _] (by cases o.groups <;> simp)
  · exact lookup_putAll _ [_, _, _] (by cases o.groups <;> simp)
  · exact lookup_putAll _ [_, _, _, _] (by cases o.groups <;> simp)
  · exact lookup_putAll _ [_, _, _, _, _] (by cases o.groups <;> simp)

end Fields

theorem field_of_assemble {F : Type} {pass : Pass} {subtitles : Subtitles} {t : Tile F}
    {o : Outcome} {r : Value} (h : pass.assemble subtitles t o = .ok r) :
    r.field "value" = o.value ∧ r.field "previous" = o.previous := by
  obtain ⟨subtitle, trend, -, -, rfl⟩ := assemble_eq_ok_iff.mp h
  have hfield : ∀ {name : String} {v : Value}, (results o subtitle trend).lookup name = some v →
      (Value.object (pass.shown t o subtitle trend)).field name = v := fun h => by
    rw [Value.field, field?_shown _ _ _ _ _ h, Option.getD_some]
  exact ⟨hfield rfl, hfield rfl⟩

-- The result of one tile comes from its plan with the filters made ready, run over
-- the rows that the tile looks at.
theorem tile_eq_ok {pass : Pass} {mode : Mode} {subtitles : Subtitles} {w : Windows Value}
    {t : Tile Filter} {r : Value} (h : (pass.tile mode subtitles w t).result = .ok r) :
    ∃ plan ready o, pass.plan t = .ok plan ∧
      (plan.prepare (Matcher.ofFilter mode)).result = .ok ready ∧
      (ready.run (rowsFor t w.current w.all) (rowsFor t w.previous w.all)).result = .ok o ∧
      pass.assemble subtitles t (pass.shownOutcome t o) = .ok r := by
  unfold tile at h
  obtain ⟨plan, hplan, h⟩ := Traced.lift_bind_eq_ok_iff.mp h
  obtain ⟨ready, hready, h⟩ := Traced.bind_result_eq_ok_iff.mp h
  obtain ⟨o, ho, h⟩ := Traced.bind_result_eq_ok_iff.mp h
  exact ⟨plan, ready, o, hplan, hready, ho, h⟩

theorem run_eq_ok {pass : Pass} {mode : Mode} {metrics : Value} {w : Windows Value}
    {descriptions : Value} {results : List Value}
    (h : (pass.run mode metrics w descriptions).result = .ok results) :
    ∃ subtitles ts, Subtitles.ofValue metrics = .ok subtitles ∧
      Tile.listOfValue descriptions = .ok ts ∧
      List.Forall₂ (fun t r => (pass.tile mode subtitles w t).result = .ok r) ts results := by
  unfold run at h
  obtain ⟨subtitles, hs, h⟩ := Traced.lift_bind_eq_ok_iff.mp h
  obtain ⟨ts, ht, h⟩ := Traced.lift_bind_eq_ok_iff.mp h
  exact ⟨subtitles, ts, hs, ht, Traced.mapM_result_eq_ok h⟩

end Pass

end Tileboard
