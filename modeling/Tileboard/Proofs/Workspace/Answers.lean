import Tileboard.Proofs.Workspace.Growth

namespace Tileboard

namespace Workspace

open Work (ComesTo bind_of_ok)

section Filters

variable {w : Workspace} {name : String} {mode : Mode}

theorem addFilter_comesTo (hw : w.Sound) (f : Filter) :
    ComesTo w (addFilter f) (.ok f) fun after => after.dag.Stands where
  sound := hw.grow (w.dag.add_extends f) (Nat.le_refl _)
  grown := ⟨w.dag.add_extends f, fun _ _ h => h⟩
  alike := .ok ⟨⟨_, (w.dag.add f).present⟩, rfl, w.dag.toFilter_add f⟩

-- So are those of a tile, one after the other.
theorem mapFilters_comesTo (hw : w.Sound) (t : Tile Filter) :
    ComesTo w (t.mapFilters addFilter) (.ok t) fun after held t => held.Stands after.dag t := by
  have hshare : ∀ after, after.Sound → ∀ share : Filter × Filter, ComesTo after (do
      let numerator ← addFilter share.1
      let denominator ← addFilter share.2
      pure (numerator, denominator)) (.ok share) fun last held share =>
        ∃ i : Fin last.dag.size × Fin last.dag.size,
          i.map Fin.val Fin.val = held ∧ i.map last.dag.filterAt last.dag.filterAt = share := by
    intro after hafter share
    refine (addFilter_comesTo hafter share.1).bind
      (g := fun a => .ok share.2 >>= fun b => .ok (a, b)) fun next n _ hnext _ hn => ?_
    refine (addFilter_comesTo hnext share.2).bind fun last k _ hlast hlater hk => ?_
    obtain ⟨i, rfl, rfl⟩ := hlater.dag.stands hn
    obtain ⟨j, rfl, rfl⟩ := hk
    exact .pure hlast ⟨(i, j), rfl, rfl⟩
  have hread : (Except.ok t : Except Fault (Tile Filter)) = (do
      let filter ← t.filter.mapM Except.ok
      let percentage ← t.percentage.mapM Except.ok
      .ok { t with filter, percentage }) := by
    rw [mapM_ok, mapM_ok]
    rfl
  rw [Tile.mapFilters_eq, hread]
  refine (ComesTo.option hw (addFilter_comesTo hw) t.filter).bind
    fun next node filter hnext _ hheld => ?_
  refine (ComesTo.option hnext (hshare next hnext) t.percentage).bind
    fun last nodes percentage hlast hlater hboth => ?_
  obtain ⟨i, rfl, rfl⟩ := exists_of_option_rel hheld
  obtain ⟨j, rfl, rfl⟩ := exists_of_option_rel hboth
  refine .pure hlast ⟨{ t with filter := i.map (Fin.castLE hlater.dag.size_le), percentage := j },
    ?_, ?_⟩
  · simp only [Tile.map, Option.map_map]
    rfl
  · simp only [Tile.map, Option.map_map, hlater.dag.filterAt_castLE]

-- The matcher of a node is asked for, which may add to the cache.
theorem ready_eq {c : Cache} (hc : w.caches.lookup name = some c) (node : Nat) :
    ready name node w =
      let (after, answer) := Workbench.get w.dag ⟨c, w.stamp, []⟩ node
      ({ w with caches := putEntry w.caches name after.cache, stamp := after.stamp }, answer) := by
  exact bind_of_ok (Work.named_look caches hc)

theorem HasCache.put (h : w.HasCache name mode) {other : String} {c after : Cache}
    (hc : w.caches.lookup other = some c) (hmode : after.mode = c.mode) (stamp : Nat) :
    HasCache { w with caches := putEntry w.caches other after, stamp } name mode := by
  obtain ⟨d, hd, rfl⟩ := h
  unfold HasCache
  rw [lookup_putEntry]
  by_cases hname : name = other
  · subst hname
    obtain rfl : c = d := Option.some.inj (hc.symm.trans hd)
    exact ⟨after, if_pos rfl, hmode⟩
  · exact ⟨d, (if_neg hname).trans hd, rfl⟩

-- A cache answers with the matcher that is made without it, whatever it has kept.
theorem ready_comesTo (hw : w.Sound) (hcache : w.HasCache name mode) {node : Nat} {f : Filter}
    (hf : w.dag.Stands node f) :
    ComesTo w (ready name node) (Matcher.ofFilter mode f).result fun _ r m => r.matcher = m := by
  obtain ⟨c, hc, rfl⟩ := hcache
  obtain ⟨i, rfl, rfl⟩ := hf
  obtain ⟨hsound, hgrown, hresult, -⟩ :=
    Workbench.get_answered i.val (hw.caches (name, c) (mem_of_lookup hc))
  have hready := ready_eq hc i.val
  rw [Dag.matcherOf_of_lt i.isLt] at hresult
  rcases hget : Workbench.get w.dag ⟨c, w.stamp, []⟩ i.val with ⟨after, answer⟩
  rw [hget] at hsound hgrown hresult hready
  refine ⟨?_, ?_, ?_⟩
  · rw [hready]
    exact (hw.grow (.refl _) hgrown.stamp).putCache name ⟨hsound.cache, hsound.stamped⟩
  · rw [hready]
    exact ⟨.refl _, fun other mode h => h.put hc hgrown.mode _⟩
  · rw [hready]
    exact SameUpTo.of_map hresult

end Filters

section Tiles

variable {w : Workspace} {name : String} {mode : Mode}

theorem prepare_comesTo {F : Type} {f : F → Work Matcher} {g : F → Except Fault Matcher}
    (hw : w.Sound)
    (h : ∀ after, after.Sound → w.Grows after → ∀ a, ComesTo after (f a) (g a) fun _ => Eq)
    (plan : Plan F) : ComesTo w (plan.prepare f) (plan.prepare g) fun _ => Eq := by
  have hoptional : ∀ (o : Option F) (make : Option Matcher → Plan Matcher),
      ComesTo w (make <$> o.mapM f) (make <$> o.mapM g) fun _ => Eq := by
    intro o make
    refine (ComesTo.option hw (h w hw (.refl w)) o).map fun _ a b hab => ?_
    cases hab with
    | none => rfl
    | some hab => rw [hab]
  rw [Plan.prepare_eq, Plan.prepare_eq]
  cases plan with
  | fixed value => exact .pure hw rfl
  | group filter column field metric filterType => exact hoptional filter _
  | aggregate filter field metric compare => exact hoptional filter _
  | count filter distinctColumn shareOfBase =>
      exact (h w hw (.refl w) filter).map fun _ _ _ => congrArg (Plan.count · _ _)
  | share numerator denominator =>
      refine (h w hw (.refl w) numerator).bind fun next a b hnext hgrown hab => ?_
      rw [hab]
      exact (h next hnext hgrown denominator).map fun _ _ _ => congrArg _
  | duration filter start finish => exact hoptional filter _
  | days start finish => exact .pure hw rfl

theorem matcher_comesTo (hw : w.Sound) (hcache : w.HasCache name mode) {node : Nat} {f : Filter}
    (hf : w.dag.Stands node f) :
    ComesTo w (do return (← ready name node).matcher) (Matcher.ofFilter mode f).result
      fun _ => Eq := by
  have hmap := (ready_comesTo hw hcache hf).map (f := Ready.matcher) (g := id) (S := fun _ => Eq)
    fun _ _ _ h => h
  rwa [id_map] at hmap

theorem tileResult_comesTo (hw : w.Sound) (hcache : w.HasCache name mode) (pass : Pass)
    (subtitles : Subtitles) (windows : Windows Value) {held : Tile Nat} {t : Tile Filter}
    (ht : held.Stands w.dag t) :
    ComesTo w (tileResult pass name subtitles windows held)
      (pass.tile mode subtitles windows t).result fun _ => Eq := by
  obtain ⟨s, rfl, rfl⟩ := ht
  have hplan : SameUpTo (fun p q => ∃ r : Plan (Fin w.dag.size), r.map Fin.val = p ∧
      r.map w.dag.filterAt = q) (pass.plan (s.map Fin.val)) (pass.plan (s.map w.dag.filterAt)) := by
    rw [Pass.plan_map, Pass.plan_map]
    cases pass.plan s with
    | error e => exact .error e
    | ok r => exact .ok ⟨r, rfl, rfl⟩
  have hmatcher : ∀ after, after.Sound → w.Grows after → ∀ i : Fin w.dag.size,
      ComesTo after (do return (← ready name i).matcher)
        (Matcher.ofFilter mode (w.dag.filterAt i)).result fun _ => Eq :=
    fun after hafter hgrown i =>
      matcher_comesTo hafter (hgrown.caches _ _ hcache) (hgrown.dag.stands ⟨i, rfl, rfl⟩)
  unfold Pass.tile
  rw [Traced.result_lift_bind]
  refine (ComesTo.except hw hplan).bind fun after p q hafter hgrown hpq => ?_
  obtain ⟨r, rfl, rfl⟩ := hpq
  rw [Plan.prepare_map, Plan.prepare_map, Traced.result_bind, Plan.prepare_result]
  refine (prepare_comesTo hafter (fun last hlast hlater =>
    hmatcher last hlast (hgrown.trans hlater)) r).bind fun last p q hlast _ hpq => ?_
  rw [Pass.result_map, Pass.result_map, hpq]
  exact .lift hlast _

-- A tile is read, and its filters are added as new nodes.
def readTile (description : Value) : Work (Tile Nat) := do
  let t ← Tile.ofValue description
  t.mapFilters addFilter

-- The results of described tiles by way of a cache: all of them are read before the first is
-- measured.
def runTiles (pass : Pass) (cacheName : String) (metrics : Value) (windows : Windows Value)
    (descriptions : Value) : Work (List Value) := do
  let _ ← cacheNamed cacheName
  let subtitles ← Subtitles.ofValue metrics
  let ts ← (← descriptions.itemsOrNone).mapM readTile
  ts.mapM (tileResult pass cacheName subtitles windows)

theorem readTile_comesTo (hw : w.Sound) (description : Value) :
    ComesTo w (readTile description) (Tile.ofValue description)
      fun after held t => held.Stands after.dag t := by
  rw [← bind_pure (Tile.ofValue description)]
  exact .after hw (mapFilters_comesTo hw)

-- Each of the tiles comes to the result of the tile for which it stands.
theorem measure_comesTo (hw : w.Sound) (hcache : w.HasCache name mode) (pass : Pass)
    (subtitles : Subtitles) (windows : Windows Value) {held : List (Tile Nat)}
    {ts : List (Tile Filter)} (hts : List.Forall₂ (fun t u => t.Stands w.dag u) held ts) :
    ComesTo w (held.mapM (tileResult pass name subtitles windows))
      (pass.tiles mode subtitles windows ts).result fun _ => Eq := by
  unfold Pass.tiles
  rw [Traced.result_mapM]
  exact .mapM_eq hw hts fun after hafter hgrown t u htu => tileResult_comesTo hafter
    (hgrown.caches _ _ hcache) pass subtitles windows (hgrown.dag.tileStands htu)

theorem runTiles_comesTo (hw : w.Sound) (hcache : w.HasCache name mode) (pass : Pass)
    (metrics : Value) (windows : Windows Value) (descriptions : Value) :
    ComesTo w (runTiles pass name metrics windows descriptions)
      (pass.run mode metrics windows descriptions).result fun _ => Eq := by
  unfold Pass.run Tile.listOfValue
  simp only [Traced.result_lift_bind, bind_assoc]
  have ⟨c, hc, _⟩ := hcache
  refine .look (Work.named_look caches hc) ?_
  refine .after hw fun subtitles => .after hw fun items => ?_
  have hread : ComesTo w (items.mapM readTile) (items.mapM Tile.ofValue)
      fun after => List.Forall₂ fun held t => held.Stands after.dag t :=
    ComesTo.mapM (P := Eq) hw (List.forall₂_same.mpr fun _ _ => rfl)
      (fun hgrows ht => hgrows.dag.tileStands ht)
      fun after hafter _ d _ heq => heq ▸ readTile_comesTo hafter d
  exact hread.bind fun next held ts hnext hgrown hts =>
    measure_comesTo hnext (hgrown.caches _ _ hcache) pass subtitles windows hts

end Tiles

section Selections

variable {α : Type} {w : Workspace} {name : String} {mode : Mode} {record : α → Value}
  {rows : List α}

def applyDescribed (record : α → Value) (descriptions : List Value) (rows : List α)
    (cacheName : String) : Work (List α) := do
  let _ ← cacheNamed cacheName
  if Selection.isIdle descriptions rows then return rows
  let matchers ← descriptions.mapM fun description => do
    let node ← addFilter (← Filter.ofValue description)
    return (← ready cacheName node).matcher
  Selection.passing record matchers rows

-- Selecting by matchers that come to the same, or returning all rows where there is nothing to do.
theorem select_comesTo (hw : w.Sound) (idle : Bool) {x : Work (List Matcher)}
    {y : Traced (List Matcher)} (h : ComesTo w x y.result fun _ => Eq) :
    ComesTo w (if idle then pure rows else do Selection.passing record (← x) rows)
      (if idle then pure rows else do Selection.passing record (← y) rows : Traced _).result
      fun _ => Eq := by
  cases idle with
  | true => exact .pure hw rfl
  | false =>
      simp only [Bool.false_eq_true, if_false, Traced.result_bind]
      exact h.bind fun after ms _ hafter _ heq => heq ▸ .lift hafter _

theorem applyDescribed_comesTo (hw : w.Sound) (hcache : w.HasCache name mode)
    (descriptions : List Value) :
    ComesTo w (applyDescribed record descriptions rows name)
      (Selection.applyDescribed record mode descriptions rows).result fun _ => Eq := by
  have ⟨c, hc, _⟩ := hcache
  refine ComesTo.look (Work.named_look caches hc) (select_comesTo hw _ ?_)
  rw [Selection.readAll_result]
  refine .mapM_eq (P := Eq) hw (List.forall₂_same.mpr fun _ _ => rfl)
    fun after hafter hgrown v _ heq => heq ▸ .after hafter fun f => ?_
  rw [← ok_bind f fun f => (Matcher.ofFilter mode f).result]
  refine (addFilter_comesTo hafter f).bind fun next node g hnext hlater hstands => ?_
  exact matcher_comesTo hnext (hlater.caches _ _ (hgrown.caches _ _ hcache)) hstands

def filterUnder (w : Workspace) (name : String) : Except Fault Filter :=
  match w.filters.lookup name with
  | some node => .ok (w.dag.toFilter node)
  | none => .error .noSuchName

theorem filterUnder_eq_ok {f : Filter} (h : w.filterUnder name = .ok f) :
    ∃ node, w.filters.lookup name = some node ∧ w.dag.toFilter node = f := by
  unfold filterUnder at h
  cases hlookup : w.filters.lookup name with
  | some node =>
      rw [hlookup] at h
      exact ⟨node, rfl, Except.ok.inj h⟩
  | none =>
      rw [hlookup] at h
      cases h

-- The rows that pass nodes are those that pass the filters for which they stand.
theorem applyNodes_comesTo (hw : w.Sound) (hcache : w.HasCache name mode) {nodes : List Nat}
    {fs : List Filter} (hnodes : List.Forall₂ w.dag.Stands nodes fs) :
    ComesTo w (if Selection.isIdle nodes rows then pure rows else do
        let matchers ← nodes.mapM fun node => do return (← ready name node).matcher
        Selection.passing record matchers rows)
      (Selection.apply record mode fs rows).result fun _ => Eq := by
  have hidle : Selection.isIdle nodes rows = Selection.isIdle fs rows := by cases hnodes <;> rfl
  unfold Selection.apply
  rw [← hidle]
  refine select_comesTo hw _ ?_
  rw [Matcher.ofFilters_result]
  exact .mapM_eq hw hnodes fun after hafter hgrown node f hf =>
    matcher_comesTo hafter (hgrown.caches _ _ hcache) (hgrown.dag.stands hf)

theorem apply_comesTo (hw : w.Sound) (hcache : w.HasCache name mode) {names : List String}
    {fs : List Filter} (hnames : names.mapM w.filterUnder = .ok fs) :
    ComesTo w (apply record names rows name) (Selection.apply record mode fs rows).result
      fun _ => Eq := by
  have ⟨c, hc, _⟩ := hcache
  obtain ⟨nodes, hnodes, hstands⟩ : ∃ nodes,
      List.Forall₂ (fun n node => w.filters.lookup n = some node) names nodes ∧
      List.Forall₂ w.dag.Stands nodes fs := by
    refine exists_between ((mapM_eq_ok hnames).imp fun n f h => ?_)
    obtain ⟨node, hnode, hf⟩ := filterUnder_eq_ok h
    exact ⟨node, hnode, ⟨node, hw.filters _ (mem_of_lookup hnode)⟩, rfl, hf⟩
  exact .look (Work.mapM_look (hnodes.imp fun _ _ h => Work.named_look filters h))
    (.look (Work.named_look caches hc) (applyNodes_comesTo hw hcache hstands))

end Selections

end Workspace

end Tileboard
