import Tileboard.Proofs.Workspace.Answers

namespace Tileboard.Workspace

open Work (Ensures)

-- What can be done in a workspace. Some of it stops with a fault, which leaves what was changed
-- before changed.
inductive Action where
  | newCache (name : String) (mode : Mode)
  | parse (name : String) (description : Value)
  | nameAgain (name existing : String)
  | hold (name whole : String) (path : List Int)
  | group (name : String) (conjunction : Bool) (parts : List String)
  | drop (name : String)
  | compile (matcher name cacheName : String)
  | compileDescription (matcher : String) (description : Value) (cacheName : String)
  | clear (cacheName : String)
  | apply (names : List String) (rows : List Value) (cacheName : String)
  | applyDescribed (descriptions rows : List Value) (cacheName : String)
  | parseTile (name : String) (description : Value)
  | dropTile (name : String)
  | tiles (pass : Pass) (cacheName : String) (metrics : Value) (windows : Windows Value)
      (names : List String)
  | runTiles (pass : Pass) (cacheName : String) (metrics : Value) (windows : Windows Value)
      (descriptions : Value)
  | board (sort : BarChart.Sorter) (pass : Pass) (cacheName : String)
      (groups : List (String × List String)) (metrics : Value) (records : List Value) (start finish : Value)

def Action.work : Action → Work Unit
  | .newCache name mode => Workspace.newCache name mode
  | .parse name description => Workspace.parse name description
  | .nameAgain name existing => Workspace.nameAgain name existing
  | .hold name whole path => do let _ ← Workspace.hold name whole path
  | .group name conjunction parts => Workspace.group name conjunction parts
  | .drop name => Workspace.drop name
  | .compile matcher name cacheName => do let _ ← Workspace.compile matcher name cacheName
  | .compileDescription matcher description cacheName =>
      Workspace.compileDescription matcher description cacheName
  | .clear cacheName => Workspace.clear cacheName
  | .apply names rows cacheName => do let _ ← Workspace.apply id names rows cacheName
  | .applyDescribed descriptions rows cacheName => do
      let _ ← Workspace.applyDescribed id descriptions rows cacheName
  | .parseTile name description => Workspace.parseTile name description
  | .dropTile name => Workspace.dropTile name
  | .tiles pass cacheName metrics windows names => do
      let _ ← tileResults pass cacheName metrics windows names
  | .runTiles pass cacheName metrics windows descriptions => do
      let _ ← Workspace.runTiles pass cacheName metrics windows descriptions
  | .board sort pass cacheName groups metrics records start finish => do
      let _ ← Workspace.board sort pass cacheName groups metrics records start finish

def act (w : Workspace) (action : Action) : Workspace := (w.perform action.work).1

def course (actions : List Action) : Workspace := actions.foldl act start

section Steps

variable {w : Workspace} {name cacheName : String}

theorem filterNamed_ensures (hw : w.Sound) :
    Ensures w (filterNamed name) fun after node => node < after.dag.size :=
  .named filters hw fun _ hnode => hw.filters _ (mem_of_lookup hnode)

theorem tileNamed_ensures (hw : w.Sound) :
    Ensures w (tileNamed name) fun after t => t.Within after.dag.size :=
  .named tiles hw fun _ ht => hw.tiles _ (mem_of_lookup ht)

theorem filtersNamed_ensures (hw : w.Sound) (names : List String) :
    Ensures w (names.mapM filterNamed) fun after nodes => ∀ node ∈ nodes, node < after.dag.size :=
  .mapM (Q := fun after node => node < after.dag.size) hw
    (fun hgrown hnode => Nat.lt_of_lt_of_le hnode hgrown.size_le)
    fun _ hafter _ _ _ => filterNamed_ensures hafter

theorem tilesNamed_ensures (hw : w.Sound) (names : List String) :
    Ensures w (names.mapM tileNamed) fun after ts => ∀ t ∈ ts, t.Within after.dag.size :=
  .mapM (Q := fun after t => Tile.Within after.dag.size t) hw
    (fun hgrown ht => ht.mono hgrown.size_le) fun _ hafter _ _ _ => tileNamed_ensures hafter

theorem cacheNamed_ensures (hw : w.Sound) :
    Ensures w (cacheNamed name) fun after c => Workbench.Sound after.dag ⟨c, after.stamp, []⟩ :=
  .named caches hw fun c hc => hw.caches (name, c) (mem_of_lookup hc)

theorem holdFilter_ensures (hw : w.Sound) {node : Nat} (hnode : node < w.dag.size) :
    Ensures w (holdFilter name node) fun _ _ => True :=
  .change (hw.putFilter name hnode) (.refl _) trivial

theorem holdMatcher_ensures (hw : w.Sound) (r : Ready) :
    Ensures w (holdMatcher name r) fun _ _ => True :=
  .change (hw.putMatcher name r) (.refl _) trivial

theorem partAt_ensures (hw : w.Sound) (parts : List Nat) (i : Int) :
    Ensures w (partAt parts i) fun _ part => part ∈ parts := by
  unfold partAt
  generalize (if i < 0 then i + (parts.length : Int) else i) = position
  by_cases hposition : position < 0
  · simp only [hposition, if_true]
    exact .fail hw _
  · simp only [hposition, if_false]
    cases hpart : parts[position.toNat]? with
    | some c => exact .pure hw (List.mem_of_getElem? hpart)
    | none => exact .fail hw _

-- Whatever is found on the way down is there, as parts come before what they are parts of.
theorem descend_ensures (path : List Int) : ∀ {w : Workspace} {node : Nat}, w.Sound →
    node < w.dag.size → Ensures w (descend node path) fun after part => part < after.dag.size := by
  induction path with
  | nil => exact fun hw hnode => .pure hw hnode
  | cons i rest ih =>
      intro w node hw hnode
      refine .look rfl ?_
      have hparts : ∀ parts, (∀ c ∈ parts, c < node) →
          Ensures w (partAt parts i >>= (descend · rest))
            fun after part => part < after.dag.size := fun parts hlt =>
        (partAt_ensures hw parts i).bind fun after part hafter hgrown hpart =>
          ih hafter (Nat.lt_of_lt_of_le (Nat.lt_trans (hlt part hpart) hnode) hgrown.size_le)
      have hordered := w.dag.ordered node hnode
      have hget : w.dag.nodes[node]? = some w.dag.nodes[node] :=
        List.getElem?_eq_getElem hnode
      rw [hget]
      cases hnodes : w.dag.nodes[node] with
      | leaf column operator operand => exact .fail hw _
      | all parts =>
          rw [hnodes] at hordered
          exact hparts parts hordered
      | any parts =>
          rw [hnodes] at hordered
          exact hparts parts hordered

theorem addFilter_ensures (hw : w.Sound) (f : Filter) :
    Ensures w (addFilter f) fun after node => node < after.dag.size :=
  (addFilter_comesTo hw f).ensures fun _ _ _ _ hstands => by
    obtain ⟨i, rfl, -⟩ := hstands
    exact i.isLt

-- Work that begins by looking for a cache does nothing where there is none.
theorem ensures_of_cache {α : Type} {f : Cache → Work α} {P : Workspace → α → Prop} (hw : w.Sound)
    (h : ∀ mode, w.HasCache cacheName mode → Ensures w (cacheNamed cacheName >>= f) P) :
    Ensures w (cacheNamed cacheName >>= f) P := by
  cases hlookup : w.caches.lookup cacheName with
  | some c => exact h c.mode ⟨c, hlookup, rfl⟩
  | none =>
      have hnamed : Ensures w (cacheNamed cacheName) fun _ _ => False :=
        .named caches hw fun c hc => by rw [hlookup] at hc; cases hc
      exact hnamed.bind fun _ _ _ _ hfalse => hfalse.elim

theorem parse_ensures (hw : w.Sound) (description : Value) :
    Ensures w (parse name description) fun _ _ => True :=
  .after hw fun f =>
    (addFilter_ensures hw f).bind fun _ _ hnext _ hnode => holdFilter_ensures hnext hnode

theorem nameAgain_ensures (hw : w.Sound) (existing : String) :
    Ensures w (nameAgain name existing) fun _ _ => True :=
  (filterNamed_ensures hw).bind fun _ _ hnext _ hnode => holdFilter_ensures hnext hnode

theorem hold_ensures (hw : w.Sound) (whole : String) (path : List Int) :
    Ensures w (hold name whole path) fun _ _ => True := by
  refine (filterNamed_ensures hw).bind fun first node hfirst _ hnode => ?_
  refine (descend_ensures path hfirst hnode).bind fun second part hsecond _ hpart => ?_
  refine (holdFilter_ensures hsecond hpart).bind fun third _ hthird _ _ => ?_
  exact .look rfl (.pure hthird trivial)

theorem group_ensures (hw : w.Sound) (conjunction : Bool) (parts : List String) :
    Ensures w (group name conjunction parts) fun _ _ => True := by
  refine (filtersNamed_ensures hw parts).bind fun next numbers hnext _ _ => ?_
  refine .look rfl ?_
  cases hgroup : next.dag.addGroup? conjunction numbers with
  | none => exact .fail hnext _
  | some placed =>
      obtain ⟨dag, number⟩ := placed
      obtain ⟨hextends, hnumber⟩ := Dag.addGroup?_eq_some hgroup
      have hchange : Ensures next (Work.change fun w => { w with dag })
          fun after _ => number < after.dag.size :=
        .change (hnext.grow hextends (Nat.le_refl _)) hextends hnumber
      exact hchange.bind fun _ _ hlast _ hpresent => holdFilter_ensures hlast hpresent

theorem drop_ensures (hw : w.Sound) : Ensures w (drop name) fun _ _ => True :=
  (filterNamed_ensures hw).bind fun _ _ hnext _ _ =>
    .change (hnext.dropFilter name) (.refl _) trivial

theorem ready_ensures (hw : w.Sound) {node : Nat} (hnode : node < w.dag.size) :
    Ensures w (ready cacheName node) fun _ _ => True :=
  ensures_of_cache hw fun _ hcache =>
    (ready_comesTo hw hcache ⟨⟨node, hnode⟩, rfl, rfl⟩).ensures fun _ _ _ _ _ => trivial

theorem compile_ensures (hw : w.Sound) (matcher : String) :
    Ensures w (compile matcher name cacheName) fun _ _ => True := by
  refine (filterNamed_ensures hw).bind fun first node hfirst _ hnode => ?_
  refine (ready_ensures hfirst hnode).bind fun second r hsecond _ _ => ?_
  refine (holdMatcher_ensures hsecond r).bind fun third _ hthird _ _ => ?_
  exact .look rfl (.pure hthird trivial)

theorem compileDescription_ensures (hw : w.Sound) (matcher : String) (description : Value) :
    Ensures w (compileDescription matcher description cacheName) fun _ _ => True := by
  refine (cacheNamed_ensures hw).bind fun first c hfirst _ _ => ?_
  refine (Ensures.lift (P := fun _ _ => True) hfirst
    (x := Matcher.ofDescription c.mode description) fun _ _ => trivial).bind
      fun second m hsecond _ _ => ?_
  refine .look rfl ?_
  obtain ⟨identity, stamp, hfinish, hle, -⟩ :=
    Workbench.finish_eq ⟨c, second.stamp, []⟩ second.dag.size m
  simp only [hfinish]
  have hchange : Ensures second (Work.change fun w => { w with stamp }) fun _ _ => True :=
    .change (hsecond.grow (.refl _) hle) (.refl _) trivial
  exact hchange.bind fun _ _ hlast _ _ => holdMatcher_ensures hlast _

theorem clear_ensures (hw : w.Sound) : Ensures w (clear cacheName) fun _ _ => True :=
  (cacheNamed_ensures hw).bind fun _ c hnext _ _ =>
    .change (hnext.putCache cacheName (empty_sound _ c.mode _)) (.refl _) trivial

theorem apply_ensures {α : Type} (hw : w.Sound) (record : α → Value) (names : List String)
    (rows : List α) : Ensures w (apply record names rows cacheName) fun _ _ => True := by
  refine (filtersNamed_ensures hw names).bind fun next nodes hnext _ hnodes => ?_
  refine ensures_of_cache hnext fun mode hcache => ?_
  have ⟨c, hc, _⟩ := hcache
  obtain ⟨fs, hfs⟩ := exists_forall₂ (R := next.dag.Stands) fun node hnode =>
    ⟨_, ⟨node, hnodes node hnode⟩, rfl, rfl⟩
  exact (Work.ComesTo.look (Work.named_look caches hc)
    (applyNodes_comesTo hnext hcache hfs)).ensures fun _ _ _ _ _ => trivial

theorem applyDescribed_ensures {α : Type} (hw : w.Sound) (record : α → Value)
    (descriptions : List Value) (rows : List α) :
    Ensures w (applyDescribed record descriptions rows cacheName) fun _ _ => True :=
  ensures_of_cache hw fun _ hcache =>
    (applyDescribed_comesTo hw hcache descriptions).ensures fun _ _ _ _ _ => trivial

theorem parseTile_ensures (hw : w.Sound) (description : Value) :
    Ensures w (parseTile name description) fun _ _ => True := by
  refine .after hw fun t => ?_
  have hheld : Ensures w (t.mapFilters addFilter) fun after held =>
      held.Within after.dag.size :=
    (mapFilters_comesTo hw t).ensures fun _ _ _ _ ⟨s, hs, _⟩ => ⟨s, hs⟩
  exact hheld.bind fun _ _ hnext _ hwithin =>
    .change (hnext.putTile name hwithin) (.refl _) trivial

theorem dropTile_ensures (hw : w.Sound) : Ensures w (dropTile name) fun _ _ => True :=
  (tileNamed_ensures hw).bind fun _ _ hnext _ _ => .change (hnext.dropTile name) (.refl _) trivial

-- Tiles of nodes that are there are measured, and the cache is there afterwards.
theorem measure_ensures {mode : Mode} (hw : w.Sound) (hcache : w.HasCache cacheName mode)
    (pass : Pass) (subtitles : Subtitles) (windows : Windows Value) {held : List (Tile Nat)}
    (hheld : ∀ t ∈ held, t.Within w.dag.size) :
    Ensures w (held.mapM (tileResult pass cacheName subtitles windows))
      fun after _ => after.HasCache cacheName mode := by
  obtain ⟨ts, hts⟩ : ∃ ts, List.Forall₂ (fun t u => t.Stands w.dag u) held ts :=
    exists_forall₂ fun t ht => (hheld t ht).imp' (·.map w.dag.filterAt) fun s hs => ⟨s, hs, rfl⟩
  exact (measure_comesTo hw hcache pass subtitles windows hts).ensures fun _ _ _ hgrown _ =>
    hgrown.caches _ _ hcache

theorem tileResults_ensures (hw : w.Sound) (pass : Pass) (metrics : Value)
    (windows : Windows Value) (names : List String) :
    Ensures w (tileResults pass cacheName metrics windows names) fun _ _ => True := by
  refine (tilesNamed_ensures hw names).bind fun first held hfirst _ hheld => ?_
  refine ensures_of_cache hfirst fun mode hcache => ?_
  have ⟨c, hc, _⟩ := hcache
  refine .look (Work.named_look caches hc) ?_
  exact .after hfirst fun subtitles =>
    (measure_ensures hfirst hcache pass subtitles windows hheld).imp fun _ _ _ => trivial

theorem runTiles_ensures (hw : w.Sound) (pass : Pass) (metrics : Value) (windows : Windows Value)
    (descriptions : Value) :
    Ensures w (runTiles pass cacheName metrics windows descriptions) fun _ _ => True :=
  ensures_of_cache hw fun _ hcache =>
    (runTiles_comesTo hw hcache pass metrics windows descriptions).ensures fun _ _ _ _ _ => trivial

theorem board_ensures (hw : w.Sound) (sort : BarChart.Sorter) (pass : Pass)
    (groups : List (String × List String)) (metrics : Value) (records : List Value) (start finish : Value) :
    Ensures w (board sort pass cacheName groups metrics records start finish) fun _ _ => True := by
  have hnamed : Ensures w
      (groups.mapM fun entry => do return (entry.1, ← entry.2.mapM tileNamed))
      fun after named => ∀ group ∈ named, ∀ t ∈ group.2, t.Within after.dag.size :=
    .mapM (Q := fun after (group : String × List (Tile Nat)) =>
        ∀ t ∈ group.2, t.Within after.dag.size) hw
      (fun hgrown hts t ht => (hts t ht).mono hgrown.size_le) fun _ hafter _ entry _ =>
        (tilesNamed_ensures hafter entry.2).bind fun _ _ hnext _ hts => .pure hnext hts
  refine hnamed.bind fun first named hfirst _ hnamed => ?_
  refine ensures_of_cache hfirst fun mode hcache => ?_
  have ⟨c, hc, _⟩ := hcache
  refine .look (Work.named_look caches hc) ?_
  refine .after hfirst fun windows => ?_
  have hprogress : Ensures first (Board.groups.foldlM (fun (p : Board.Progress) group => do
      let ts := (named.lookup group).getD []
      let subtitles ← Board.metricsOf metrics group
      let results ← ts.mapM (tileResult pass cacheName subtitles windows)
      p.add sort group results) Board.Progress.start)
        fun after _ => after.HasCache cacheName mode := by
    refine .foldlM hfirst hcache fun after p group hafter hgrown hcache => .after hafter
      fun subtitles => ?_
    have hts : ∀ t ∈ (named.lookup group).getD [], t.Within after.dag.size := by
      intro t ht
      cases hlookup : named.lookup group with
      | none => rw [hlookup] at ht; cases ht
      | some ts =>
          rw [hlookup] at ht
          exact (hnamed _ (mem_of_lookup hlookup) t ht).mono hgrown.size_le
    exact (measure_ensures hafter hcache pass subtitles windows hts).bind
      fun _ results hlast _ hcache => .lift hlast fun _ _ => hcache
  exact hprogress.bind fun _ _ hlast _ _ => .pure hlast trivial

end Steps

-- Every action keeps a workspace sound.
theorem work_ensures {w : Workspace} (hw : w.Sound) (action : Action) :
    Ensures w action.work fun _ _ => True := by
  cases action with
  | newCache name mode => exact .change (hw.putCache name (empty_sound _ mode _)) (.refl _) trivial
  | parse name description => exact parse_ensures hw description
  | nameAgain name existing => exact nameAgain_ensures hw existing
  | hold name whole path => exact (hold_ensures hw whole path).discard
  | group name conjunction parts => exact group_ensures hw conjunction parts
  | drop name => exact drop_ensures hw
  | compile matcher name cacheName => exact (compile_ensures hw matcher).discard
  | compileDescription matcher description cacheName =>
      exact compileDescription_ensures hw matcher description
  | clear cacheName => exact clear_ensures hw
  | apply names rows cacheName => exact (apply_ensures hw id names rows).discard
  | applyDescribed descriptions rows cacheName =>
      exact (applyDescribed_ensures hw id descriptions rows).discard
  | parseTile name description => exact parseTile_ensures hw description
  | dropTile name => exact dropTile_ensures hw
  | tiles pass cacheName metrics windows names =>
      exact (tileResults_ensures hw pass metrics windows names).discard
  | runTiles pass cacheName metrics windows descriptions =>
      exact (runTiles_ensures hw pass metrics windows descriptions).discard
  | board sort pass cacheName groups metrics records start finish =>
      exact (board_ensures hw sort pass groups metrics records start finish).discard

theorem act_sound {w : Workspace} (hw : w.Sound) (action : Action) : (w.act action).Sound :=
  (work_ensures hw action).sound.collect

-- Induction on the course, from whatever workspace it begins in.
theorem course_sound (actions : List Action) : (course actions).Sound := by
  have hfrom : ∀ w : Workspace, w.Sound → (actions.foldl act w).Sound := by
    induction actions with
    | nil => exact fun w hw => hw
    | cons action rest ih => exact fun w hw => ih (w.act action) (act_sound hw action)
  exact hfrom start start_sound

end Tileboard.Workspace
