import Tileboard.Board
import Tileboard.Filter.Cache

namespace Tileboard

structure Workspace where
  dag : Dag
  filters : List (String × Nat)
  tiles : List (String × Tile Nat)
  matchers : List (String × Ready)
  caches : List (String × Cache)
  stamp : Nat

-- Work in a workspace. What it changed before a fault stays changed.
def Work (α : Type) : Type := Workspace → Workspace × Traced α

namespace Work

def pure {α : Type} (a : α) : Work α := fun w => (w, return a)

def bind {α β : Type} (x : Work α) (f : α → Work β) : Work β := fun w =>
  let (after, first) := x w
  match first.result with
  | .ok a =>
      let (last, second) := f a after
      (last, ⟨first.notes ++ second.notes, second.result⟩)
  | .error fault => (after, ⟨first.notes, .error fault⟩)

instance : Monad Work where
  pure := Work.pure
  bind := Work.bind

def lift {α : Type} (x : Traced α) : Work α := fun w => (w, x)

instance : MonadLift Traced Work := ⟨lift⟩

instance : MonadLift (Except Fault) Work := ⟨fun x => lift (Traced.ofExcept x)⟩

def fail {α : Type} (fault : Fault) : Work α := lift (throw fault)

def get : Work Workspace := fun w => (w, return w)

def change (f : Workspace → Workspace) : Work Unit := fun w => (f w, return ())

def named {α : Type} (entries : List (String × α)) (name : String) : Work α :=
  match entries.lookup name with
  | some a => pure a
  | none => fail .noSuchName

end Work

namespace Workspace

def putEntry {α : Type} (entries : List (String × α)) (name : String) (a : α) :
    List (String × α) :=
  match entries with
  | [] => [(name, a)]
  | (n, b) :: rest => if n = name then (name, a) :: rest else (n, b) :: putEntry rest name a

def dropEntry {α : Type} (entries : List (String × α)) (name : String) : List (String × α) :=
  entries.filter fun entry => entry.1 ≠ name

def defaultCache : String := "c"

def start : Workspace := ⟨.empty, [], [], [], [(defaultCache, .empty .permissive)], 0⟩

def tileRoots (t : Tile Nat) : List Nat :=
  t.filter.toList ++ match t.percentage with
    | some (numerator, denominator) => [numerator, denominator]
    | none => []

def roots (w : Workspace) : List Nat :=
  w.filters.map (·.2) ++ w.tiles.flatMap fun entry => tileRoots entry.2

-- Forgets what is kept for filters that nothing holds any more.
def collect (w : Workspace) : Workspace :=
  let held := w.dag.held w.roots
  { w with caches := w.caches.map fun entry => (entry.1, entry.2.retain held) }

def sizes (w : Workspace) : List (String × Nat) :=
  w.caches.map fun entry => (entry.1, entry.2.size)

def perform {α : Type} (w : Workspace) (work : Work α) : Workspace × Traced α :=
  let (after, answer) := work w
  (after.collect, answer)

def newCache (name : String) (mode : Mode) : Work Unit :=
  Work.change fun w => { w with caches := putEntry w.caches name (.empty mode) }

def holdFilter (name : String) (node : Nat) : Work Unit :=
  Work.change fun w => { w with filters := putEntry w.filters name node }

def addFilter (f : Filter) : Work Nat := fun w =>
  let placed := w.dag.add f
  ({ w with dag := placed.dag }, return placed.number)

def parse (name : String) (description : Value) : Work Unit := do
  let f ← Filter.ofValue description
  holdFilter name (← addFilter f)

def filterNamed (name : String) : Work Nat := do
  Work.named (← Work.get).filters name

def nameAgain (name existing : String) : Work Unit := do
  holdFilter name (← filterNamed existing)

-- The part at a position; negative positions count from the end.
def partAt (parts : List Nat) (i : Int) : Work Nat :=
  let position := if i < 0 then i + parts.length else i
  match if position < 0 then none else parts[position.toNat]? with
  | some c => Work.pure c
  | none => Work.fail .noSuchPart

def descend (node : Nat) : List Int → Work Nat
  | [] => Work.pure node
  | i :: rest => do
      match (← Work.get).dag.nodes[node]? with
      | some (.all parts) | some (.any parts) => descend (← partAt parts i) rest
      | _ => Work.fail .notAGroup

def hold (name whole : String) (path : List Int) : Work Filter := do
  let node ← descend (← filterNamed whole) path
  holdFilter name node
  return (← Work.get).dag.toFilter node

def group (name : String) (conjunction : Bool) (parts : List String) : Work Unit := do
  let numbers ← parts.mapM filterNamed
  let w ← Work.get
  match w.dag.addGroup? conjunction numbers with
  | some (dag, node) =>
      Work.change fun w => { w with dag }
      holdFilter name node
  | none => Work.fail .noSuchName

def drop (name : String) : Work Unit := do
  let _ ← filterNamed name
  Work.change fun w => { w with filters := dropEntry w.filters name }

def cacheNamed (name : String) : Work Cache := do Work.named (← Work.get).caches name

def ready (cacheName : String) (node : Nat) : Work Ready := do
  let cache ← cacheNamed cacheName
  fun w =>
    let (after, answer) := Workbench.get w.dag ⟨cache, w.stamp, []⟩ node
    ({ w with caches := putEntry w.caches cacheName after.cache, stamp := after.stamp }, answer)

def sharing (w : Workspace) (name : String) (identity : Identity) : List String :=
  let others := w.matchers.filter fun entry => entry.1 ≠ name && entry.2.identity == identity
  (others.map (·.1)).mergeSort fun a b => !decide (b < a)

def holdMatcher (name : String) (r : Ready) : Work Unit :=
  Work.change fun w => { w with matchers := putEntry w.matchers name r }

def compile (matcher name cacheName : String) : Work (List String) := do
  let node ← filterNamed name
  let r ← ready cacheName node
  holdMatcher matcher r
  return (← Work.get).sharing matcher r.identity

-- Holds the matcher of a description, which no cache keeps.
def compileDescription (matcher : String) (description : Value) (cacheName : String) :
    Work Unit := do
  let cache ← cacheNamed cacheName
  let m ← Matcher.ofDescription cache.mode description
  let w ← Work.get
  let (after, r) := Workbench.finish ⟨cache, w.stamp, []⟩ w.dag.size m
  Work.change fun w => { w with stamp := after.stamp }
  holdMatcher matcher r

def matcherNamed (name : String) : Work Matcher := do
  return (← Work.named (← Work.get).matchers name).matcher

def contains (name cacheName : String) : Work Bool := do
  let node ← filterNamed name
  return (← cacheNamed cacheName).contains node

def clear (cacheName : String) : Work Unit := do
  let cache ← cacheNamed cacheName
  Work.change fun w => { w with caches := putEntry w.caches cacheName cache.clear }

def apply {α : Type} (record : α → Value) (names : List String) (rows : List α)
    (cacheName : String) : Work (List α) := do
  let nodes ← names.mapM filterNamed
  let _ ← cacheNamed cacheName
  if Selection.isIdle nodes rows then return rows
  let matchers ← nodes.mapM fun node => do return (← ready cacheName node).matcher
  Selection.passing record matchers rows

def parseTile (name : String) (description : Value) : Work Unit := do
  let t ← Tile.ofValue description
  let held ← t.mapFilters addFilter
  Work.change fun w => { w with tiles := putEntry w.tiles name held }

def tileNamed (name : String) : Work (Tile Nat) := do Work.named (← Work.get).tiles name

def dropTile (name : String) : Work Unit := do
  let _ ← tileNamed name
  Work.change fun w => { w with tiles := dropEntry w.tiles name }

def tileResult (pass : Pass) (cacheName : String) (subtitles : Subtitles)
    (windows : Windows Value) (t : Tile Nat) : Work Value := do
  let plan ← (← pass.plan t).prepare fun node => do return (← ready cacheName node).matcher
  pass.result subtitles windows t plan

def tileResults (pass : Pass) (cacheName : String) (metrics : Value) (windows : Windows Value)
    (names : List String) : Work (List Value) := do
  let ts ← names.mapM tileNamed
  let _ ← cacheNamed cacheName
  let subtitles ← Subtitles.ofValue metrics
  ts.mapM (tileResult pass cacheName subtitles windows)

def board (sort : BarChart.Sorter) (pass : Pass) (cacheName : String)
    (groups : List (String × List String)) (metrics : Value) (records : List Value)
    (start finish : Value) : Work Value := do
  let named ← groups.mapM fun entry => do return (entry.1, ← entry.2.mapM tileNamed)
  let _ ← cacheNamed cacheName
  let settings := Settings.default
  let windows ← Board.windows settings records start finish
  let progress ← Board.groups.foldlM (fun (p : Board.Progress) group => do
    let ts := (named.lookup group).getD []
    let subtitles ← Board.metricsOf metrics group
    let results ← ts.mapM (tileResult pass cacheName subtitles windows)
    p.add sort group results) Board.Progress.start
  return Board.payload settings start finish windows progress

def overview (config : Value) (records : List Value) (cacheName : String) : Work Value := do
  let cache ← cacheNamed cacheName
  Board.overview .default config records .null .null cache.size

end Workspace

end Tileboard
