import Tileboard.Board
import Tileboard.Filter.DrillDown
import Tileboard.Service.Request
import Tileboard.Service.Response
import Tileboard.Source.Memory

namespace Tileboard.Service

-- The settings of a service and the directory of its record sources, and what is left to libraries:
-- the order of equal bars, and what they say of a fault, in a source or met with its records.
structure Host where
  settings : Settings
  directory : Directory
  sort : BarChart.Sorter
  wording : Option String → Fault → String

namespace Host

def mode (h : Host) : Mode := .ofStrict h.settings.strict

def records (h : Host) (m : Memory) (origin : Origin) : Memory × Traced (List Value) :=
  match origin.records, origin.source with
  | some rows, _ => (m, return rows)
  | none, .text source => if source.isEmpty then (m, return []) else m.load h.directory source
  | none, _ => (m, return [])

-- What is said of the faults of a request, once its records have been asked for.
def wordingFor (h : Host) (origin : Origin) (rows : Traced (List Value)) : Fault → String :=
  match rows.result, origin.source with
  | .error _, .text source => h.wording (some source)
  | _, _ => h.wording none

def tiles (h : Host) (pass : Pass) (r : TilesRequest) (rows : List Value) : Traced Value := do
  let windows ← Board.windows h.settings rows r.range.start r.range.finish
  let results ← pass.run h.mode (.list r.metrics) windows (.list r.tiles)
  return .object [("windows", windows.counts), ("tiles", .list results)]

def filters (h : Host) (r : RecordsRequest) : Except Fault (List Filter) := do
  let listed ← Filter.ofValues r.filters
  if r.click.holds then
    let clicked ← DrillDown.filters r.click (.text h.settings.dateColumn) r.range.start
      r.range.finish r.useRange
    return listed ++ clicked
  else return listed

def filtered (h : Host) (r : RecordsRequest) (rows : List Value) : Traced Value := do
  let filters ← h.filters r
  let kept ← Selection.apply id h.mode filters rows
  return .object [("total", .int kept.length), ("records", .list (kept.take r.limit.toNat))]

def board (h : Host) (r : BoardRequest) (rows : List Value) : Traced Value :=
  Board.compute h.sort .full h.settings r.config r.metrics rows r.range.start r.range.finish

-- No filters are kept from one request to the next.
def overview (h : Host) (r : BoardRequest) (rows : List Value) : Traced Value :=
  return ← Board.overview h.settings r.config rows r.range.start r.range.finish 0

def operators : Value :=
  .object [("operators", .list (Operator.all.map fun o => .text o.name)),
    ("groups", .list (Filter.groupNames.map .text))]

def sources (h : Host) : Value := .object [("sources", .list (h.directory.sources.map .text))]

end Host

inductive Route where
  | operators
  | sources
  | tiles (pass : Pass)
  | records
  | board
  | overview
  deriving DecidableEq

namespace Route

def path : Route → String
  | .operators => "/meta/operators"
  | .sources => "/meta/sources"
  | .tiles .full => "/tiles"
  | .tiles .simple => "/tiles/simple"
  | .records => "/records/filter"
  | .board => "/dashboard"
  | .overview => "/debug"

def all : List Route :=
  [.operators, .sources, .tiles .full, .tiles .simple, .records, .board, .overview]

def method : Route → String
  | .operators | .sources => "GET"
  | _ => "POST"

-- A query does not count, nor do slashes at the end.
def normalPath (path : String) : String :=
  let cs := path.toList.takeWhile fun c => c ≠ '?' && c ≠ '#'
  String.ofList ((cs.reverse.dropWhile (· = '/')).reverse)

def ofPath? (path : String) : Option Route := all.find? fun r => r.path == normalPath path

end Route

structure Reply where
  memory : Memory
  notes : List Note
  response : Response

namespace Host

def immediate (m : Memory) (response : Response) : Reply := ⟨m, [], response⟩

def serve {α : Type} (h : Host) (m : Memory) (body : Option Value) (read : Value → Option α)
    (origin : α → Origin) (work : α → List Value → Traced Value)
    (respond : (Fault → String) → Except Fault Value → Response) : Reply :=
  match body.bind read with
  | none => immediate m .invalid
  | some request =>
      let (memory, rows) := h.records m (origin request)
      let answer := rows.bind (work request)
      ⟨memory, answer.notes, respond (h.wordingFor (origin request) rows) answer.result⟩

def route (h : Host) (m : Memory) (body : Option Value) : Route → Reply
  | .operators => immediate m (.ok operators)
  | .sources => immediate m (.ok h.sources)
  | .tiles pass => h.serve m body TilesRequest.ofBody (·.origin) (h.tiles pass) .ofResult
  | .records => h.serve m body RecordsRequest.ofBody (·.origin) h.filtered .ofResult
  | .board => h.serve m body BoardRequest.ofBody (·.origin) h.board .ofResult
  | .overview => h.serve m body BoardRequest.ofBody (·.origin) h.overview .ofResultOrFailure

-- A path without a route is not found, a route has one method, and only then the
-- body is looked at.
def answer (h : Host) (m : Memory) (r : Request) : Reply :=
  match Route.ofPath? r.path with
  | none => immediate m .notFound
  | some route =>
      if r.method = route.method then h.route m r.body route else immediate m .wrongMethod

def answers (h : Host) (m : Memory) : List Request → List Reply
  | [] => []
  | r :: rest =>
      let reply := h.answer m r
      reply :: h.answers reply.memory rest

end Host

end Tileboard.Service
