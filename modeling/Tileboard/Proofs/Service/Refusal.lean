import Mathlib
import Tileboard.Proofs.Service.Agreement
import Tileboard.Proofs.Source.Memory

namespace Tileboard

-- A load that fails leaves the memory as it is, and no note.
theorem Memory.load_of_error {m : Memory} {d : Directory} {source : String} {fault : Fault}
    (h : (m.load d source).2.result = .error fault) :
    m.load d source = (m, ⟨[], .error fault⟩) := by
  cases hlocate : d.locate source with
  | error other =>
      rw [load_of_fault hlocate] at h ⊢
      cases h
      rfl
  | ok names =>
      obtain ⟨-, content, stamp, hfile⟩ := Directory.located hlocate
      cases hit : m.remembered? ⟨d.place ++ names, stamp⟩ with
      | some records =>
          rw [load_of_hit hlocate hfile hit] at h
          cases h
      | none =>
          rw [load_of_miss hlocate hfile hit] at h ⊢
          cases htable : Directory.tableOf (Directory.lastName names) content with
          | error other =>
              rw [Directory.load_of_broken hlocate hfile htable] at h ⊢
              cases h
              rfl
          | ok table =>
              rw [Directory.load_of_table hlocate hfile htable] at h
              cases h

namespace Service

-- Where the records for a body come from, if the route takes it.
def Route.origin? (body : Value) : Route → Option Origin
  | .operators | .sources => none
  | .tiles _ => (TilesRequest.ofBody body).map (·.origin)
  | .records => (RecordsRequest.ofBody body).map (·.origin)
  | .board | .overview => (BoardRequest.ofBody body).map (·.origin)

-- The request is in order and asks for the records of a source.
structure AsksFor (source : String) (route : Route) (r : Request) : Prop where
  post : r.method = "POST"
  path : Route.ofPath? r.path = some route
  body : ∃ body, r.body = some body ∧ route.origin? body = some ⟨none, .text source⟩

def Route.refusal (wording : Fault → String) (fault : Fault) : Route → Response
  | .overview => .ofResultOrFailure wording (.error fault)
  | _ => .ofResult wording (.error fault)

section Refusals

variable {h : Host} {m : Memory} {source : String} {fault : Fault} {route : Route} {r : Request}

theorem records_of_error (hsource : source ≠ "")
    (hload : (m.load h.directory source).2.result = .error fault) :
    h.records m ⟨none, .text source⟩ = (m, ⟨[], .error fault⟩) := by
  have hempty : source.isEmpty = false :=
    Bool.eq_false_iff.mpr fun hempty => hsource (String.isEmpty_iff.mp hempty)
  unfold Host.records
  simp only [hempty, Bool.false_eq_true, if_false]
  exact Memory.load_of_error hload

theorem serve_of_error {α : Type} {body : Value} {read : Value → Option α} {origin : α → Origin}
    {work : α → List Value → Traced Value}
    {respond : (Fault → String) → Except Fault Value → Response}
    (hbody : (read body).map origin = some ⟨none, .text source⟩)
    (hrecords : h.records m ⟨none, .text source⟩ = (m, ⟨[], .error fault⟩)) :
    h.serve m (some body) read origin work respond =
      ⟨m, [], respond (h.wording (some source)) (.error fault)⟩ := by
  obtain ⟨request, hread, horigin⟩ := Option.map_eq_some_iff.mp hbody
  unfold Host.serve
  rw [Option.bind_some, hread]
  dsimp only
  rw [horigin, hrecords]
  rfl

theorem route_of_error {body : Value} (hbody : route.origin? body = some ⟨none, .text source⟩)
    (hrecords : h.records m ⟨none, .text source⟩ = (m, ⟨[], .error fault⟩)) :
    h.route m (some body) route = ⟨m, [], route.refusal (h.wording (some source)) fault⟩ := by
  cases route with
  | operators => cases hbody
  | sources => cases hbody
  | tiles pass => exact serve_of_error hbody hrecords
  | records => exact serve_of_error hbody hrecords
  | board => exact serve_of_error hbody hrecords
  | overview => exact serve_of_error hbody hrecords

theorem answer_of_error (hasks : AsksFor source route r)
    (hrecords : h.records m ⟨none, .text source⟩ = (m, ⟨[], .error fault⟩)) :
    h.answer m r = ⟨m, [], route.refusal (h.wording (some source)) fault⟩ := by
  obtain ⟨method, path, body⟩ := r
  obtain ⟨hmethod, hroute, body', hbody, horigin⟩ := hasks
  dsimp only at hmethod hroute hbody
  subst hmethod hbody
  have hpost : route.method = "POST" := by
    cases route with
    | operators => cases horigin
    | sources => cases horigin
    | _ => rfl
  rw [answer_of_route h m hroute hpost, route_of_error horigin hrecords]

-- The answers to requests one after the other: a refusal leaves all as it was for the next.
theorem answers_of_error {asked : List (Route × Request)}
    (hasks : ∀ a ∈ asked, AsksFor source a.1 a.2)
    (hrecords : h.records m ⟨none, .text source⟩ = (m, ⟨[], .error fault⟩)) :
    h.answers m (asked.map Prod.snd) =
      asked.map fun a => ⟨m, [], a.1.refusal (h.wording (some source)) fault⟩ := by
  induction asked with
  | nil => rfl
  | cons a rest ih =>
      obtain ⟨ha, hrest⟩ := List.forall_mem_cons.mp hasks
      rw [List.map_cons, Host.answers, answer_of_error ha hrecords, ih hrest, List.map_cons]

variable {wording : Fault → String}

theorem refusal_of_rejection (hreject : fault.isRejection = true) (route : Route) :
    route.refusal wording fault =
      if route = .overview then .failure wording fault else .rejection wording fault := by
  cases route <;> simp [Route.refusal, Response.ofResult, Response.ofResultOrFailure, hreject]

theorem refusal_of_failure (hreject : fault.isRejection = false) (route : Route) :
    route.refusal wording fault = .failure wording fault := by
  cases route <;> simp [Route.refusal, Response.ofResult, Response.ofResultOrFailure, hreject]

theorem body_refusal (fault : Fault) (route : Route) :
    (route.refusal wording fault).body = some (Response.account wording fault) := by
  cases hreject : fault.isRejection with
  | true =>
      rw [refusal_of_rejection hreject]
      split <;> rfl
  | false =>
      rw [refusal_of_failure hreject]
      rfl

-- Requests for the records of a source that cannot be loaded, in any number and order and over any
-- memory. Each route tells the fault by the same text and the same kind. One that lies in the
-- request is rejected, but by the overview, which fails with it; with another fault all of them
-- fail.
theorem bad_source_refused (hsource : source ≠ "")
    (hload : (m.load h.directory source).2.result = .error fault) {asked : List (Route × Request)}
    (hasks : ∀ a ∈ asked, AsksFor source a.1 a.2) :
    (∀ reply ∈ h.answers m (asked.map Prod.snd),
      reply.response.body = some (Response.account (h.wording (some source)) fault)) ∧
    (fault.isRejection = true → h.answers m (asked.map Prod.snd) = asked.map fun a =>
      ⟨m, [], if a.1 = .overview then .failure (h.wording (some source)) fault
        else .rejection (h.wording (some source)) fault⟩) ∧
    (fault.isRejection = false → h.answers m (asked.map Prod.snd) =
      asked.map fun _ => ⟨m, [], .failure (h.wording (some source)) fault⟩) := by
  rw [answers_of_error hasks (records_of_error hsource hload)]
  refine ⟨fun reply hreply => ?_, fun hreject => ?_, fun hreject => ?_⟩
  · obtain ⟨a, -, rfl⟩ := List.mem_map.mp hreply
    exact body_refusal fault a.1
  · simp only [refusal_of_rejection hreject]
  · simp only [refusal_of_failure hreject]

end Refusals

-- One request on each of the routes that take records, for the same source.
def askedOnEach (source : String) : List (Route × Request) :=
  [Route.tiles .full, .tiles .simple, .records, .board, .overview].map fun route =>
    (route, ⟨"POST", route.path, some (.object [("source", .text source)])⟩)

theorem asksFor_askedOnEach {source : String} :
    ∀ a ∈ askedOnEach source, AsksFor source a.1 a.2 := by
  intro a ha
  obtain ⟨route, hroute, rfl⟩ := List.mem_map.mp ha
  have hbody : route.origin? (.object [("source", .text source)]) = some ⟨none, .text source⟩ := by
    fin_cases hroute <;> rfl
  have hpath : Route.ofPath? route.path = some route := by
    fin_cases hroute <;> decide +kernel
  exact ⟨rfl, hpath, _, rfl, hbody⟩

-- A host with one file, in which there is no table.
def blankHost : Host :=
  ⟨⟨false, "day", none⟩, ⟨["srv"], [(["blank.csv"], .file (.text "") 1)]⟩, BarChart.inTurn,
    fun _ _ => "No columns to parse from file"⟩

theorem blank_refused :
    (∀ reply ∈ blankHost.answers .empty ((askedOnEach "blank.csv").map Prod.snd),
      reply.response.body = some (.object
        [("error", .text "No columns to parse from file"), ("type", .text "EmptyDataError")])) ∧
    blankHost.answers .empty ((askedOnEach "blank.csv").map Prod.snd) =
      (askedOnEach "blank.csv").map fun a => ⟨.empty, [],
        if a.1 = .overview then .failure (blankHost.wording (some "blank.csv")) .emptyTable
        else .rejection (blankHost.wording (some "blank.csv")) .emptyTable⟩ := by
  have hload : (Memory.empty.load blankHost.directory "blank.csv").2.result = .error .emptyTable :=
    rfl
  obtain ⟨hbody, hrejected, -⟩ := bad_source_refused (by decide) hload asksFor_askedOnEach
  exact ⟨hbody, hrejected (by decide)⟩

-- The overview fails where the other routes reject the same request.
theorem overview_not_rejected :
    (plainHost.answers .empty ((askedOnEach "absent.csv").map Prod.snd)).map
      (·.response.status) = [400, 400, 400, 400, 500] := by
  decide +kernel

end Service

end Tileboard
