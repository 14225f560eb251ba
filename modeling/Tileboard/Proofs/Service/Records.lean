import Tileboard.Proofs.Filter.Conjunction
import Tileboard.Proofs.Service.Agreement
import Tileboard.Proofs.Service.Sending
import Tileboard.Proofs.Source.Memory

namespace Tileboard

-- A test of a column by an order. Without an order, or without a record, the answer is false.
theorem Selection.passes_compare (mode : Mode) (name : String) (comparison : Comparison)
    (operand row : Value) :
    passes id mode (.leaf (.text name) (some (.compare comparison)) operand) row =
      (Value.compare? comparison (row.field name) operand).getD false := by
  have hmade : (Matcher.ofFilter mode (.leaf (.text name)
      (some (.compare comparison)) operand)).result =
      .ok (.compare (.text name) comparison operand) := rfl
  rw [passes, hmade]
  cases row with
  | object fields => exact Traced.isTrue_of_ok (Matcher.accepts_compare comparison operand rfl)
  | _ =>
      have hnone : Value.compare? comparison .null operand = none := by simp [Value.compare?]
      change false = (Value.compare? comparison .null operand).getD false
      rw [hnone]
      rfl

namespace Service

namespace Field

variable {α : Type} {body other : Value} {names : List String} {default : α}
  {read : Value → Option α}

theorem orElse_agree (h : ∀ name ∈ names, body.field? name = other.field? name) :
    orElse body names default read = orElse other names default read := by
  have hfind : find? body names = find? other names := findSome?_congr h
  rw [orElse, orElse, hfind]

theorem optionalObject_cases {v click : Value} (h : optionalObject v = some click) :
    click = .null ∨ ∃ fields, click = .object fields := by
  cases v with
  | null => exact .inl (Option.some.inj h).symm
  | object fields => exact .inr ⟨fields, (Option.some.inj h).symm⟩
  | _ => cases h

end Field

namespace RecordsRequest

-- A body that can be read, field by field.
structure Reads (body : Value) (r : RecordsRequest) : Prop where
  origin : Origin.ofBody body = some r.origin
  filters : objectsAt body ["filters"] = some r.filters
  click : Field.orElse body ["clickFilter", "click_filter"] .null Field.optionalObject =
    some r.click
  range : rangeOf body = some r.range
  useRange : Field.orElse body ["useRange", "use_range"] true Field.switch = some r.useRange
  limit : Field.orElse body ["limit"] defaultLimit Field.whole = some r.limit

theorem reads_of_body {body : Value} {r : RecordsRequest} (h : ofBody body = some r) :
    Reads body r := by
  unfold ofBody at h
  cases hbody : Field.isObject body with
  | false =>
      rw [hbody] at h
      cases h
  | true =>
      rw [hbody] at h
      obtain ⟨origin, horigin, h⟩ := Option.bind_eq_some_iff.mp h
      obtain ⟨filters, hfilters, h⟩ := Option.bind_eq_some_iff.mp h
      obtain ⟨click, hclick, h⟩ := Option.bind_eq_some_iff.mp h
      obtain ⟨range, hrange, h⟩ := Option.bind_eq_some_iff.mp h
      obtain ⟨useRange, huseRange, h⟩ := Option.bind_eq_some_iff.mp h
      obtain ⟨limit, hlimit, h⟩ := Option.bind_eq_some_iff.mp h
      cases h
      exact ⟨horigin, hfilters, hclick, hrange, huseRange, hlimit⟩

theorem Reads.click_cases {body : Value} {r : RecordsRequest} (h : Reads body r) :
    r.click = .null ∨ ∃ fields, r.click = .object fields := by
  have hclick := h.click
  unfold Field.orElse at hclick
  split at hclick
  · exact Field.optionalObject_cases hclick
  · exact .inl (Option.some.inj hclick).symm

theorem Reads.origin_records {body : Value} {r : RecordsRequest} {rows : List Value}
    (h : Reads body r) (hrecords : body.field? "records" = some (.list rows)) :
    r.origin.records = some rows := by
  have horigin := h.origin
  have hfind : Field.find? body ["records"] = some (.list rows) := by
    rw [Field.find?, List.findSome?_singleton, hrecords]
  unfold Origin.ofBody at horigin
  obtain ⟨records, hread, horigin⟩ := Option.bind_eq_some_iff.mp horigin
  obtain ⟨source, -, horigin⟩ := Option.bind_eq_some_iff.mp horigin
  rw [Field.orElse, hfind] at hread
  obtain ⟨others, hothers, hsome⟩ := Option.map_eq_some_iff.mp hread
  rw [← Option.some.inj horigin, ← hsome, Field.objects_list hothers]

-- Bodies with the same fields but for the limit are read alike but for the limit.
theorem Reads.same {body other : Value} {r r' : RecordsRequest} (h : Reads body r)
    (h' : Reads other r') (hsame : ∀ name, name ≠ "limit" → body.field? name = other.field? name) :
    r' = { r with limit := r'.limit } := by
  have hnot : ∀ {names : List String}, "limit" ∉ names →
      ∀ name ∈ names, body.field? name = other.field? name := fun hlimit name hname =>
    hsame name (by rintro rfl; exact hlimit hname)
  obtain ⟨horigin, hrange⟩ := ofBody_congr (hnot (by decide))
  have hfilters : objectsAt body ["filters"] = objectsAt other ["filters"] :=
    Field.orElse_agree (hnot (by decide))
  have hclick : Field.orElse body ["clickFilter", "click_filter"] .null Field.optionalObject =
      Field.orElse other ["clickFilter", "click_filter"] .null Field.optionalObject :=
    Field.orElse_agree (hnot (by decide))
  have huseRange : Field.orElse body ["useRange", "use_range"] true Field.switch =
      Field.orElse other ["useRange", "use_range"] true Field.switch :=
    Field.orElse_agree (hnot (by decide))
  obtain ⟨origin, filters, click, range, useRange, limit⟩ := r
  obtain ⟨origin', filters', click', range', useRange', limit'⟩ := r'
  cases h.origin.symm.trans (horigin.trans h'.origin)
  cases h.filters.symm.trans (hfilters.trans h'.filters)
  cases h.click.symm.trans (hclick.trans h'.click)
  cases h.range.symm.trans (hrange.trans h'.range)
  cases h.useRange.symm.trans (huseRange.trans h'.useRange)
  rfl

def satisfies (mode : Mode) (description row : Value) : Bool :=
  match Filter.ofValue description with
  | .ok f => Selection.passes id mode f row
  | .error _ => false

-- Whether the date of a record lies in a range with both ends.
def within (dateColumn : String) (range : Range) (row : Value) : Bool :=
  (Value.compare? .greaterOrEqual (row.field dateColumn) range.start).getD false &&
    (Value.compare? .lessOrEqual (row.field dateColumn) range.finish).getD false

-- What a request asks of a record: that it passes each filter and, where something was clicked, the
-- filter of this and the range, if the range is wanted and has both ends.
def wants (h : Host) (r : RecordsRequest) (row : Value) : Bool :=
  r.filters.all (satisfies h.mode · row) &&
    match r.click with
    | .object (field :: rest) =>
        satisfies h.mode (.object (field :: rest)) row &&
          (!(r.useRange && r.range.start.holds && r.range.finish.holds) ||
            within h.settings.dateColumn r.range row)
    | _ => true

end RecordsRequest

section Selecting

variable {h : Host} {r : RecordsRequest} {rows : List Value}

theorem all_satisfies {mode : Mode} {descriptions : List Value} {fs : List Filter}
    (hread : Filter.ofValues descriptions = .ok fs) (row : Value) :
    (fs.all fun f => Selection.passes id mode f row) =
      descriptions.all (RecordsRequest.satisfies mode · row) := by
  rw [Filter.ofValues_eq_mapM] at hread
  have hall := mapM_eq_ok hread
  clear hread
  induction hall with
  | nil => rfl
  | cons hf _ ih => rw [List.all_cons, List.all_cons, RecordsRequest.satisfies, hf, ih]

theorem all_clicked {field : String × Value} {rest : List (String × Value)} {clicked : List Filter}
    (hclicked : DrillDown.filters (.object (field :: rest)) (.text h.settings.dateColumn)
      r.range.start r.range.finish r.useRange = .ok clicked) (row : Value) :
    (clicked.all fun f => Selection.passes id h.mode f row) =
      (RecordsRequest.satisfies h.mode (.object (field :: rest)) row &&
        (!(r.useRange && r.range.start.holds && r.range.finish.holds) ||
          RecordsRequest.within h.settings.dateColumn r.range row)) := by
  obtain ⟨own, hown, hclicked⟩ := bind_eq_ok_iff.mp hclicked
  rw [RecordsRequest.satisfies, hown]
  cases hrange : r.useRange && r.range.start.holds && r.range.finish.holds with
  | false =>
      rw [hrange] at hclicked
      cases hclicked
      simp only [List.all_cons, List.all_nil, Bool.not_false, Bool.true_or]
  | true =>
      rw [hrange] at hclicked
      cases hclicked
      simp only [List.all_cons, List.all_nil, Selection.passes_compare, RecordsRequest.within,
        Bool.and_true, Bool.not_true, Bool.false_or]
      rw [← Bool.and_assoc, Bool.and_comm]

theorem all_wants (hclick : r.click = .null ∨ ∃ fields, r.click = .object fields)
    {fs : List Filter} (hfs : h.filters r = .ok fs) (row : Value) :
    (fs.all fun f => Selection.passes id h.mode f row) = r.wants h row := by
  obtain ⟨listed, hlisted, hfs⟩ := bind_eq_ok_iff.mp hfs
  have hall : (listed.all fun f => Selection.passes id h.mode f row) =
      r.filters.all (RecordsRequest.satisfies h.mode · row) := all_satisfies hlisted row
  unfold RecordsRequest.wants
  rcases hclick with hclick | ⟨_ | ⟨field, rest⟩, hclick⟩
  · rw [hclick] at hfs ⊢
    cases hfs
    rw [hall, Bool.and_true]
  · rw [hclick] at hfs ⊢
    cases hfs
    rw [hall, Bool.and_true]
  · rw [hclick] at hfs ⊢
    obtain ⟨clicked, hclicked, hfs⟩ := bind_eq_ok_iff.mp hfs
    cases hfs
    rw [List.all_append, hall, all_clicked hclicked]

def paged (kept : List Value) (limit : Int) : List Value :=
  kept.take (min kept.length (max 0 limit).toNat)

theorem take_toNat_eq_paged (kept : List Value) (limit : Int) :
    kept.take limit.toNat = paged kept limit := by
  have hlimit : (max 0 limit).toNat = limit.toNat := by omega
  rw [paged, hlimit, List.take_eq_take_iff]
  omega

theorem paged_initial {kept : List Value} {limit limit' : Int} (hle : limit ≤ limit') :
    paged kept limit <+: paged kept limit' := by
  refine List.take_prefix_take_left ?_
  omega

theorem filtered_eq_ok {v : Value}
    (hclick : r.click = .null ∨ ∃ fields, r.click = .object fields)
    (hv : (h.filtered r rows).result = .ok v) :
    v = .object [("total", .int (rows.filter (r.wants h)).length),
      ("records", .list (paged (rows.filter (r.wants h)) r.limit))] := by
  obtain ⟨fs, hfs, hv⟩ := Traced.lift_bind_eq_ok_iff.mp hv
  obtain ⟨kept, hkept, hv⟩ := Traced.bind_result_eq_ok_iff.mp hv
  cases hv
  have hwants : kept = rows.filter (r.wants h) := by
    rw [Selection.apply_eq_ok hkept]
    exact List.filter_congr fun row _ => all_wants hclick hfs row
  rw [take_toNat_eq_paged, hwants]

end Selecting

-- The records that a request is about: those it carries, or those that its source holds now.
def Host.present (h : Host) (origin : Origin) : Except Fault (List Value) :=
  match origin.records, origin.source with
  | some rows, _ => .ok rows
  | none, .text source => if source.isEmpty then .ok [] else (h.directory.load source).result
  | none, _ => .ok []

theorem records_result {h : Host} {m : Memory} (hm : m.Reached h.directory) (origin : Origin) :
    (h.records m origin).2.result = h.present origin := by
  obtain ⟨_ | rows, source⟩ := origin
  · cases source with
    | text s =>
        change (if s.isEmpty then (m, (return [])) else m.load h.directory s).2.result =
          if s.isEmpty then .ok [] else (h.directory.load s).result
        split
        · rfl
        · exact hm.load_result s
    | _ => rfl
  · rfl

def page (kept : List Value) (limit : Int) : Value :=
  .object [("total", .int kept.length), ("records", .list ((paged kept limit).map Response.sent))]

theorem sent_page (total : Int) (records : List Value) :
    Response.sent (.object [("total", .int total), ("records", .list records)]) =
      .object [("total", .int total), ("records", .list (records.map Response.sent))] := by
  have htotal : "total".startsWith Response.hiddenMark = false := by decide +kernel
  have hrecords : "records".startsWith Response.hiddenMark = false := by decide +kernel
  rw [← Response.sentItems_eq_map]
  simp only [Response.sent, Response.sentFields, htotal, hrecords, Bool.false_eq_true, if_false]
  rfl

-- What is answered to a request for records, if it is understood and nothing fails.
theorem answered {h : Host} {m : Memory} {request : Request}
    (hroute : Route.ofPath? request.path = some .records)
    (hstatus : (h.answer m request).response.status = 200) :
    ∃ body r rows, request.body = some body ∧ RecordsRequest.Reads body r ∧
      RecordsRequest.ofBody body = some r ∧ (h.records m r.origin).2.result = .ok rows ∧
      (h.answer m request).response.body = some (page (rows.filter (r.wants h)) r.limit) := by
  obtain ⟨method, path, body⟩ := request
  unfold Host.answer at hstatus ⊢
  dsimp only at hroute hstatus ⊢
  rw [hroute] at hstatus ⊢
  dsimp only at hstatus ⊢
  by_cases hmethod : method = Route.records.method
  · rw [if_pos hmethod, Host.route] at hstatus ⊢
    cases body with
    | none => cases hstatus
    | some body =>
        cases hread : RecordsRequest.ofBody body with
        | none =>
            rw [response_of_unread h m _ _ _ hread] at hstatus
            cases hstatus
        | some r =>
            have hreads := RecordsRequest.reads_of_body hread
            rw [response_of_read h m _ _ _ hread] at hstatus ⊢
            obtain ⟨v, hv⟩ := Response.status_ofResult_iff.mp hstatus
            obtain ⟨rows, hrows, hfiltered⟩ := Traced.bind_result_eq_ok_iff.mp hv
            refine ⟨body, r, rows, rfl, hreads, hread, hrows, ?_⟩
            rw [hv, filtered_eq_ok hreads.click_cases hfiltered]
            exact congrArg some (sent_page _ _)
  · rw [if_neg hmethod] at hstatus
    cases hstatus

-- The total is the number of the records that the request wants, and the list has the first of them
-- up to the limit. Of two requests that are the same but for the limit both have the same total,
-- and the records of the one with the smaller limit come first in the other.
theorem records_counted_and_paged {h : Host} {m : Memory} (hm : m.Reached h.directory)
    {request : Request} (hroute : Route.ofPath? request.path = some .records)
    (hstatus : (h.answer m request).response.status = 200) :
    ∃ body r rows, request.body = some body ∧ RecordsRequest.ofBody body = some r ∧
      h.present r.origin = .ok rows ∧
      (h.answer m request).response.body = some (page (rows.filter (r.wants h)) r.limit) ∧
      ∀ m' request' other, Memory.Reached m' h.directory →
        Route.ofPath? request'.path = some .records → request'.body = some other →
        (∀ name, name ≠ "limit" → body.field? name = other.field? name) →
        (h.answer m' request').response.status = 200 →
        ∃ limit, RecordsRequest.ofBody other = some { r with limit := limit } ∧
          (h.answer m' request').response.body = some (page (rows.filter (r.wants h)) limit) ∧
          (r.limit ≤ limit → (paged (rows.filter (r.wants h)) r.limit).map Response.sent <+:
            (paged (rows.filter (r.wants h)) limit).map Response.sent) := by
  obtain ⟨body, r, rows, hbody, hreads, hread, hrows, hanswer⟩ := answered hroute hstatus
  rw [records_result hm] at hrows
  refine ⟨body, r, rows, hbody, hread, hrows, hanswer, ?_⟩
  intro m' request' other hm' hroute' hother hsame hstatus'
  obtain ⟨body', r', rows', hbody', hreads', hread', hrows', hanswer'⟩ := answered hroute' hstatus'
  cases hother.symm.trans hbody'
  rw [records_result hm'] at hrows'
  have hr' := hreads.same hreads' hsame
  rw [hr'] at hread' hrows' hanswer'
  cases hrows.symm.trans hrows'
  exact ⟨r'.limit, hread', hanswer', fun hle => (paged_initial hle).map Response.sent⟩

def stop (day site : String) : Value := .object [("day", .text day), ("site", .text site)]

-- The stops at one site in a range of days.
def stops : List Value :=
  [stop "2024-01-31" "north", stop "2024-01-20" "south", stop "2024-02-01" "north",
    stop "2024-01-05" "north"]

def northernBody (limit : Int) : Value :=
  .object [("records", .list stops),
    ("filters", .list [.object [("column", .text "site"), ("equals", .text "north")]]),
    ("clickFilter", .object [("column", .text "day"), ("isNotNull", .bool true)]),
    ("range", .object [("from", .text "2024-01-01"), ("to", .text "2024-01-31")]),
    ("limit", .int limit)]

def northern (limit : Int) : Request := ⟨"POST", "/records/filter", some (northernBody limit)⟩

theorem northern_counted_and_paged :
    (plainHost.answer .empty (northern 1)).response.body =
      some (page [stop "2024-01-31" "north", stop "2024-01-05" "north"] 1) ∧
    (plainHost.answer .empty (northern 5)).response.body =
      some (page [stop "2024-01-31" "north", stop "2024-01-05" "north"] 5) ∧
    (paged [stop "2024-01-31" "north", stop "2024-01-05" "north"] 1).map Response.sent <+:
      (paged [stop "2024-01-31" "north", stop "2024-01-05" "north"] 5).map Response.sent := by
  have hroute : Route.ofPath? (northern 1).path = some .records := by decide +kernel
  have hstatus : (plainHost.answer .empty (northern 1)).response.status = 200 := by decide +kernel
  have hstatus' : (plainHost.answer .empty (northern 5)).response.status = 200 := by decide +kernel
  have hreached : Memory.Reached .empty plainHost.directory := Memory.reached_start _
  obtain ⟨body, r, rows, hbody, hread, hrows, hanswer, hother⟩ :=
    records_counted_and_paged hreached hroute hstatus
  cases hbody
  cases hread
  cases hrows
  have hsame : ∀ name, name ≠ "limit" →
      (northernBody 1).field? name = (northernBody 5).field? name := by
    intro name hname
    simp [northernBody, Value.field?, List.lookup_cons, beq_false_of_ne hname]
  obtain ⟨limit, hread', hanswer', hprefix⟩ :=
    hother .empty (northern 5) _ hreached hroute rfl hsame hstatus'
  cases hread'
  exact ⟨hanswer, hanswer', hprefix (by decide)⟩

-- Of records that come with a request, those wanted are answered without their hidden fields and
-- with null in place of NaN and the infinities, and else verbatim. So a record is answered verbatim
-- just if nothing in it is hidden.
theorem filtered_records_sent {h : Host} {m : Memory} {request : Request} {body : Value}
    {rows : List Value} (hroute : Route.ofPath? request.path = some .records)
    (hbody : request.body = some body) (hrecords : body.field? "records" = some (.list rows))
    (hstatus : (h.answer m request).response.status = 200) :
    ∃ r total answers, RecordsRequest.ofBody body = some r ∧
      (h.answer m request).response.body =
        some (.object [("total", total), ("records", .list answers)]) ∧
      List.Forall₂ (fun record answer =>
          Response.Verbatim (Response.shown record) answer ∧
          (Response.Verbatim record answer ↔ Response.isOpen record = true))
        (paged (rows.filter (r.wants h)) r.limit) answers := by
  obtain ⟨body', r, rows', hbody', hreads, hread, hrows, hanswer⟩ := answered hroute hstatus
  cases hbody.symm.trans hbody'
  have hgiven : r.origin.records = some rows := hreads.origin_records hrecords
  rw [Host.records, hgiven] at hrows
  cases hrows
  refine ⟨r, _, _, hread, hanswer, ?_⟩
  rw [List.forall₂_map_right_iff]
  exact List.forall₂_same.mpr fun record _ =>
    ⟨Response.shown_verbatim_sent record, Response.sent_verbatim_iff⟩

def echoing (records : List Value) : Request :=
  ⟨"POST", "/records/filter", some (.object [("records", .list records)])⟩

def peak : Value :=
  .object [("site", .text "north"),
    ("load", .object [("peak", .real (.infinite false)), ("at", .list [.null, .int 3])])]

theorem peak_sent : ∃ total answer,
    (plainHost.answer .empty (echoing [peak])).response.body =
      some (.object [("total", total), ("records", .list [answer])]) ∧
    Response.Verbatim peak answer := by
  have hroute : Route.ofPath? (echoing [peak]).path = some .records := by decide +kernel
  have hstatus : (plainHost.answer .empty (echoing [peak])).response.status = 200 := by
    decide +kernel
  obtain ⟨r, total, answers, hread, hanswer, hall⟩ :=
    filtered_records_sent hroute rfl rfl hstatus
  cases hread
  obtain _ | ⟨hpeak, ⟨⟩⟩ := hall
  exact ⟨total, _, hanswer, hpeak.2.mpr (by decide +kernel)⟩

-- The name of a column can begin like that of a hidden field. It is then lost.
def sale : Value := .object [("_sales", .int 5), ("site", .text "north")]

theorem sale_not_verbatim :
    (plainHost.answer .empty (echoing [sale])).response.status = 200 ∧
    (plainHost.answer .empty (echoing [sale])).response.body =
      some (.object [("total", .int 1), ("records", .list [.object [("site", .text "north")]])]) ∧
    ¬ Response.Verbatim sale (.object [("site", .text "north")]) := by
  have hroute : Route.ofPath? (echoing [sale]).path = some .records := by decide +kernel
  have hstatus : (plainHost.answer .empty (echoing [sale])).response.status = 200 := by
    decide +kernel
  have hsales : "_sales".startsWith Response.hiddenMark = true := by decide +kernel
  have hsite : "site".startsWith Response.hiddenMark = false := by decide +kernel
  have hsent : Response.sent sale = .object [("site", .text "north")] := by
    simp only [sale, Response.sent, Response.sentFields, hsales, hsite, if_true, Bool.false_eq_true,
      if_false]
  refine ⟨hstatus, ?_, fun h => ?_⟩
  · obtain ⟨body, r, rows, hbody, -, hread, hrows, hanswer⟩ := answered hroute hstatus
    cases hbody
    cases hread
    cases hrows
    rw [hanswer, ← hsent]
    rfl
  · cases h with
    | object hnames hvalues => exact absurd hnames (by decide)

end Service
end Tileboard
