import Mathlib
import Tileboard.Source.Memory
import Tileboard.Proofs.Computation
import Tileboard.Proofs.Source.Directory

namespace Tileboard

namespace Memory

open Directory

variable {d : Directory} {source : String} {names : List String} {content : Content} {stamp : Nat}
  {m : Memory} {past : List Directory} {used : List Signature}

-- The signatures that are remembered of those used, the last one first.
def recent (used : List Signature) : List Signature := used.eraseDups.take capacity

theorem recent_cons (s : Signature) (used : List Signature) :
    recent (s :: used) = (s :: (recent used).filter (· ≠ s)).take capacity := by
  have hfilter : used.filter (fun t => !t == s) = used.filter (· ≠ s) :=
    List.filter_congr fun t _ => by rw [Bool.eq_iff_iff]; simp
  rw [recent, List.eraseDups_cons, hfilter, eraseDups_filter]
  change (s :: _).take (7 + 1) = (s :: List.filter _ (List.take (7 + 1) _)).take (7 + 1)
  rw [List.take_succ_cons, List.take_succ_cons, take_filter_of_nodup (nodup_eraseDups used)]

theorem use_signatures (m : Memory) (s : Signature) (records : List Value) :
    (m.use s records).entries.map Prod.fst =
      (s :: (m.entries.map Prod.fst).filter (· ≠ s)).take capacity := by
  rw [use, List.map_take, List.map_cons, without, List.filter_map]
  rfl

-- The signature of the file that a load reads, if it reads one.
def signature? (d : Directory) (source : String) : Option Signature :=
  match d.locate source, (d.load source).result with
  | .ok names, .ok _ => (d.file? names).map fun file => ⟨d.place ++ names, file.2⟩
  | _, _ => none

-- What is done with the directory and the memory: something is created or changed, something is
-- deleted, the records of a source are asked for.
inductive Event where
  | put (names : List String) (entry : Entry)
  | remove (names : List String)
  | load (source : String)

namespace Event

def change (d : Directory) : Event → Directory
  | .put names entry => d.put names entry
  | .remove names => d.remove names
  | .load _ => d

-- A file is put with no stamp that the path had before, except with the content of then.
def Stamps (past : List Directory) : Event → Prop
  | .put names (.file content stamp) =>
      ∀ d ∈ past, ∀ old, d.file? names = some (old, stamp) → old = content
  | _ => True

def uses (d : Directory) : Event → List Signature
  | .load source => (signature? d source).toList
  | _ => []

end Event

-- Whether the stamps tell the contents apart in a course of events. The past has the directory as
-- it was before.
def Stamped (past : List Directory) (d : Directory) : List Event → Prop
  | [] => True
  | event :: rest => event.Stamps (d :: past) ∧ Stamped (d :: past) (event.change d) rest

def step (state : Memory × Directory) : Event → Memory × Directory
  | .load source => ((state.1.load state.2 source).1, state.2)
  | event => (state.1, event.change state.2)

def run (state : Memory × Directory) (events : List Event) : Memory × Directory :=
  events.foldl step state

def usedIn (d : Directory) : List Event → List Signature
  | [] => []
  | event :: rest => event.uses d ++ usedIn (event.change d) rest

-- Directories at one place in which a path with one stamp has one content.
structure Kept (place : List String) (past : List Directory) : Prop where
  place : ∀ d ∈ past, d.place = place
  content : ∀ d ∈ past, ∀ d' ∈ past, ∀ names content content' stamp,
    d.file? names = some (content, stamp) → d'.file? names = some (content', stamp) →
      content = content'

theorem place_change (d : Directory) (event : Event) : (event.change d).place = d.place := by
  cases event <;> rfl

theorem Kept.change {place : List String} (h : Kept place (d :: past)) {event : Event}
    (hstamps : event.Stamps (d :: past)) : Kept place (event.change d :: d :: past) := by
  have hplace := h.place d List.mem_cons_self
  -- A file of the changed directory has the content that its path had with this stamp.
  have hnew : ∀ names content stamp, (event.change d).file? names = some (content, stamp) →
      ∀ d' ∈ d :: past, ∀ old, d'.file? names = some (old, stamp) → old = content := by
    intro names content stamp hfile d' hd' old hold
    have hsame : d.file? names = some (content, stamp) → old = content := fun hbefore =>
      h.content d' hd' d List.mem_cons_self names _ _ stamp hold hbefore
    cases event with
    | put changed entry =>
        rcases file?_put hfile with ⟨rfl, rfl⟩ | hbefore
        · exact hstamps d' hd' old hold
        · exact hsame hbefore
    | remove removed => exact hsame (file?_remove hfile)
    | load source => exact hsame hfile
  refine ⟨List.forall_mem_cons.mpr ⟨(place_change d event).trans hplace, h.place⟩, ?_⟩
  intro d₁ hd₁ d₂ hd₂ names content content' stamp h₁ h₂
  rcases List.mem_cons.mp hd₁ with rfl | hd₁ <;> rcases List.mem_cons.mp hd₂ with rfl | hd₂
  · rw [h₁] at h₂
    cases h₂
    rfl
  · exact (hnew names content stamp h₁ d₂ hd₂ content' h₂).symm
  · exact hnew names content' stamp h₂ d₁ hd₁ content h₁
  · exact h.content d₁ hd₁ d₂ hd₂ names content content' stamp h₁ h₂

-- The memory has the signatures used last, each with the records of a file that had it.
structure Remembers (past : List Directory) (used : List Signature) (m : Memory) : Prop where
  signatures : m.entries.map Prod.fst = recent used
  records : ∀ entry ∈ m.entries, ∃ d ∈ past, ∃ names content table,
    entry.1.place = d.place ++ names ∧ d.file? names = some (content, entry.1.stamp) ∧
      tableOf (lastName names) content = .ok table ∧ entry.2 = table.records

theorem load_of_fault {fault : Fault} (h : d.locate source = .error fault) :
    m.load d source = (m, ⟨[], .error fault⟩) := by
  unfold load
  rw [h]
  rfl

theorem load_of_hit {records : List Value} (hlocate : d.locate source = .ok names)
    (hfile : d.file? names = some (content, stamp))
    (hit : m.remembered? ⟨d.place ++ names, stamp⟩ = some records) :
    m.load d source = (m.use ⟨d.place ++ names, stamp⟩ records, ⟨[], .ok records⟩) := by
  unfold load
  rw [hlocate]
  dsimp only
  rw [hfile]
  dsimp only
  rw [hit]
  rfl

theorem load_of_miss (hlocate : d.locate source = .ok names)
    (hfile : d.file? names = some (content, stamp))
    (hmiss : m.remembered? ⟨d.place ++ names, stamp⟩ = none) :
    m.load d source =
      ((d.load source).result.toOption.elim m (m.use ⟨d.place ++ names, stamp⟩),
        d.load source) := by
  unfold load
  rw [hlocate]
  dsimp only
  rw [hfile]
  dsimp only
  rw [hmiss]
  dsimp only
  cases (d.load source).result <;> rfl

section Loads

variable {place : List String}

theorem signature?_of_error {fault : Fault} (h : (d.load source).result = .error fault) :
    signature? d source = none := by
  unfold signature?
  rw [h]
  cases d.locate source <;> rfl

theorem signature?_of_ok (hlocate : d.locate source = .ok names)
    (hfile : d.file? names = some (content, stamp)) {records : List Value}
    (h : (d.load source).result = .ok records) :
    signature? d source = some ⟨d.place ++ names, stamp⟩ := by
  unfold signature?
  rw [hlocate, h]
  exact congrArg (Option.map _) hfile

namespace Remembers

theorem remembered?_isSome_iff (h : Remembers past used m) (s : Signature) :
    (∃ records, m.remembered? s = some records) ↔ s ∈ recent used := by
  rw [← h.signatures]
  constructor
  · rintro ⟨records, hit⟩
    exact List.mem_map.mpr ⟨_, mem_of_lookup hit, rfl⟩
  · exact exists_lookup_of_mem

theorem hit (h : Remembers past used m) (hkept : Kept place past) (hd : d ∈ past)
    (hfile : d.file? names = some (content, stamp)) {records : List Value}
    (hit : m.remembered? ⟨d.place ++ names, stamp⟩ = some records) :
    ∃ table, tableOf (lastName names) content = .ok table ∧ records = table.records := by
  obtain ⟨d', hd', names', content', table, hplace, hfile', htable, hrecords⟩ :=
    h.records _ (mem_of_lookup hit)
  rw [hkept.place d hd, hkept.place d' hd'] at hplace
  obtain rfl := List.append_cancel_left hplace
  obtain rfl := hkept.content d hd d' hd' _ _ _ _ hfile hfile'
  exact ⟨table, htable, hrecords⟩

-- A load that fails afresh leaves the memory as it is; one that succeeds gives the records that the
-- file has, uses its signature and leaves a note only if it was not remembered.
theorem load_cases (h : Remembers past used m) (hkept : Kept place past) (hd : d ∈ past)
    (source : String) :
    (∃ fault, (d.load source).result = .error fault ∧ signature? d source = none ∧
      m.load d source = (m, ⟨[], .error fault⟩)) ∨
    ∃ names content stamp table, d.locate source = .ok names ∧
      d.file? names = some (content, stamp) ∧ tableOf (lastName names) content = .ok table ∧
      (d.load source).result = .ok table.records ∧
      signature? d source = some ⟨d.place ++ names, stamp⟩ ∧
      m.load d source = (m.use ⟨d.place ++ names, stamp⟩ table.records,
        ⟨if ⟨d.place ++ names, stamp⟩ ∈ recent used then []
          else [.loaded table.height (lastName names)], .ok table.records⟩) := by
  cases hlocate : d.locate source with
  | error fault =>
      have hread : (d.load source).result = .error fault := by rw [Directory.load_of_fault hlocate]
      exact .inl ⟨fault, hread, signature?_of_error hread, load_of_fault hlocate⟩
  | ok names =>
      obtain ⟨-, content, stamp, hfile⟩ := located hlocate
      have hmem := h.remembered?_isSome_iff ⟨d.place ++ names, stamp⟩
      cases hit : m.remembered? ⟨d.place ++ names, stamp⟩ with
      | some records =>
          obtain ⟨table, htable, rfl⟩ := h.hit hkept hd hfile hit
          have hread : (d.load source).result = .ok table.records := by
            rw [load_of_table hlocate hfile htable]
          refine .inr ⟨names, content, stamp, table, rfl, hfile, htable, hread,
            signature?_of_ok hlocate hfile hread, ?_⟩
          rw [load_of_hit hlocate hfile hit, if_pos (hmem.mp ⟨_, hit⟩)]
      | none =>
          have hnot : ⟨d.place ++ names, stamp⟩ ∉ recent used := fun hrecent => by
            obtain ⟨records, hrecords⟩ := hmem.mpr hrecent
            rw [hit] at hrecords
            cases hrecords
          cases htable : tableOf (lastName names) content with
          | error fault =>
              have hload := load_of_broken hlocate hfile htable
              have hread : (d.load source).result = .error fault := by rw [hload]
              refine .inl ⟨fault, hread, signature?_of_error hread, ?_⟩
              rw [load_of_miss hlocate hfile hit, hload]
              rfl
          | ok table =>
              have hload := load_of_table hlocate hfile htable
              have hread : (d.load source).result = .ok table.records := by rw [hload]
              refine .inr ⟨names, content, stamp, table, rfl, hfile, htable, hread,
                signature?_of_ok hlocate hfile hread, ?_⟩
              rw [load_of_miss hlocate hfile hit, hload, if_neg hnot]
              rfl

theorem load (h : Remembers past used m) (hkept : Kept place past) (hd : d ∈ past)
    (source : String) :
    Remembers past ((signature? d source).toList ++ used) (m.load d source).1 := by
  rcases h.load_cases hkept hd source with ⟨fault, -, hsignature, hload⟩ |
    ⟨names, content, stamp, table, -, hfile, htable, -, hsignature, hload⟩
  · rw [hsignature, hload]
    exact h
  · rw [hsignature, hload]
    refine ⟨?_, fun entry hentry => ?_⟩
    · rw [use_signatures, h.signatures]
      exact (recent_cons _ _).symm
    · rcases List.mem_cons.mp (List.mem_of_mem_take hentry) with rfl | hentry
      · exact ⟨d, hd, names, content, table, rfl, hfile, htable, rfl⟩
      · exact h.records entry (List.mem_of_mem_filter hentry)

theorem later (h : Remembers past used m) (d : Directory) : Remembers (d :: past) used m where
  signatures := h.signatures
  records entry hentry := by
    obtain ⟨d', hd', hfound⟩ := h.records entry hentry
    exact ⟨d', List.mem_cons_of_mem _ hd', hfound⟩

end Remembers

-- What one event keeps.
theorem step_remembers (event : Event) (h : Remembers (d :: past) used m)
    (hkept : Kept place (d :: past)) : ∃ m', step (m, d) event = (m', event.change d) ∧
      Remembers (event.change d :: d :: past) (event.uses d ++ used) m' := by
  cases event with
  | put names entry => exact ⟨m, rfl, h.later _⟩
  | remove names => exact ⟨m, rfl, h.later _⟩
  | load source => exact ⟨_, rfl, (h.load hkept List.mem_cons_self source).later _⟩

-- What a course of events keeps, by induction on the events.
theorem run_remembers {events : List Event} (h : Remembers (d :: past) used m)
    (hkept : Kept place (d :: past)) (hstamped : Stamped past d events) :
    ∃ m' now past', run (m, d) events = (m', now) ∧ Kept place (now :: past') ∧
      Remembers (now :: past') ((usedIn d events).reverse ++ used) m' := by
  induction events generalizing d past used m with
  | nil => exact ⟨m, d, past, rfl, hkept, h⟩
  | cons event rest ih =>
      obtain ⟨hstamps, hrest⟩ := hstamped
      obtain ⟨m₁, hstep, h₁⟩ := step_remembers event h hkept
      obtain ⟨m', now, past', hrun, hkept', h'⟩ := ih h₁ (hkept.change hstamps) hrest
      refine ⟨m', now, past', ?_, hkept', ?_⟩
      · rw [run, List.foldl_cons, hstep]
        exact hrun
      · have huses : (event.uses d).reverse = event.uses d := by
          cases event with
          | load source => cases h : signature? d source <;> simp [Event.uses, h]
          | put | remove => rfl
        rw [usedIn, List.reverse_append, huses, List.append_assoc]
        exact h'

end Loads

-- After any course of events in which stamps tell contents apart, a load answers what the file
-- holds, notes that it read a file just if its signature is not remembered, and the signatures
-- remembered are those used last. A load that fails leaves the memory as it is.
theorem load_reads_present (d : Directory) (events : List Event) (hstamped : Stamped [] d events)
    (source : String) : ∃ m now, run (empty, d) events = (m, now) ∧
      m.entries.map Prod.fst = recent (usedIn d events).reverse ∧
      (m.load now source).2.result = (now.load source).result ∧
      (∀ records, (now.load source).result = .ok records → ∃ names content stamp table,
        now.locate source = .ok names ∧ now.file? names = some (content, stamp) ∧
        tableOf (lastName names) content = .ok table ∧ records = table.records ∧
        (m.load now source).2.notes =
          if ⟨now.place ++ names, stamp⟩ ∈ recent (usedIn d events).reverse then []
          else [.loaded table.height (lastName names)]) ∧
      ∀ fault, (now.load source).result = .error fault →
        (m.load now source).2.notes = [] ∧ (m.load now source).1 = m := by
  have hkept : Kept d.place [d] := by
    refine ⟨by simp, ?_⟩
    intro d₁ hd₁ d₂ hd₂ names content content' stamp h₁ h₂
    rw [List.mem_singleton.mp hd₁] at h₁
    rw [List.mem_singleton.mp hd₂, h₁] at h₂
    cases h₂
    rfl
  have hempty : Remembers [d] [] empty := ⟨rfl, fun _ hentry => absurd hentry List.not_mem_nil⟩
  obtain ⟨m, now, past, hrun, hkept, h⟩ := run_remembers hempty hkept hstamped
  rw [List.append_nil] at h
  refine ⟨m, now, hrun, h.signatures, ?_⟩
  rcases h.load_cases hkept List.mem_cons_self source with ⟨fault, hread, -, hload⟩ |
    ⟨names, content, stamp, table, hlocate, hfile, htable, hread, -, hload⟩
  · rw [hload, hread]
    exact ⟨rfl, nofun, fun _ _ => ⟨rfl, rfl⟩⟩
  · rw [hload, hread]
    refine ⟨rfl, fun records hrecords => ?_, nofun⟩
    cases hrecords
    exact ⟨names, content, stamp, table, hlocate, hfile, htable, rfl, rfl⟩

-- A memory and a directory after some course of events from an empty memory, in which stamps tell
-- contents apart.
def Reached (m : Memory) (d : Directory) : Prop :=
  ∃ start events, Stamped [] start events ∧ run (empty, start) events = (m, d)

theorem kept_start (d : Directory) : Kept d.place [d] := by
  refine ⟨fun d' hd' => by rw [List.mem_singleton.mp hd'], ?_⟩
  intro d₁ hd₁ d₂ hd₂ names content content' stamp h₁ h₂
  rw [List.mem_singleton.mp hd₁] at h₁
  rw [List.mem_singleton.mp hd₂, h₁] at h₂
  cases h₂
  rfl

theorem reached_start (d : Directory) : Reached empty d := ⟨d, [], trivial, rfl⟩

-- A load from such a memory comes to what a load without it comes to.
theorem Reached.load_result (h : Reached m d) (source : String) :
    (m.load d source).2.result = (d.load source).result := by
  obtain ⟨start, events, hstamped, hrun⟩ := h
  have hempty : Remembers [start] [] empty :=
    ⟨rfl, fun _ hentry => absurd hentry List.not_mem_nil⟩
  obtain ⟨m', now, past', hrun', hkept, hremembers⟩ :=
    run_remembers hempty (kept_start start) hstamped
  cases hrun.symm.trans hrun'
  rcases hremembers.load_cases hkept List.mem_cons_self source with ⟨fault, hread, -, hload⟩ |
    ⟨_, _, _, _, -, -, -, hread, -, hload⟩
  · rw [hload, hread]
  · rw [hload, hread]

def tally : Directory where
  place := ["srv"]
  entries := [(["a.csv"], .file (.text "k\n1\n") 0), (["b.json"], .directory)]

-- A file is read, a directory is no file, the file is changed and read again, and under another
-- spelling once more.
def tallied : List Event :=
  [.load "a.csv", .load "b.json", .put ["a.csv"] (.file (.text "k\n2\n") 1), .load "./a.csv",
    .remove ["b.json"]]

theorem tallied_reads_present : ∃ m now, run (empty, tally) tallied = (m, now) ∧
    m.entries.map Prod.fst = [⟨["srv", "a.csv"], 1⟩, ⟨["srv", "a.csv"], 0⟩] ∧
    (m.load now "b/../a.csv").2.result = (now.load "b/../a.csv").result ∧
    (m.load now "b/../a.csv").2.notes = [] := by
  have hstamped : Stamped [] tally tallied := by
    refine ⟨trivial, trivial, fun d hd old hold => ?_, trivial, trivial, trivial⟩
    have hd : d = tally := by simpa [Event.change] using hd
    rw [hd] at hold
    cases hold
  obtain ⟨m, now, hrun, hsignatures, hresult, hread, -⟩ :=
    load_reads_present tally tallied hstamped "b/../a.csv"
  have hrecent : recent (usedIn tally tallied).reverse =
      [⟨["srv", "a.csv"], 1⟩, ⟨["srv", "a.csv"], 0⟩] := by decide +kernel
  have hnow : now = ⟨["srv"], [(["a.csv"], .file (.text "k\n2\n") 1)]⟩ :=
    (congrArg Prod.snd hrun).symm
  rw [hrecent] at hsignatures hread
  refine ⟨m, now, hrun, hsignatures, hresult, ?_⟩
  obtain ⟨records, hrecords⟩ := eq_ok_of_isOk (x := (now.load "b/../a.csv").result) (by
    rw [hnow]
    decide +kernel)
  obtain ⟨names, content, stamp, table, hlocate, hfile, -, -, hnotes⟩ := hread records hrecords
  rw [hnow] at hlocate hfile
  have hnames : Directory.locate ⟨["srv"], [(["a.csv"], .file (.text "k\n2\n") 1)]⟩ "b/../a.csv" =
      .ok ["a.csv"] := by rfl
  cases hlocate.symm.trans hnames
  cases hfile
  rw [hnotes, hnow]
  rfl

end Memory

end Tileboard
