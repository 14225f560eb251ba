import Mathlib
import Tileboard.Proofs.Lists
import Tileboard.Proofs.Source.Location

namespace Tileboard

namespace Directory

variable {d : Directory} {source : String} {names : List String} {content : Content} {stamp : Nat}

def put (d : Directory) (names : List String) (entry : Entry) : Directory :=
  { d with entries := (names, entry) :: d.entries.filter fun old => old.1 ≠ names }

def remove (d : Directory) (names : List String) : Directory :=
  { d with entries := d.entries.filter fun old => old.1 ≠ names }

theorem file?_eq_some_iff :
    d.file? names = some (content, stamp) ↔ d.entries.lookup names = some (.file content stamp) := by
  unfold file? find?
  split <;> simp_all

theorem file?_put {entry : Entry} {other : List String}
    (h : (d.put names entry).file? other = some (content, stamp)) :
    other = names ∧ entry = .file content stamp ∨ d.file? other = some (content, stamp) := by
  rw [file?_eq_some_iff] at h
  by_cases hother : other = names
  · subst hother
    rw [put, List.lookup_cons_self] at h
    exact .inl ⟨rfl, Option.some.inj h⟩
  · rw [put, List.lookup_cons, beq_eq_false_iff_ne.mpr hother] at h
    exact .inr (file?_eq_some_iff.mpr ((lookup_filter_ne hother).symm.trans h))

theorem file?_remove {other : List String}
    (h : (d.remove names).file? other = some (content, stamp)) :
    d.file? other = some (content, stamp) := by
  rw [file?_eq_some_iff] at h
  by_cases hother : other = names
  · subst hother
    cases (lookup_filter_self d.entries other).symm.trans h
  · exact file?_eq_some_iff.mpr ((lookup_filter_ne hother).symm.trans h)

theorem located (h : d.locate source = .ok names) :
    names ≠ [] ∧ ∃ content stamp, d.file? names = some (content, stamp) := by
  by_cases hsource : '\x00' ∈ source.toList
  · rw [locate_of_nul hsource] at h
    cases h
  · obtain ⟨hbelow, hfile, -⟩ := (locate_eq_ok_iff hsource).mp h
    rw [Option.isSome_iff_exists, Prod.exists] at hfile
    exact ⟨(Path.below?_eq_some_iff.mp hbelow).2, hfile⟩

theorem load_of_fault {fault : Fault} (h : d.locate source = .error fault) :
    d.load source = ⟨[], .error fault⟩ := by
  unfold load
  rw [h]
  rfl

theorem load_of_file (hlocate : d.locate source = .ok names)
    (hfile : d.file? names = some (content, stamp)) :
    d.load source = readRecords (lastName names) content := by
  unfold load
  rw [hlocate, Traced.ok_bind_eq rfl, hfile]
  dsimp only
  generalize readRecords (lastName names) content = answer
  rfl

theorem load_of_table (hlocate : d.locate source = .ok names)
    (hfile : d.file? names = some (content, stamp)) {table : Table Cell}
    (htable : tableOf (lastName names) content = .ok table) :
    d.load source = ⟨[.loaded table.height (lastName names)], .ok table.records⟩ := by
  rw [load_of_file hlocate hfile, readRecords, htable]
  rfl

theorem load_of_broken (hlocate : d.locate source = .ok names)
    (hfile : d.file? names = some (content, stamp)) {fault : Fault}
    (htable : tableOf (lastName names) content = .error fault) :
    d.load source = ⟨[], .error fault⟩ := by
  rw [load_of_file hlocate hfile, readRecords, htable]
  rfl

end Directory

end Tileboard
