import Mathlib
import Tileboard.Source.Directory
import Tileboard.Proofs.Computation
import Tileboard.Proofs.Source.Path

namespace Tileboard

namespace Directory

open Text

def kinds : List String := ["csv", "json", "xlsx"]

-- A name that ends in a point and one of the kinds, in any case, with something before the point.
def IsRecordFile (name : String) : Prop :=
  ∃ stem extension, stem ≠ [] ∧ name.toList = stem ++ '.' :: extension ∧
    ∃ kind ∈ kinds, Spells extension kind.toList

theorem plain_of_kind {kind : String} (hkind : kind ∈ kinds) : ∀ x ∈ kind.toList, x ∈ plainChars := by
  simp only [kinds, List.mem_cons, List.not_mem_nil, or_false] at hkind
  rcases hkind with rfl | rfl | rfl <;> simp [plainChars]

theorem lower_suffix_iff {name kind : String} (hkind : kind ∈ kinds) :
    lower (Path.suffixOf name) = "." ++ kind ↔ ∃ stem extension, stem ≠ [] ∧
      name.toList = stem ++ '.' :: extension ∧ Spells extension kind.toList := by
  have hplain : ∀ x ∈ ("." ++ kind).toList, x ∈ plainChars := by
    rw [Path.toList_point_append, List.forall_mem_cons]
    exact ⟨by decide, plain_of_kind hkind⟩
  have hpoint : ∀ {extension : List Char}, Spells extension kind.toList →
      extension ≠ [] ∧ '.' ∉ extension := by
    intro extension hspells
    have hword := (by decide : ∀ kind ∈ kinds, kind.toList ≠ [] ∧ '.' ∉ kind.toList) kind hkind
    rw [← hspells] at hword
    exact ⟨fun h => hword.1 (by rw [h, List.map_nil]),
      fun h => hword.2 (List.mem_map.mpr ⟨'.', h, by decide⟩)⟩
  rw [lower_eq_iff hplain, Path.toList_point_append]
  constructor
  · intro h
    obtain ⟨c, extension, hsuffix, hc, hspells⟩ := List.map_eq_cons_iff.mp h
    obtain rfl := (Path.toLower_eq_point_iff c).mp hc
    have hparts := hpoint hspells
    obtain ⟨stem, hstem, hname⟩ := (Path.suffixOf_eq_iff hparts.1 hparts.2).mp
      (by rw [← String.toList_inj, hsuffix, Path.toList_point_append, String.toList_ofList])
    exact ⟨stem, extension, hstem, hname, hspells⟩
  · rintro ⟨stem, extension, hstem, hname, hspells⟩
    have hparts := hpoint hspells
    rw [(Path.suffixOf_eq_iff hparts.1 hparts.2).mpr ⟨stem, hstem, hname⟩,
      Path.toList_point_append, String.toList_ofList]
    exact congrArg ('.' :: ·) hspells

theorem isRecordName_iff (name : String) : isRecordName name = true ↔ IsRecordFile name := by
  have hsuffixes : suffixes = kinds.map ("." ++ ·) := rfl
  rw [isRecordName, List.contains_iff_mem, hsuffixes, List.mem_map]
  constructor
  · rintro ⟨kind, hkind, h⟩
    obtain ⟨stem, extension, hstem, hname, hspells⟩ := (lower_suffix_iff hkind).mp h.symm
    exact ⟨stem, extension, hstem, hname, kind, hkind, hspells⟩
  · rintro ⟨stem, extension, hstem, hname, kind, hkind, hspells⟩
    exact ⟨kind, hkind, ((lower_suffix_iff hkind).mpr ⟨stem, extension, hstem, hname, hspells⟩).symm⟩

section Sources

variable {d : Directory} {source : String} {names : List String}

theorem locate_of_nul (hsource : '\x00' ∈ source.toList) : d.locate source = .error .nulInPath := by
  unfold locate
  rw [if_pos (by simpa using hsource)]
  rfl

theorem locate_of_outside (hsource : '\x00' ∉ source.toList)
    (h : Path.below? d.place (Path.resolve d.place (Path.ofText source)) = none) :
    d.locate source = .error (.outsideDirectory source) := by
  unfold locate
  rw [if_neg (by simpa using hsource), h]
  rfl

theorem locate_of_below (hsource : '\x00' ∉ source.toList)
    (h : Path.below? d.place (Path.resolve d.place (Path.ofText source)) = some names) :
    d.locate source = if isRecordName (lastName names) then
        if (d.file? names).isSome then .ok names else .error (.missingSource source)
      else .error (.unsupportedFile (Path.suffixOf (lastName names))) := by
  unfold locate
  rw [if_neg (by simpa using hsource), h]
  dsimp only
  generalize isRecordName (lastName names) = named
  generalize d.file? names = found
  cases named <;> cases found <;> rfl

theorem locate_eq_ok_iff (hsource : '\x00' ∉ source.toList) : d.locate source = .ok names ↔
    Path.below? d.place (Path.resolve d.place (Path.ofText source)) = some names ∧
      (d.file? names).isSome ∧ IsRecordFile (lastName names) := by
  cases hbelow : Path.below? d.place (Path.resolve d.place (Path.ofText source)) with
  | none =>
      rw [locate_of_outside hsource hbelow]
      exact iff_of_false nofun (by simp)
  | some found =>
      rw [locate_of_below hsource hbelow, ← isRecordName_iff, Option.some_inj]
      constructor
      · intro h
        split at h
        · rename_i hnamed
          split at h
          · rename_i hfile
            cases h
            exact ⟨rfl, hfile, hnamed⟩
          · cases h
        · cases h
      · rintro ⟨rfl, hfile, hnamed⟩
        rw [if_pos hnamed, if_pos hfile]

theorem locate_eq_outside_iff (hsource : '\x00' ∉ source.toList) :
    d.locate source = .error (.outsideDirectory source) ↔
      Path.below? d.place (Path.resolve d.place (Path.ofText source)) = none := by
  cases hbelow : Path.below? d.place (Path.resolve d.place (Path.ofText source)) with
  | none => exact iff_of_true (locate_of_outside hsource hbelow) rfl
  | some found =>
      rw [locate_of_below hsource hbelow]
      refine iff_of_false (fun h => ?_) nofun
      split at h
      · split at h <;> cases h
      · cases h

end Sources

-- A source leads to one place. It is given out if it is that of a record file below the directory,
-- and refused as outside if it is not below it, whatever is there.
theorem locates_record_files_below (d : Directory) (hplace : Path.Resolved d.place)
    (source : String) (hsource : '\x00' ∉ source.toList) :
    ∃ goal, Path.Resolved goal ∧
      (∀ place, Path.Leads (Path.startOf d.place source) (Path.segments source) place ↔
        place = goal) ∧
      (∀ names, d.locate source = .ok names ↔ goal = d.place ++ names ∧ names ≠ [] ∧
        (∃ content stamp, d.file? names = some (content, stamp)) ∧
          IsRecordFile (lastName names)) ∧
      (∀ names, d.locate source = .ok names → ∀ place,
        Path.Leads [] (Path.segments (Path.text ⟨"/", d.place ++ names⟩)) place ↔
          place = d.place ++ names) ∧
      (d.locate source = .error (.outsideDirectory source) ↔
        ¬ ∃ names, names ≠ [] ∧ goal = d.place ++ names) ∧
      (Fault.outsideDirectory source).kind = "ValueError" := by
  have hgoal := Path.resolved_resolve hplace source
  refine ⟨Path.resolve d.place (Path.ofText source), hgoal,
    fun place => Path.leads_resolve_iff d.place source, fun names => ?_, fun names hnames place => ?_,
    ?_, rfl⟩
  · have hfile : (∃ content stamp, d.file? names = some (content, stamp)) ↔
        (d.file? names).isSome := by
      rw [Option.isSome_iff_exists, Prod.exists]
    rw [locate_eq_ok_iff hsource, Path.below?_eq_some_iff, hfile, and_assoc]
  · have hbelow := Path.below?_eq_some_iff.mp ((locate_eq_ok_iff hsource).mp hnames).1
    rw [hbelow.1] at hgoal
    have hleads := Path.leads_text hgoal
    refine ⟨fun h => ?_, fun h => h ▸ hleads⟩
    rw [Path.leads_iff fun _ hsegment => Path.slash_notMem_segment hsegment] at h hleads
    rw [h, ← hleads]
  · rw [locate_eq_outside_iff hsource, Option.eq_none_iff_forall_not_mem, not_exists]
    refine forall_congr' fun names => not_congr ?_
    rw [Option.mem_def, Path.below?_eq_some_iff, and_comm]

-- A directory with a file in capitals, and a source that climbs out of it and back in.
def dataDirectory : Directory where
  place := ["srv", "data"]
  entries := [(["in"], .directory), (["in", "a.CSV"], .file (.text "x") 0)]

theorem detour_located : dataDirectory.locate "../data//in/./x/../a.CSV/" = .ok ["in", "a.CSV"] ∧
    dataDirectory.locate "/srv/data2/a.csv" = .error (.outsideDirectory "/srv/data2/a.csv") := by
  have hplace : Path.Resolved dataDirectory.place := by decide
  obtain ⟨goal, -, hleads, hlocate, -, -, -⟩ :=
    locates_record_files_below dataDirectory hplace "../data//in/./x/../a.CSV/" (by decide)
  obtain ⟨other, -, hleads', -, -, houtside, -⟩ :=
    locates_record_files_below dataDirectory hplace "/srv/data2/a.csv" (by decide)
  have hgoal : ["srv", "data", "in", "a.CSV"] = goal := (hleads _).mp <|
    .up <| .down (by decide) <| .stay (.inl rfl) <| .down (by decide) <| .stay (.inr rfl) <|
      .down (by decide) <| .up <| .down (by decide) <| .stay (.inl rfl) (.arrived _)
  have hother : ["srv", "data2", "a.csv"] = other := (hleads' _).mp <|
    .stay (.inl rfl) <| .down (by decide) <| .down (by decide) <| .down (by decide) (.arrived _)
  constructor
  · exact (hlocate _).mpr ⟨hgoal.symm, nofun, ⟨_, _, rfl⟩, ['a'], ['C', 'S', 'V'], nofun, rfl,
      "csv", List.mem_cons_self, by decide⟩
  · refine houtside.mpr ?_
    rintro ⟨names, -, h⟩
    rw [← hother] at h
    simp [dataDirectory] at h

end Directory

end Tileboard
