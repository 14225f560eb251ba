import Mathlib
import Tileboard.Source.Path
import Tileboard.Proofs.Text.Spelling

namespace Tileboard

namespace Path

-- What stands between the slashes of a text.
def segments (s : String) : List String := (s.toList.splitOn '/').map String.ofList

-- What an entry of a directory can be called.
def IsName (name : String) : Prop :=
  name ≠ "" ∧ name ≠ "." ∧ name ≠ ".." ∧ '/' ∉ name.toList

instance (name : String) : Decidable (IsName name) :=
  inferInstanceAs (Decidable (_ ∧ _))

-- A place given by the names that lead to it from the root.
def Resolved (place : List String) : Prop := ∀ name ∈ place, IsName name

instance (place : List String) : Decidable (Resolved place) :=
  inferInstanceAs (Decidable (∀ name ∈ place, IsName name))

-- Where segments lead from a place. Empty ones and single points stay, two points go up one level
-- and stay at the root, and a name goes down.
inductive Leads : List String → List String → List String → Prop
  | arrived (place : List String) : Leads place [] place
  | stay {place rest goal : List String} {segment : String} (h : segment = "" ∨ segment = ".")
      (hrest : Leads place rest goal) : Leads place (segment :: rest) goal
  | up {place rest goal : List String} (hrest : Leads place.dropLast rest goal) :
      Leads place (".." :: rest) goal
  | down {place rest goal : List String} {name : String} (h : IsName name)
      (hrest : Leads (place ++ [name]) rest goal) : Leads place (name :: rest) goal

-- A text that starts with a slash starts at the root, any other at the directory.
def startOf (directory : List String) (s : String) : List String :=
  if s.toList.head? = some '/' then [] else directory

section Walking

variable {place segments goal : List String}

-- Induction on the text: a separator ends the piece before it.
theorem notMem_of_mem_splitOn {α : Type} [BEq α] [LawfulBEq α] {a : α} {xs piece : List α}
    (h : piece ∈ xs.splitOn a) : a ∉ piece := by
  induction xs generalizing piece with
  | nil =>
      rw [List.splitOn_nil, List.mem_singleton] at h
      subst h
      exact List.not_mem_nil
  | cons x rest ih =>
      rw [List.splitOn_cons_eq_if_modifyHead] at h
      by_cases hx : (x == a) = true
      · rw [if_pos hx] at h
        rcases List.mem_cons.mp h with rfl | h
        · exact List.not_mem_nil
        · exact ih h
      · rw [if_neg hx] at h
        have hne : a ≠ x := fun heq => hx (beq_iff_eq.mpr heq.symm)
        cases hrest : rest.splitOn a with
        | nil => exact absurd hrest (List.splitOn_ne_nil a rest)
        | cons first others =>
            rw [hrest, List.modifyHead_cons] at h
            rw [hrest] at ih
            rcases List.mem_cons.mp h with rfl | h
            · exact List.not_mem_cons_of_ne_of_not_mem hne (ih List.mem_cons_self)
            · exact ih (List.mem_cons_of_mem _ h)

theorem slash_notMem_segment {s segment : String} (h : segment ∈ Path.segments s) :
    '/' ∉ segment.toList := by
  obtain ⟨cs, hcs, rfl⟩ := List.mem_map.mp h
  rw [String.toList_ofList]
  exact notMem_of_mem_splitOn hcs

def kept (segments : List String) : List String :=
  segments.filter fun name => name ≠ "" && name ≠ "."

theorem kept_cons_stay {segment : String} (h : segment = "" ∨ segment = ".")
    (rest : List String) : kept (segment :: rest) = kept rest := by
  rw [kept, List.filter_cons_of_neg]
  · rfl
  · rcases h with rfl | rfl <;> simp

theorem kept_cons_keep {segment : String} (h : segment ≠ "" ∧ segment ≠ ".")
    (rest : List String) : kept (segment :: rest) = segment :: kept rest := by
  rw [kept, List.filter_cons_of_pos (by simpa using h)]
  rfl

-- The place walked to, from the root downwards. The names above are kept in reverse on the way.
theorem leads_iff (hsegments : ∀ segment ∈ segments, '/' ∉ segment.toList) :
    Leads place segments goal ↔ goal = (walk place.reverse (kept segments)).reverse := by
  induction segments generalizing place with
  | nil =>
      constructor
      · rintro ⟨⟩
        exact (List.reverse_reverse _).symm
      · intro h
        rw [kept, List.filter_nil, walk, List.foldl_nil, List.reverse_reverse] at h
        exact h ▸ .arrived _
  | cons segment rest ih =>
      rw [List.forall_mem_cons] at hsegments
      by_cases hstay : segment = "" ∨ segment = "."
      · have hno : segment ≠ ".." := by rcases hstay with rfl | rfl <;> decide
        rw [kept_cons_stay hstay, ← ih hsegments.2]
        constructor
        · rintro (⟨⟩ | ⟨-, h⟩ | ⟨-⟩ | ⟨hname, -⟩)
          · exact h
          · exact absurd rfl hno
          · exact absurd hstay (not_or.mpr ⟨hname.1, hname.2.1⟩)
        · exact .stay hstay
      · rw [not_or] at hstay
        rw [kept_cons_keep hstay, walk, List.foldl_cons]
        by_cases hup : segment = ".."
        · subst hup
          rw [if_pos rfl, List.tail_reverse]
          rw [← walk, ← ih hsegments.2]
          constructor
          · rintro (⟨⟩ | ⟨h, -⟩ | ⟨h⟩ | ⟨hname, -⟩)
            · exact absurd h (by decide)
            · exact h
            · exact absurd rfl hname.2.2.1
          · exact .up
        · have hname : IsName segment := ⟨hstay.1, hstay.2, hup, hsegments.1⟩
          rw [if_neg hup, ← List.reverse_concat, ← walk, ← ih hsegments.2]
          constructor
          · rintro (⟨⟩ | ⟨h, -⟩ | ⟨-⟩ | ⟨-, h⟩)
            · exact absurd h (not_or.mpr hstay)
            · exact absurd rfl hup
            · exact h
          · exact .down hname

theorem isAbsolute_iff (s : String) :
    (ofText s).isAbsolute = true ↔ s.toList.head? = some '/' := by
  change (!(rootOf s.toList).isEmpty) = true ↔ _
  unfold rootOf
  cases s.toList with
  | nil => decide
  | cons c rest =>
      by_cases hc : c = '/'
      · subst hc
        refine iff_of_true ?_ rfl
        rw [List.takeWhile_cons_of_pos (by simp), List.length_cons]
        split
        · omega
        · rfl
        · rfl
      · rw [List.takeWhile_cons_of_neg (by simpa using hc)]
        exact iff_of_false (by decide) fun h => hc (Option.some.inj h)

-- A text leads to one place, the one that it resolves to.
theorem leads_resolve_iff (directory : List String) (s : String) :
    Leads (startOf directory s) (Path.segments s) goal ↔ goal = resolve directory (ofText s) := by
  have hstart : (startOf directory s).reverse =
      if (ofText s).isAbsolute then [] else directory.reverse := by
    unfold startOf
    by_cases h : s.toList.head? = some '/'
    · rw [if_pos h, if_pos ((isAbsolute_iff s).mpr h), List.reverse_nil]
    · rw [if_neg h, if_neg (mt (isAbsolute_iff s).mp h)]
  have hnames : (ofText s).names = kept (Path.segments s) := rfl
  rw [leads_iff fun _ h => slash_notMem_segment h, hstart, ← hnames]
  rfl

theorem Leads.resolved (h : Leads place segments goal) (hplace : Resolved place) :
    Resolved goal := by
  induction h with
  | arrived => exact hplace
  | stay _ _ ih => exact ih hplace
  | up _ ih => exact ih fun name hname => hplace name (List.mem_of_mem_dropLast hname)
  | down hname _ ih =>
      refine ih fun name hmem => ?_
      rcases List.mem_append.mp hmem with hmem | hmem
      · exact hplace name hmem
      · rw [List.mem_singleton.mp hmem]
        exact hname

theorem resolved_resolve {directory : List String} (h : Resolved directory) (s : String) :
    Resolved (resolve directory (ofText s)) := by
  have hstart : Resolved (startOf directory s) := by
    unfold startOf
    split
    · exact fun _ hname => absurd hname List.not_mem_nil
    · exact h
  exact ((leads_resolve_iff directory s).mpr rfl).resolved hstart

theorem leads_down {names : List String} (h : Resolved names) (place : List String) :
    Leads place names (place ++ names) := by
  induction names generalizing place with
  | nil => exact (List.append_nil place).symm ▸ .arrived place
  | cons name rest ih =>
      rw [Resolved, List.forall_mem_cons] at h
      have hrest := ih h.2 (place ++ [name])
      rw [List.append_assoc, List.singleton_append] at hrest
      exact .down h.1 hrest

-- The text of a resolved place leads to it from the root.
theorem leads_text (h : Resolved place) : Leads [] (Path.segments (text ⟨"/", place⟩)) place := by
  have htext : (text ⟨"/", place⟩).toList = '/' :: ['/'].intercalate (place.map String.toList) := by
    change ("/" ++ "/".intercalate place).toList = _
    rw [String.toList_append, String.toList_intercalate]
    rfl
  rw [Path.segments, htext, List.splitOn_cons_eq_if_modifyHead, if_pos (by rfl), List.map_cons]
  refine .stay (.inl rfl) ?_
  by_cases hplace : place = []
  · subst hplace
    exact .stay (.inl rfl) (.arrived [])
  · rw [List.splitOn_intercalate '/' _ (by simpa using hplace), List.map_map]
    · have hid : place.map (String.ofList ∘ String.toList) = place := by simp
      rw [hid]
      exact leads_down h []
    · intro cs hcs
      obtain ⟨name, hname, rfl⟩ := List.mem_map.mp hcs
      exact (h name hname).2.2.2

end Walking

-- Below a directory is what has more names.
theorem below?_eq_some_iff {directory place names : List String} :
    below? directory place = some names ↔ place = directory ++ names ∧ names ≠ [] := by
  unfold below?
  by_cases hprefix : directory <+: place
  · obtain ⟨rest, rfl⟩ := hprefix
    rw [if_pos (by simp), List.drop_left, List.append_cancel_left_eq]
    cases rest with
    | nil => exact iff_of_false (by simp) fun h => h.2 h.1.symm
    | cons name rest =>
        constructor
        · intro h
          cases h
          exact ⟨rfl, List.cons_ne_nil _ _⟩
        · rintro ⟨rfl, -⟩
          rfl
  · rw [if_neg (by simpa using hprefix)]
    exact iff_of_false (by simp) fun h => hprefix ⟨names, h.1.symm⟩

section Suffixes

open Text

theorem no_point_of_reverse {cs : List Char} (h : '.' ∉ cs) :
    ∀ c ∈ cs.reverse, decide (c ≠ '.') = true := by
  intro c hc
  rw [decide_eq_true_eq]
  rintro rfl
  exact h (List.mem_reverse.mp hc)

-- A name divided at its last point.
theorem suffixOf_divided {name : String} {stem extension : List Char}
    (hname : name.toList = stem ++ '.' :: extension) (hpoint : '.' ∉ extension) :
    suffixOf name =
      if extension.isEmpty || stem.isEmpty then "" else "." ++ String.ofList extension := by
  have hreverse : name.toList.reverse = extension.reverse ++ '.' :: stem.reverse := by simp [hname]
  have hpass := no_point_of_reverse hpoint
  unfold suffixOf
  dsimp only
  rw [hreverse, List.takeWhile_append_of_pos hpass, List.dropWhile_append_of_pos hpass]
  simp

theorem suffixOf_undivided {name : String} (h : '.' ∉ name.toList) : suffixOf name = "" := by
  unfold suffixOf
  dsimp only
  rw [List.dropWhile_eq_nil_iff.mpr (no_point_of_reverse h)]
  simp

theorem toList_point_append (s : String) : ("." ++ s).toList = '.' :: s.toList := by
  rw [String.toList_append]
  rfl

-- The suffix of a name is what stands behind its last point and before nothing else.
theorem suffixOf_eq_iff {name : String} {extension : List Char} (hsome : extension ≠ [])
    (hpoint : '.' ∉ extension) : suffixOf name = "." ++ String.ofList extension ↔
      ∃ stem, stem ≠ [] ∧ name.toList = stem ++ '.' :: extension := by
  have hne : "." ++ String.ofList extension ≠ "" := fun h => by
    have := congrArg String.toList h
    simp at this
  constructor
  · intro h
    by_cases hmem : '.' ∈ name.toList
    · obtain ⟨after, before, hreverse, hlast⟩ :=
        List.eq_append_cons_of_mem (List.mem_reverse.mpr hmem)
      have hname : name.toList = before.reverse ++ '.' :: after.reverse := by
        rw [← List.reverse_reverse name.toList, hreverse]
        simp
      rw [suffixOf_divided hname (fun hmem => hlast (List.mem_reverse.mp hmem))] at h
      split at h
      · exact absurd h.symm hne
      · rename_i hparts
        have hafter : after.reverse = extension := by
          have := congrArg String.toList h
          simpa using this
        rw [hafter] at hname hparts
        refine ⟨before.reverse, fun hnil => hparts ?_, hname⟩
        rw [hnil]
        exact Bool.or_true _
    · rw [suffixOf_undivided hmem] at h
      exact absurd h.symm hne
  · rintro ⟨stem, hstem, hname⟩
    rw [suffixOf_divided hname hpoint, if_neg (by simp [hsome, hstem])]

theorem toLower_eq_point_iff (c : Char) : c.toLower = '.' ↔ c = '.' := by
  rcases Nat.lt_or_ge c.toNat 128 with hascii | hbeyond
  · have hall : ∀ n < 128, (Char.ofNat n).toLower = '.' ↔ Char.ofNat n = '.' := by decide +kernel
    have hc := hall c.toNat hascii
    rwa [Char.ofNat_toNat] at hc
  · rw [toLower_of_beyond_ascii hbeyond]

end Suffixes

end Path

end Tileboard
