import Mathlib
import Tileboard.Text.Trim

namespace Tileboard.Text

theorem dropEnd_append {test : Char → Bool} {cs : List Char} (h : ∀ c ∈ cs, test c = false)
    (rest : List Char) : dropEnd test (cs ++ rest) = cs ++ dropEnd test rest := by
  unfold dropEnd
  have hkeep : cs.reverse.dropWhile test = cs.reverse :=
    List.dropWhile_eq_self_iff.mpr fun hpos => by
      simpa using h _ (List.mem_reverse.mp (List.getElem_mem hpos))
  rw [List.reverse_append, List.dropWhile_append, hkeep]
  split
  · rename_i hempty
    rw [List.isEmpty_iff.mp hempty, List.reverse_reverse, List.reverse_nil, List.append_nil]
  · rw [List.reverse_append, List.reverse_reverse]

theorem trimChars_append {cs : List Char} (h : ∀ c ∈ cs, isBlank c = false) (hne : cs ≠ [])
    (rest : List Char) : trimChars (cs ++ rest) = cs ++ dropEnd isBlank rest := by
  have hstart : (cs ++ rest).dropWhile isBlank = cs ++ rest := by
    cases cs with
    | nil => exact absurd rfl hne
    | cons c cs => simp [h c List.mem_cons_self]
  rw [trimChars, hstart, dropEnd_append h]

theorem trimChars_of_ends {cs : List Char} (hhead : ∀ c ∈ cs.head?, isBlank c = false)
    (hlast : ∀ c ∈ cs.getLast?, isBlank c = false) : trimChars cs = cs := by
  have hend : ∀ {ds : List Char}, (∀ c ∈ ds.head?, isBlank c = false) →
      ds.dropWhile isBlank = ds := by
    intro ds hds
    cases ds with
    | nil => rfl
    | cons c rest => rw [List.dropWhile_cons, hds c rfl, if_neg Bool.false_ne_true]
  rw [trimChars, dropEnd, hend hhead, hend (by rwa [List.head?_reverse]), List.reverse_reverse]

theorem dropEnd_prefix (test : Char → Bool) (cs : List Char) : dropEnd test cs <+: cs := by
  unfold dropEnd
  rw [← List.reverse_suffix, List.reverse_reverse]
  exact List.dropWhile_suffix test

theorem exists_dropEnd (test : Char → Bool) (cs : List Char) :
    ∃ ending, cs = dropEnd test cs ++ ending ∧ ∀ c ∈ ending, test c = true := by
  refine ⟨(cs.reverse.takeWhile test).reverse, ?_,
    fun c hc => List.mem_takeWhile_imp (List.mem_reverse.mp hc)⟩
  rw [dropEnd, ← List.reverse_append, List.takeWhile_append_dropWhile, List.reverse_reverse]

-- What is cut off from a text are blanks before it and behind it.
theorem exists_trimmed (cs : List Char) : ∃ before after, cs = before ++ trimChars cs ++ after ∧
    (∀ c ∈ before, isBlank c = true) ∧ ∀ c ∈ after, isBlank c = true := by
  obtain ⟨after, hafter, hblanks⟩ := exists_dropEnd isBlank (cs.dropWhile isBlank)
  refine ⟨cs.takeWhile isBlank, after, ?_, fun c hc => List.mem_takeWhile_imp hc, hblanks⟩
  rw [List.append_assoc, trimChars, ← hafter, List.takeWhile_append_dropWhile]

theorem dropWhile_append_of_head {test : Char → Bool} {cs : List Char}
    (hhead : ∃ c ∈ cs.head?, test c = false) (before after : List Char) :
    (before ++ cs ++ after).dropWhile test = before.dropWhile test ++ cs ++ after := by
  obtain ⟨c, hc, htest⟩ := hhead
  cases cs with
  | nil => cases hc
  | cons d rest =>
      cases hc
      rw [List.append_assoc, List.dropWhile_append]
      split
      · rename_i hempty
        simp [List.isEmpty_iff.mp hempty, htest]
      · rw [List.append_assoc]

-- Blanks within a text stay, whatever is cut off around it.
theorem trimChars_around {cs : List Char} (hhead : ∃ c ∈ cs.head?, isBlank c = false)
    (hlast : ∃ c ∈ cs.getLast?, isBlank c = false) (before after : List Char) :
    trimChars (before ++ cs ++ after) =
      before.dropWhile isBlank ++ cs ++ dropEnd isBlank after := by
  have hfirst : ∃ c ∈ cs.reverse.head?, isBlank c = false := by rwa [List.head?_reverse]
  have hend := dropWhile_append_of_head hfirst after.reverse (before.dropWhile isBlank).reverse
  rw [trimChars, dropWhile_append_of_head hhead, dropEnd, List.reverse_append, List.reverse_append,
    ← List.append_assoc, hend, dropEnd]
  simp only [List.reverse_append, List.reverse_reverse, List.append_assoc]

theorem trimChars_ends {cs : List Char} (h : trimChars cs ≠ []) :
    (∃ c ∈ (trimChars cs).head?, isBlank c = false) ∧
      ∃ c ∈ (trimChars cs).getLast?, isBlank c = false := by
  have hstart : ∀ {ds : List Char}, ds.dropWhile isBlank ≠ [] →
      ∃ c ∈ (ds.dropWhile isBlank).head?, isBlank c = false := by
    intro ds hds
    have hfirst := List.head?_dropWhile_not isBlank ds
    cases hdrop : ds.dropWhile isBlank with
    | nil => exact absurd hdrop hds
    | cons c rest =>
        rw [hdrop] at hfirst
        exact ⟨c, rfl, hfirst⟩
  constructor
  · obtain ⟨c, hc, hblank⟩ := hstart fun hnone => h (by rw [trimChars, hnone]; rfl)
    obtain ⟨ending, hwhole⟩ := dropEnd_prefix isBlank (cs.dropWhile isBlank)
    refine ⟨c, ?_, hblank⟩
    rwa [← hwhole, ← trimChars, List.head?_append_of_ne_nil _ h] at hc
  · rw [trimChars, dropEnd, List.getLast?_reverse]
    exact hstart fun hnone => h (by rw [trimChars, dropEnd, hnone]; rfl)

theorem trimChars_clear (cs : List Char) : (∀ c ∈ (trimChars cs).head?, isBlank c = false) ∧
    ∀ c ∈ (trimChars cs).getLast?, isBlank c = false := by
  by_cases hempty : trimChars cs = []
  · simp [hempty]
  · obtain ⟨⟨c, hc, hfirst⟩, d, hd, hlast⟩ := trimChars_ends hempty
    refine ⟨fun x hx => ?_, fun x hx => ?_⟩
    · rwa [Option.mem_unique hx hc]
    · rwa [Option.mem_unique hx hd]

theorem trim_trim (s : String) : trim (trim s) = trim s := by
  obtain ⟨hhead, hlast⟩ := trimChars_clear s.toList
  rw [trim, trim, String.toList_ofList, trimChars_of_ends hhead hlast]

theorem dropWhile_append_all {test : Char → Bool} {cs : List Char} (h : ∀ c ∈ cs, test c = true)
    (rest : List Char) : (cs ++ rest).dropWhile test = rest.dropWhile test := by
  rw [List.dropWhile_append, List.dropWhile_eq_nil_iff.mpr h]
  rfl

-- Blanks around a text are cut off, however many there are, and with them those of the text itself.
theorem trimChars_among_blanks {before after : List Char}
    (hbefore : ∀ c ∈ before, isBlank c = true) (hafter : ∀ c ∈ after, isBlank c = true)
    (cs : List Char) : trimChars (before ++ cs ++ after) = trimChars cs := by
  have hend : ∀ ds : List Char, dropEnd isBlank (ds ++ after) = dropEnd isBlank ds := by
    intro ds
    rw [dropEnd, List.reverse_append,
      dropWhile_append_all (fun c hc => hafter c (List.mem_reverse.mp hc)), ← dropEnd]
  rw [trimChars, List.append_assoc, dropWhile_append_all hbefore, List.dropWhile_append]
  split
  · rename_i hempty
    -- nothing but blanks
    rw [List.dropWhile_eq_nil_iff.mpr hafter, trimChars, List.isEmpty_iff.mp hempty]
  · rw [hend, trimChars]

theorem isBlank_digitChar {d : Nat} (h : d < 10) : isBlank (Nat.digitChar d) = false := by
  have hall : ∀ d : Fin 10, isBlank (Nat.digitChar d) = false := by decide
  exact hall ⟨d, h⟩

end Tileboard.Text
