import Mathlib
import Tileboard.Proofs.Lists
import Tileboard.Proofs.Measure.Settled
import Tileboard.Proofs.Measure.Trend
import Tileboard.Proofs.Number.Bounded

namespace Tileboard

namespace Change

open Binary64 (within_ofQuotient within_hundredths)

variable {n k : Nat}

-- A count of at most a million millions is at most so many times the one before, or as much less.
theorem percentOf_counts (hk : 0 < (k : Int)) (hn : n ≤ 10 ^ 12) :
    ∃ delta negative, percentOf (.int n) (.int k) = .ok delta ∧
      delta.Within negative (10 ^ 12 * 100 : Nat) := by
  have hdifference : ((n : Int) - k).natAbs ≤ 10 ^ 12 * (k : Int).natAbs := by omega
  have hquotient := within_ofQuotient (decide ((n : Int) - k < 0) != decide ((k : Int) < 0))
    (by omega) (by decide) hdifference
  have hsized : sized ((Number.int n).subtract? (.int k)) = .ok (.int (n - k)) := rfl
  have hdivide : (Number.int (n - k)).divide? (.int k) = some _ := if_pos hquotient.isFinite
  refine ⟨_, _, ?_, within_hundredths hquotient (by decide)⟩
  rw [percentOf, hsized, ok_bind, hdivide]
  rfl

-- The change between two counts can be computed and rounded.
theorem compute_counts (hn : n ≤ 10 ^ 12) : ∃ change, compute (.int n) (.int k) = .ok change := by
  cases hpositive : zero.before (.int k) with
  | false => exact ⟨_, compute_of_not_positive hpositive⟩
  | true =>
      obtain ⟨delta, negative, hdelta, mantissa, exponent, hcanonical, rfl, hle⟩ :=
        percentOf_counts (Measure.pos_of_before hpositive) hn
      have hlt : Binary64.magnitude mantissa exponent < 10 ^ 15 := hle.trans_lt (by norm_num)
      have hshortest := Binary64.shortest_le hlt (by decide : 10 ^ 15 ≤ 2 ^ 50) (by decide)
      obtain ⟨percent, hpercent, -⟩ := Measure.rounded_of_shortest_le hcanonical
        (by decide : 10 ^ 15 < 9007199254740992) (by exact_mod_cast hshortest)
      rw [compute, if_pos hpositive, hdelta]
      exact ⟨_, bind_eq_ok_iff.mpr ⟨_, rfl, bind_eq_ok_iff.mpr ⟨percent, hpercent, rfl⟩⟩⟩

end Change

namespace Measure

section Sizes

variable {value before base : Nat}

theorem le_baseOf (h : value ≤ base) : value ≤ baseOf base := by
  unfold baseOf
  split_ifs <;> omega

-- A part of a base is rounded to at most a hundred hundredths of it.
theorem rounded_percentageOf (h : value ≤ base) : ∃ percent,
    rounded (Number.percentageOf value (baseOf base)) 1 = .ok (some percent) ∧
      percent.Within false (100 : Nat) := by
  have hpos : 0 < baseOf base := by
    unfold baseOf
    split_ifs <;> omega
  have hle : value ≤ 1 * baseOf base := (le_baseOf h).trans_eq (Nat.one_mul _).symm
  exact rounded_within_hundred
    (Binary64.within_hundredths (Binary64.within_ofQuotient false hpos (by decide) hle) (by decide))

theorem outcomeOfSizes_share (h : value ≤ base) : ∃ percent,
    outcomeOfSizes true value before (.ok base) =
      .ok ⟨.int value, .int before, ⟨none, none, some percent⟩, none⟩ ∧
    percent.Within false (100 : Nat) := by
  obtain ⟨percent, hpercent, hwithin⟩ := rounded_percentageOf h
  refine ⟨percent, ?_, hwithin⟩
  rw [outcomeOfSizes, if_pos rfl, ok_bind, hpercent]
  rfl

end Sizes

section Tally

variable {name : String} {column : Option String} {rows rows' : List Value}

def textsIn (name : String) (rows : List Value) : Finset String :=
  (rows.map fun row => (row.field name).asText).toFinset

-- How many rows there are, or how many different texts in the column that is asked for.
def tally (column : Option String) (rows : List Value) : Nat :=
  match column with
  | none => rows.length
  | some name => (textsIn name rows).card

def columnOf (column : Option String) : Value := column.elim .null .text

theorem distinctTexts_records (hrows : ∀ row ∈ rows, ∃ fields, row = .object fields) :
    distinctTexts (.text name) rows =
      .ok (rows.map fun row => (row.field name).asText).eraseDups := by
  have hcells : (rows.mapM fun row => row.cell (.text name)) =
      .ok (rows.map fun row => row.field name) := by
    refine mapM_of_forall₂ (List.forall₂_map_right_iff.mpr (List.forall₂_same.mpr ?_))
    exact fun row hrow => Value.cell_of_record (hrows row hrow) name
  rw [distinctTexts, hcells, ok_bind, List.map_map]
  rfl

-- The empty text names no column, so it is left out.
theorem size_columnOf (hname : column ≠ some "")
    (hrows : ∀ row ∈ rows, ∃ fields, row = .object fields) :
    size (columnOf column) rows = .ok (tally column rows) := by
  cases column with
  | none => rfl
  | some name =>
      have hholds : (columnOf (some name)).holds = true := by
        simpa [columnOf, Value.holds] using hname
      have hcard : (textsIn name rows).card =
          (rows.map fun row => (row.field name).asText).eraseDups.length := by
        rw [← List.toFinset_card_of_nodup (nodup_eraseDups _), textsIn]
        congr 1
        ext s
        simp
      rw [size, if_pos hholds, columnOf, Option.elim_some, distinctTexts_records hrows, tally,
        hcard]
      rfl

theorem mem_textsIn {s : String} :
    s ∈ textsIn name rows ↔ ∃ row ∈ rows, (row.field name).asText = s := by
  simp [textsIn]

theorem textsIn_append (name : String) (rows rows' : List Value) :
    textsIn name (rows ++ rows') = textsIn name rows ∪ textsIn name rows' := by
  rw [textsIn, List.map_append, List.toFinset_append]
  rfl

theorem textsIn_subset (h : rows ⊆ rows') : textsIn name rows ⊆ textsIn name rows' := by
  intro s hs
  obtain ⟨row, hrow, htext⟩ := mem_textsIn.mp hs
  exact mem_textsIn.mpr ⟨row, h hrow, htext⟩

theorem card_textsIn_le (name : String) (rows : List Value) :
    (textsIn name rows).card ≤ rows.length := by
  simpa [textsIn] using List.toFinset_card_le (rows.map fun row => (row.field name).asText)

-- Rows that are left out take nothing away but their own texts.
theorem tally_sublist (h : rows.Sublist rows') : tally column rows ≤ tally column rows' := by
  cases column with
  | none => exact h.length_le
  | some name => exact Finset.card_le_card (textsIn_subset h.subset)

-- The texts of a column do not depend on how often a row is there, or where.
theorem tally_of_same_rows (h : ∀ row, row ∈ rows' ↔ row ∈ rows) :
    tally (some name) rows' = tally (some name) rows :=
  congrArg Finset.card ((textsIn_subset fun row => (h row).mp).antisymm
    (textsIn_subset fun row => (h row).mpr))

theorem tally_perm (h : rows'.Perm rows) : tally column rows' = tally column rows := by
  cases column with
  | none => exact h.length_eq
  | some name => exact tally_of_same_rows fun row => h.mem_iff

end Tally

section Count

variable {mode : Mode} {f : Filter} {m : Matcher} {name : String} {column : Option String}
  {active previous active' previous' A B : List Value}

def tileCount (mode : Mode) (f : Filter) (column : Option String) (share : Bool)
    (active previous : List Value) : Traced Outcome := do
  count (← Matcher.ofFilter mode f) (columnOf column) share active previous

-- Records for each of which the filter comes to an answer.
structure Sifted (m : Matcher) (rows : List Value) : Prop where
  records : ∀ row ∈ rows, ∃ fields, row = .object fields
  answered : Answered m rows

-- How many rows match, or how many different texts they have in the column that is asked for.
def countOver (m : Matcher) (column : Option String) (rows : List Value) : Nat :=
  tally column (accepted m rows)

theorem countOver_le_tally (m : Matcher) (column : Option String) (rows : List Value) :
    countOver m column rows ≤ tally column rows :=
  tally_sublist List.filter_sublist

theorem countOver_of_same_rows (h : ∀ row, row ∈ active' ↔ row ∈ active) :
    countOver m (some name) active' = countOver m (some name) active :=
  tally_of_same_rows fun row => by simp [accepted, h]

theorem countOver_perm (h : active'.Perm active) :
    countOver m column active' = countOver m column active :=
  tally_perm (h.filter _)

theorem Sifted.of_subset (h : Sifted m active) (hsubset : active' ⊆ active) : Sifted m active' :=
  ⟨fun row hrow => h.records row (hsubset hrow), fun row hrow => h.answered row (hsubset hrow)⟩

-- A tile shows the counts of its two windows.
theorem tileCount_result (hm : (Matcher.ofFilter mode f).result = .ok m) (hname : column ≠ some "")
    (hactive : Sifted m active) (hprevious : Sifted m previous) (share : Bool) :
    (tileCount mode f column share active previous).result =
      outcomeOfSizes share (countOver m column active) (countOver m column previous)
        (.ok (tally column active)) := by
  have hrecords : ∀ rows, Sifted m rows → ∀ row ∈ accepted m rows, ∃ fields, row = .object fields :=
    fun rows h row hrow => h.records row (List.mem_of_mem_filter hrow)
  rw [tileCount, Traced.result_bind, hm, ok_bind,
    count_result (keep_accepted hactive.answered) (keep_accepted hprevious.answered),
    size_columnOf hname (hrecords _ hactive), ok_bind, size_columnOf hname (hrecords _ hprevious),
    ok_bind, size_columnOf hname hactive.records]
  rfl

theorem accepted_append (m : Matcher) (A B : List Value) :
    accepted m (A ++ B) = accepted m A ++ accepted m B :=
  List.filter_append A B

-- What a tile shows of two windows: their counts, and as a share at most a hundred hundredths.
structure Shows (mode : Mode) (f : Filter) (m : Matcher) (column : Option String)
    (active previous : List Value) : Prop where
  share : ∃ percent r, (tileCount mode f column true active previous).result =
      .ok ⟨.int (countOver m column active), .int (countOver m column previous),
        ⟨none, none, some percent⟩, none⟩ ∧
    percent.toRat? = some r ∧ 0 ≤ r ∧ r ≤ 100
  values : ∀ o, (tileCount mode f column false active previous).result = .ok o →
    o.value = .int (countOver m column active) ∧ o.previous = .int (countOver m column previous)
  returns : countOver m column active ≤ 10 ^ 12 →
    ∃ o, (tileCount mode f column false active previous).result = .ok o

theorem shows_counts (hm : (Matcher.ofFilter mode f).result = .ok m) (hname : column ≠ some "")
    (hactive : Sifted m active) (hprevious : Sifted m previous) :
    Shows mode f m column active previous where
  share := by
    obtain ⟨percent, hresult, hwithin⟩ :=
      outcomeOfSizes_share (countOver_le_tally m column active)
    obtain ⟨r, hr, hnonneg, hle⟩ := hwithin.toRat?
    rw [← tileCount_result hm hname hactive hprevious] at hresult
    exact ⟨percent, r, hresult, hr, hnonneg, by exact_mod_cast hle⟩
  values := fun o ho => by
    rw [tileCount_result hm hname hactive hprevious] at ho
    obtain ⟨change, -, rfl⟩ := Outcome.compared_eq_ok ho
    exact ⟨rfl, rfl⟩
  returns := fun hle => by
    obtain ⟨change, hchange⟩ := Change.compute_counts hle
    rw [tileCount_result hm hname hactive hprevious]
    exact ⟨_, bind_eq_ok_iff.mpr ⟨change, hchange, rfl⟩⟩

-- The counts of rows and of their different texts, over some rows and over more of them.
structure CountLaws (m : Matcher) (name : String) (A B : List Value) : Prop where
  distinct_le : countOver m (some name) A ≤ countOver m none A
  le_length : countOver m none A ≤ A.length
  distinct_le_base : countOver m (some name) A ≤ (textsIn name A).card
  append : countOver m none (A ++ B) = countOver m none A + countOver m none B
  max_le : max (countOver m (some name) A) (countOver m (some name) B) ≤
    countOver m (some name) (A ++ B)
  le_add : countOver m (some name) (A ++ B) ≤
    countOver m (some name) A + countOver m (some name) B
  eq_add_iff : countOver m (some name) (A ++ B) =
      countOver m (some name) A + countOver m (some name) B ↔
    ∀ a ∈ accepted m A, ∀ b ∈ accepted m B, (a.field name).asText ≠ (b.field name).asText

theorem disjoint_textsIn_iff : Disjoint (textsIn name A) (textsIn name B) ↔
    ∀ a ∈ A, ∀ b ∈ B, (a.field name).asText ≠ (b.field name).asText := by
  rw [Finset.disjoint_left]
  simp only [mem_textsIn]
  constructor
  · intro h a ha b hb heq
    exact h ⟨a, ha, rfl⟩ ⟨b, hb, heq.symm⟩
  · rintro h _ ⟨a, ha, rfl⟩ ⟨b, hb, heq⟩
    exact h a ha b hb heq.symm

theorem countLaws (m : Matcher) (name : String) (A B : List Value) : CountLaws m name A B := by
  have happend : textsIn name (accepted m (A ++ B)) =
      textsIn name (accepted m A) ∪ textsIn name (accepted m B) := by
    rw [accepted_append, textsIn_append]
  exact {
    distinct_le := card_textsIn_le name (accepted m A)
    le_length := countOver_le_tally m none A
    distinct_le_base := countOver_le_tally m (some name) A
    append := by
      unfold countOver
      rw [accepted_append]
      exact List.length_append
    max_le := by
      unfold countOver tally
      dsimp only
      rw [happend]
      exact max_le (Finset.card_le_card Finset.subset_union_left)
        (Finset.card_le_card Finset.subset_union_right)
    le_add := by
      unfold countOver tally
      dsimp only
      rw [happend]
      exact Finset.card_union_le _ _
    eq_add_iff := by
      unfold countOver tally
      dsimp only
      rw [happend, Finset.card_union_eq_card_add_card, disjoint_textsIn_iff] }

-- In another order the rows are counted alike.
theorem tileCount_perm (hm : (Matcher.ofFilter mode f).result = .ok m) (hname : column ≠ some "")
    (hactive : Sifted m active) (hprevious : Sifted m previous) (h : active'.Perm active)
    (hbefore : previous'.Perm previous) (share : Bool) :
    (tileCount mode f column share active' previous').result =
      (tileCount mode f column share active previous).result := by
  rw [tileCount_result hm hname hactive hprevious,
    tileCount_result hm hname (hactive.of_subset h.subset) (hprevious.of_subset hbefore.subset),
    tally_perm h, countOver_perm h, countOver_perm hbefore]

theorem tileCount_of_same_rows (hm : (Matcher.ofFilter mode f).result = .ok m) (hname : name ≠ "")
    (hactive : Sifted m active) (hprevious : Sifted m previous)
    (h : ∀ row, row ∈ active' ↔ row ∈ active) (hbefore : ∀ row, row ∈ previous' ↔ row ∈ previous)
    (share : Bool) : (tileCount mode f (some name) share active' previous').result =
      (tileCount mode f (some name) share active previous).result := by
  have hsome : some name ≠ some "" := fun h => hname (Option.some.inj h)
  rw [tileCount_result hm hsome hactive hprevious, tileCount_result hm hsome
    (hactive.of_subset fun row => (h row).mp) (hprevious.of_subset fun row => (hbefore row).mp),
    tally_of_same_rows h, countOver_of_same_rows h, countOver_of_same_rows hbefore]

-- For every column with a name, and without one: a tile shows the counts of its windows, and these
-- are bounded by each other, by the number of rows and by the base of a share. They do not depend
-- on the order of the rows, and those of texts not on repetitions either. Rows are counted
-- additively, texts so only if no text is on both sides. The empty text is no column to count the
-- texts of: with it rows are counted.
theorem counts_bounded (hm : (Matcher.ofFilter mode f).result = .ok m) (hname : name ≠ "") :
    (∀ column, column = none ∨ column = some name →
      ∀ active previous, Sifted m active → Sifted m previous →
        Shows mode f m column active previous ∧
        ∀ active' previous' share, active'.Perm active → previous'.Perm previous →
          (tileCount mode f column share active' previous').result =
            (tileCount mode f column share active previous).result) ∧
    (∀ active previous active' previous' share, Sifted m active → Sifted m previous →
      (∀ row, row ∈ active' ↔ row ∈ active) → (∀ row, row ∈ previous' ↔ row ∈ previous) →
        (tileCount mode f (some name) share active' previous').result =
          (tileCount mode f (some name) share active previous).result) ∧
    (∀ A B, CountLaws m name A B) ∧
    ∀ share active previous, (tileCount mode f (some "") share active previous).result =
      (tileCount mode f none share active previous).result := by
  refine ⟨fun column hcolumn active previous hactive hprevious => ?_,
    fun active previous active' previous' share hactive hprevious h hbefore =>
      tileCount_of_same_rows hm hname hactive hprevious h hbefore share,
    countLaws m name, fun share active previous => rfl⟩
  have hnamed : column ≠ some "" := by
    rintro rfl
    rcases hcolumn with h | h
    · cases h
    · exact hname (Option.some.inj h).symm
  exact ⟨shows_counts hm hnamed hactive hprevious, fun active' previous' share h hbefore =>
    tileCount_perm hm hnamed hactive hprevious h hbefore share⟩

-- Two open visits came on two days. The same visits once more bring no other day.
theorem visits_counted :
    (Matcher.ofFilter .strict isOpen).result =
      .ok (.equals (.text "status") (.text "open") false) ∧ "came" ≠ "" ∧
    (∃ percent r, (tileCount .strict isOpen (some "came") true visits []).result =
      .ok ⟨.int 2, .int 0, ⟨none, none, some percent⟩, none⟩ ∧
      percent.toRat? = some r ∧ 0 ≤ r ∧ r ≤ 100) ∧
    countOver (.equals (.text "status") (.text "open") false) (some "came") (visits ++ visits) ≠
      2 + 2 := by
  have hm : (Matcher.ofFilter .strict isOpen).result =
      .ok (.equals (.text "status") (.text "open") false) := rfl
  have hsifted : Sifted (.equals (.text "status") (.text "open") false) visits := by
    refine ⟨fun row hrow => ?_, fun row hrow => ?_⟩ <;>
    · simp only [visits, List.mem_cons, List.not_mem_nil, or_false] at hrow
      rcases hrow with rfl | rfl | rfl <;> exact ⟨_, rfl⟩
  have hnone : Sifted (.equals (.text "status") (.text "open") false) [] :=
    hsifted.of_subset (List.nil_subset visits)
  have hdays : countOver (.equals (.text "status") (.text "open") false) (some "came") visits =
      2 := by decide +kernel
  obtain ⟨hshows, -, hlaws, -⟩ := counts_bounded hm (by decide : "came" ≠ "")
  obtain ⟨hshown, -⟩ := hshows (some "came") (.inr rfl) visits [] hsifted hnone
  obtain ⟨percent, r, hresult, hr⟩ := hshown.share
  have hsum := (hlaws visits visits).eq_add_iff
  rw [hdays] at hresult hsum
  refine ⟨hm, by decide, ⟨percent, r, hresult, hr⟩, fun h => ?_⟩
  have hopen : Value.object [("status", .text "open"), ("came", .text "2024-02-02")] ∈
      accepted (.equals (.text "status") (.text "open") false) visits :=
    List.mem_filter.mpr ⟨by simp [visits], by decide +kernel⟩
  exact hsum.mp h _ hopen _ hopen rfl

-- Two rows with the same text in the column of the empty name.
def nameless : List Value := [.object [("", .text "a")], .object [("", .text "a")]]

-- They are counted as two under that name, though they have one text there.
theorem nameless_counted_twice :
    (Matcher.ofFilter .strict (.all [])).result = .ok (.all []) ∧ Sifted (.all []) nameless ∧
    (∃ o, (tileCount .strict (.all []) (some "") false nameless []).result = .ok o ∧
      o.value = .int 2) ∧
    (textsIn "" nameless).card = 1 ∧ countOver (.all []) (some "") nameless = 1 := by
  refine ⟨rfl, ⟨fun row hrow => ?_, fun row hrow => ⟨true, rfl⟩⟩, ⟨_, rfl, rfl⟩, by decide +kernel,
    by decide +kernel⟩
  simp only [nameless, List.mem_cons, List.not_mem_nil, or_false] at hrow
  rcases hrow with rfl | rfl <;> exact ⟨_, rfl⟩

end Count

end Measure

end Tileboard
