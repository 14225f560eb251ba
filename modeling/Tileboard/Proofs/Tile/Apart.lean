import Tileboard.Proofs.Tile.Result
import Tileboard.Proofs.Workspace.Course

namespace Tileboard

section FirstFault

variable {ε α β : Type} {f : α → Except ε β} {xs : List α}

-- Of the items of a list, the first that has a fault has this one.
def FirstFault (f : α → Except ε β) (xs : List α) (e : ε) : Prop :=
  ∃ before x after, xs = before ++ x :: after ∧ (∀ y ∈ before, ∃ b, f y = .ok b) ∧ f x = .error e

theorem mapM_first_fault (h : ∃ x ∈ xs, ∃ e, f x = .error e) :
    ∃ e, xs.mapM f = .error e ∧ FirstFault f xs e := by
  cases hrun : xs.mapM f with
  | error e => exact ⟨e, rfl, mapM_eq_error hrun⟩
  | ok ys =>
      obtain ⟨x, hx, e, he⟩ := h
      obtain ⟨y, hy⟩ := mapM_succeeds_iff.mp ⟨ys, hrun⟩ x hx
      rw [he] at hy
      cases hy

end FirstFault

namespace Pass

-- A run over described tiles comes to what its runs over the single tiles come to.
structure Apart (run : List Value → Except Fault (List Value)) (tiles : List Value) : Prop where
  results : (∀ t ∈ tiles, ∃ rs, run [t] = .ok rs) →
    ∃ rs, run tiles = .ok rs ∧ List.Forall₂ (fun t r => run [t] = .ok [r]) tiles rs
  -- The first tile that cannot be read stops the run, whatever is wrong with those before it.
  unread : (∃ t ∈ tiles, ∃ e, Tile.ofValue t = .error e) →
    ∃ e, run tiles = .error e ∧ FirstFault Tile.ofValue tiles e
  failed : (∀ t ∈ tiles, ∃ u, Tile.ofValue t = .ok u) → (∃ t ∈ tiles, ∃ e, run [t] = .error e) →
    ∃ e, run tiles = .error e ∧ FirstFault (fun t => run [t]) tiles e

section TwoPasses

variable {run : List Value → Except Fault (List Value)} {compute : Tile Filter → Except Fault Value}
  {tiles : List Value}

theorem run_single (hrun : ∀ ds, run ds = ds.mapM Tile.ofValue >>= List.mapM compute) (t : Value) :
    run [t] = (Tile.ofValue t >>= compute).map fun r => [r] := by
  rw [hrun]
  simp only [List.mapM_cons, List.mapM_nil, bind_assoc, pure_bind]
  cases Tile.ofValue t with
  | error e => rfl
  | ok u =>
      rw [ok_bind, ok_bind]
      cases compute u <;> rfl

-- Where all tiles can be read, reading them before the first is computed makes no difference.
theorem run_of_read (hrun : ∀ ds, run ds = ds.mapM Tile.ofValue >>= List.mapM compute)
    (hread : ∀ t ∈ tiles, ∃ u, Tile.ofValue t = .ok u) :
    run tiles = tiles.mapM fun t => Tile.ofValue t >>= compute := by
  obtain ⟨us, hus⟩ := mapM_succeeds_iff.mpr hread
  rw [hrun, hus, ok_bind]
  exact (mapM_eq_of_forall₂ ((mapM_eq_ok hus).imp fun t u htu => by rw [htu, ok_bind])).symm

theorem apart_of_two_passes (hrun : ∀ ds, run ds = ds.mapM Tile.ofValue >>= List.mapM compute) :
    Apart run tiles where
  results := by
    intro hall
    have hcomputed : ∀ t ∈ tiles, ∃ r, (Tile.ofValue t >>= compute) = .ok r := by
      intro t ht
      obtain ⟨rs, hrs⟩ := hall t ht
      obtain ⟨r, hr, -⟩ := map_eq_ok_iff.mp ((run_single hrun t).symm.trans hrs)
      exact ⟨r, hr⟩
    have hread : ∀ t ∈ tiles, ∃ u, Tile.ofValue t = .ok u := by
      intro t ht
      obtain ⟨r, hr⟩ := hcomputed t ht
      obtain ⟨u, hu, -⟩ := bind_eq_ok_iff.mp hr
      exact ⟨u, hu⟩
    obtain ⟨rs, hrs⟩ := mapM_succeeds_iff.mpr hcomputed
    refine ⟨rs, (run_of_read hrun hread).trans hrs, (mapM_eq_ok hrs).imp fun t r htr => ?_⟩
    exact (run_single hrun t).trans (map_eq_ok_iff.mpr ⟨r, htr, rfl⟩)
  unread := by
    intro hunread
    obtain ⟨e, he, hfirst⟩ := mapM_first_fault hunread
    exact ⟨e, by rw [hrun, he, error_bind], hfirst⟩
  failed := by
    intro hread hfailed
    simp only [run_single hrun, map_eq_error_iff] at hfailed
    obtain ⟨e, he, before, t, after, hsplit, hbefore, ht⟩ := mapM_first_fault hfailed
    refine ⟨e, (run_of_read hrun hread).trans he, before, t, after, hsplit, fun u hu => ?_, ?_⟩
    · obtain ⟨r, hr⟩ := hbefore u hu
      exact ⟨[r], (run_single hrun u).trans (map_eq_ok_iff.mpr ⟨r, hr, rfl⟩)⟩
    · exact (run_single hrun t).trans (map_eq_error_iff.mpr ht)

end TwoPasses

theorem run_result (pass : Pass) (mode : Mode) (metrics : List Value) (windows : Windows Value)
    (descriptions : List Value) :
    (pass.run mode (.list metrics) windows (.list descriptions)).result =
      descriptions.mapM Tile.ofValue >>=
        List.mapM fun t => (pass.tile mode ⟨metrics⟩ windows t).result := by
  have hmetrics : Subtitles.ofValue (.list metrics) = .ok ⟨metrics⟩ := by
    unfold Subtitles.ofValue Value.itemsOrNone
    cases metrics <;> rfl
  unfold run tiles
  simp only [Traced.result_lift_bind, hmetrics, ok_bind, Tile.listOfValue_list,
    Traced.result_mapM]

-- In both passes, and by way of any cache in whatever workspace, tiles are computed apart. A cache
-- makes no difference to what they come to.
theorem computed_apart (pass : Pass) (mode : Mode) (metrics : List Value) (windows : Windows Value)
    (tiles : List Value) :
    Apart (fun ds => (pass.run mode (.list metrics) windows (.list ds)).result) tiles ∧
      ∀ actions name, (Workspace.course actions).HasCache name mode →
        Apart (fun ds => (Workspace.runTiles pass name (.list metrics) windows (.list ds)
          (Workspace.course actions)).2.result) tiles ∧
        (Workspace.runTiles pass name (.list metrics) windows (.list tiles)
          (Workspace.course actions)).2.result =
            (pass.run mode (.list metrics) windows (.list tiles)).result := by
  have hplain : ∀ ds, Apart (fun ds => (pass.run mode (.list metrics) windows (.list ds)).result)
      ds := fun ds => apart_of_two_passes fun ds => run_result pass mode metrics windows ds
  refine ⟨hplain tiles, fun actions name hcache => ?_⟩
  have hcached : ∀ ds, (Workspace.runTiles pass name (.list metrics) windows (.list ds)
      (Workspace.course actions)).2.result =
        (pass.run mode (.list metrics) windows (.list ds)).result := fun ds =>
    (Workspace.runTiles_comesTo (Workspace.course_sound actions) hcache pass (.list metrics)
      windows (.list ds)).result_eq
  refine ⟨?_, hcached tiles⟩
  simp only [hcached]
  exact hplain tiles

-- The first tile can be read, but asks for groups by what names no chart. The second cannot be
-- read.
def lateFlaw : List Value :=
  [.object [("metric", .text "sum"), ("field", .text "hours"), ("column", .text "site"),
      ("component", .int 5)], .text "late"]

theorem lateFlaw_apart :
    (Workspace.course [.newCache "s" .strict, .clear "c"]).HasCache "s" .strict ∧
    ∃ e, (Workspace.runTiles .full "s" (.list []) ⟨[], [], []⟩ (.list lateFlaw)
        (Workspace.course [.newCache "s" .strict, .clear "c"])).2.result = .error e ∧
      FirstFault Tile.ofValue lateFlaw e := by
  have hcache : (Workspace.course [.newCache "s" .strict, .clear "c"]).HasCache "s" .strict :=
    ⟨.empty .strict, rfl, rfl⟩
  have hunread : ∃ t ∈ lateFlaw, ∃ e, Tile.ofValue t = .error e :=
    ⟨.text "late", by simp [lateFlaw], _, rfl⟩
  exact ⟨hcache, ((computed_apart .full .strict [] ⟨[], [], []⟩ lateFlaw).2 _ "s"
    hcache).1.unread hunread⟩

end Pass

end Tileboard
