import MyCeph.Crush.FirstnSpec

namespace MyCeph.Crush

open Lib

/-!
# Replica separation

`crush_choose_firstn` never puts one item at two positions: the collision scan of
`out[0..outpos)` at acceptance is the `fresh` field of `Chosen`, and everything written
later goes to higher positions.  The leaves are scanned against `out2` inside the leaf
search, so they stay apart as well, as long as `out2` starts that way
(`LeavesReady`).  A device that is its own leaf is scanned against `out` only: with
type 0 and an `out2` that starts differently from `out`, leaves can repeat
(`separation_fails_for_stale_out2`).
-/

/-- The first `n` cells of the array are pairwise distinct. -/
def Distinct (μ : Store) (arr n : ℕ) : Prop :=
  ∀ i j, i < j → j < n → μ.cells arr i ≠ μ.cells arr j

theorem Distinct.of_cells {μ μ' : Store} {arr arr' n : ℕ} (h : Distinct μ arr n)
    (hcells : ∀ j < n, μ'.cells arr' j = μ.cells arr j) : Distinct μ' arr' n := by
  intro i j hij hj
  rw [hcells i (lt_trans hij hj), hcells j hj]
  exact h i j hij hj

/-- Distinct cells stay distinct when every cell added is new. -/
theorem Distinct.extend {μ μ' : Store} {arr n p : ℕ} (h : Distinct μ arr n)
    (hold : ∀ j < n, μ'.cells arr j = μ.cells arr j)
    (hnew : ∀ j, n ≤ j → j < p → ∀ i < j, μ'.cells arr i ≠ μ'.cells arr j) :
    Distinct μ' arr p := by
  intro i j hij hj
  rcases Nat.lt_or_ge j n with hlt | hge
  · exact h.of_cells hold i j hij hlt
  · exact hnew j hge hj i hij

/-- The leaves are ready for a run that separates them: an `out2` of its own with distinct
    leaves when buckets are placed, and the devices of `out` when devices are. -/
def LeavesReady (f : FirstnInfo) (μ : Store) : Prop :=
  (f.type ≠ 0 ∧ f.out2 ≠ f.out ∧ Distinct μ f.out2 f.outpos) ∨
    (f.type = 0 ∧ ∀ j < f.outpos, μ.cells f.out2 j = μ.cells f.out j)

variable {H : CrushHash} {f : FirstnInfo} {μ μ' : Store} {p : ℕ}

/-- Cells below the window keep their contents. -/
theorem Placement.cells_eq (h : Placement H f μ μ' p) (a : ℕ) {j : ℕ} (hj : j < f.outpos) :
    μ'.cells a j = μ.cells a j :=
  h.ext.cells_eq fun _ hv => absurd hv.2.1 (not_le.mpr hj)

/-- What is placed differs from all that stands before it. -/
theorem Placement.distinct_out (h : Placement H f μ μ' p) (hout : Distinct μ f.out f.outpos) :
    Distinct μ' f.out p :=
  hout.extend (fun _ hj => h.cells_eq f.out hj) fun j hlo hhi i hi =>
    (h.placed j hlo hhi).chosen.fresh i hi

/-- So do the leaves, when the array was fit for that at the start. -/
theorem Placement.distinct_out2 (h : Placement H f μ μ' p) (hwf : f.map.WellFormed)
    (hout : Distinct μ f.out f.outpos) (hrec : f.recurseToLeaf = true)
    (hready : LeavesReady f μ) : Distinct μ' f.out2 p := by
  rcases hready with ⟨htype, hne, hout2⟩ | ⟨htype, hsame⟩
  · -- Buckets were placed: each leaf was scanned against the leaves before it.
    refine hout2.extend (fun _ hj => h.cells_eq f.out2 hj) fun j hlo hhi i hi => ?_
    have hpl := h.placed j hlo hhi
    obtain ⟨c, count, -, hleaf⟩ := (hpl.leaf hne).bucket hrec (hpl.chosen.ofType.neg htype)
    exact hleaf.fresh i hi
  · -- Devices were placed: `out2` repeats `out`.
    refine (h.distinct_out hout).of_cells fun j hj => ?_
    rcases Nat.lt_or_ge j f.outpos with hlt | hge
    · rw [h.cells_eq _ hlt, h.cells_eq _ hlt, hsame j hlt]
    · by_cases hne : f.out2 = f.out
      · rw [hne]
      · have hpl := h.placed j hge hj
        exact (hpl.leaf hne).device hrec ((htype ▸ hpl.chosen.ofType).device hwf)

/-- **Replica separation.** -/
theorem crushChooseFirstn_separation (H : CrushHash) (fuel : ℕ) (f : FirstnInfo) (parentR : ℤ)
    (μ μ' : Store) (p : ℕ) (hwf : f.map.WellFormed) (hout : Distinct μ f.out f.outpos)
    (hrun : crushChooseFirstn H fuel f parentR μ = .ok (p, μ')) :
    Distinct μ' f.out p ∧ (f.recurseToLeaf = true → LeavesReady f μ → Distinct μ' f.out2 p) := by
  have hspec := (crushChooseFirstn_spec H fuel).placement hrun
  exact ⟨hspec.distinct_out hout, fun hrec hready => hspec.distinct_out2 hwf hout hrec hready⟩

/-- The search for two hosts of the small map, each with a device in an `out2` of its
    own. -/
def smallHostsInfo : FirstnInfo :=
  { smallInfo with type := 1, numrep := 2, outSize := 2, out2 := 2 }

/-- The two hosts of the small map, and a leaf in each. -/
theorem crushChooseFirstn_separation_smallHosts :
    ∃ μ', crushChooseFirstn rjenkins 60 smallHostsInfo 0 zeroStore = .ok (2, μ') ∧
      Distinct μ' 1 2 ∧ Distinct μ' 2 2 := by
  obtain ⟨⟨p, μ'⟩, hrun, rfl⟩ := ok_of_toOption_map (g := Prod.fst) (y := 2)
    (x := crushChooseFirstn rjenkins 60 smallHostsInfo 0 zeroStore) (by decide +kernel)
  have hstart : ∀ arr, Distinct zeroStore arr 0 := fun _ _ j _ hj => absurd hj (Nat.not_lt_zero j)
  obtain ⟨h1, h2⟩ := crushChooseFirstn_separation rjenkins 60 smallHostsInfo 0 zeroStore μ' 2
    smallMap_wellFormed (hstart 1) hrun
  exact ⟨μ', hrun, h1, h2 rfl (Or.inl ⟨by decide, by decide, hstart 2⟩)⟩

/-- A call for one more device of host `-2`, with `out` and `out2` of their own, as
    position 1 of both. -/
def staleInfo : FirstnInfo :=
  { smallInfo with
    bucket := smallHost (-2) 0, x := 224, numrep := 2, outpos := 1, outSize := 1, stable := false
    out2 := 2 }

/-- Without `LeavesReady` the leaves can repeat: `out` holds OSD 3 and `out2` OSD 0 at
    position 0; OSD 0 is drawn, does not occur in `out`, and is stored in both arrays. -/
theorem separation_fails_for_stale_out2 :
    smallMap.WellFormed ∧ smallMap.Acyclic ∧ staleInfo.type = 0 ∧
      staleInfo.recurseToLeaf = true ∧ staleInfo.out2 ≠ staleInfo.out ∧
      Distinct (zeroStore.write 1 0 3) staleInfo.out staleInfo.outpos ∧
      Distinct (zeroStore.write 1 0 3) staleInfo.out2 staleInfo.outpos ∧
      ∃ μ', crushChooseFirstn rjenkins 60 staleInfo 0 (zeroStore.write 1 0 3) = .ok (2, μ') ∧
        ¬ Distinct μ' staleInfo.out2 2 := by
  have hone : ∀ arr, Distinct (zeroStore.write 1 0 3) arr 1 := fun _ i j hij hj => by omega
  refine ⟨smallMap_wellFormed, smallMap_acyclic, rfl, rfl, by decide, hone 1, hone 2, ?_⟩
  obtain ⟨⟨p, μ'⟩, hrun, hres⟩ := ok_of_toOption_map
    (g := fun r : ℕ × Store => (r.1, r.2.cells 2 0, r.2.cells 2 1)) (y := (2, 0, 0))
    (x := crushChooseFirstn rjenkins 60 staleInfo 0 (zeroStore.write 1 0 3)) (by decide +kernel)
  obtain ⟨rfl, h0, h1⟩ : p = 2 ∧ μ'.cells 2 0 = 0 ∧ μ'.cells 2 1 = 0 := by simpa using hres
  exact ⟨μ', hrun, fun hd => hd 0 1 (by omega) (by omega) (h0.trans h1.symm)⟩

end MyCeph.Crush
