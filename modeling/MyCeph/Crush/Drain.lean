import MyCeph.Crush.Load

namespace MyCeph.Crush

open Lib

/-!
# Taking load off an OSD that holds a replica

The runs of `Load` again, now with `d` among the devices selected.  They go through the same
states until a pass of the first run selects `d` (`Lib.loop_agree_until`); what either of them
does from there leaves the positions already filled alone.  So nothing moves at the positions
before the first one that `d` holds.
-/

variable {H : CrushHash} {f : FirstnInfo} {self self' : Firstn} {parentR : ℤ}
  {W' : ℤ → UInt32} {d : ℤ}

/-- A pass adds one position at most. -/
theorem placeReplica_outpos_le {fuel : ℕ} {st st' : Replicas}
    (h : placeReplica H f self fuel parentR st = .ok (.again st')) :
    st'.outpos ≤ st.outpos + 1 := by
  obtain ⟨-, -, v, μ', -, ⟨-, rfl⟩ | ⟨item, -, rfl⟩⟩ := placeReplica_again h
  · exact Nat.le_succ _
  · exact le_refl _

/-- The reweight table is not looked at once the replicas are placed. -/
theorem placeReplica_withWeight_exit {fuel : ℕ} {st : Replicas} {w : ℕ × Store}
    (h : placeReplica H f self fuel parentR st = .ok (.exit w)) :
    placeReplica H (f.withWeight W') self' fuel parentR st = .ok (.exit w) := by
  unfold placeReplica at h ⊢
  split at h
  · split at h <;> cases h
  · rename_i hguard
    rw [if_neg (by exact hguard)]
    exact h

/-- **Where two loops over replicas part.**  They end alike, or go through a common state from
    which the next position is the first that `d` may hold. -/
theorem replicas_part (hself : Meets H self) (hrep : Repeats self self' W' d)
    (hwf : f.map.WellFormed) (hlow : Lowers W' f.weight d) (hown : OwnLeaves f) {fuel n : ℕ}
    {st : Replicas} {w : ℕ × Store} (hlo : f.outpos ≤ st.outpos)
    (h : loop replicasTimeout (placeReplica H f self fuel parentR) n st = .ok w) :
    loop replicasTimeout (placeReplica H (f.withWeight W') self' fuel parentR) n st = .ok w ∨
      ∃ u m, (∃ j, loop replicasTimeout (placeReplica H f self fuel parentR) j u = .ok w) ∧
        loop replicasTimeout (placeReplica H (f.withWeight W') self' fuel parentR) n st
          = loop replicasTimeout (placeReplica H (f.withWeight W') self' fuel parentR) m u ∧
        ∃ i ≤ u.outpos, f.outpos ≤ i ∧ Selects f w.2 i d := by
  have hpart := loop_agree_until (fun st => f.outpos ≤ st.outpos)
    (fun st => SelectsBelow f d st.outpos st.μ)
    (fun st st' hlo hb => le_trans hlo (placeReplica_cells hself hb).1)
    (fun st st' hlo hb => placeReplica_reweight hself hrep hwf hlow hown hlo hb)
    (fun st w hlo hb => placeReplica_withWeight_exit hb) hlo h
  rcases hpart with hsame | ⟨u, u', m, -, hb, ⟨i, hi, hiu, hsel⟩, hrest, heq⟩
  · exact Or.inl hsame
  · right
    refine ⟨u, m + 1, ⟨m + 1, by rw [loop_again hb]; exact hrest⟩, heq, i, ?_, hi, ?_⟩
    · have := placeReplica_outpos_le hb
      omega
    · -- What `u'` has selected stays in place.
      have hcells := (replicas_cells hself hrest).2
      simpa only [Selects, hcells _ i hiu] using hsel

/-- **Taking load off an OSD moves nothing before its first position.** -/
theorem crushChooseFirstn_reweight_prefix (H : CrushHash) (fuel : ℕ) (f : FirstnInfo) (parentR : ℤ)
    (W' : ℤ → UInt32) (d : ℤ) (μ μ₁ μ₂ : Store) (p₁ p₂ k : ℕ) (hwf : f.map.WellFormed)
    (hown : OwnLeaves f) (hlow : Lowers W' f.weight d)
    (hrun : crushChooseFirstn H fuel f parentR μ = .ok (p₁, μ₁))
    (hrun' : crushChooseFirstn H fuel (f.withWeight W') parentR μ = .ok (p₂, μ₂))
    (hk : k ≤ p₁) (hnot : ∀ i, f.outpos ≤ i → i < k → ¬ Selects f μ₁ i d) :
    k ≤ p₂ ∧ ∀ a, ∀ j < k, μ₂.cells a j = μ₁.cells a j := by
  cases fuel with
  | zero => cases hrun
  | succ fuel =>
    have hself := crushChooseFirstn_spec H fuel
    rw [crushChooseFirstn_succ] at hrun hrun'
    rcases replicas_part hself (crushChooseFirstn_repeats H W' d fuel) hwf hlow hown
      (le_refl f.outpos) hrun with hsame | ⟨u, m, ⟨j, hj⟩, heq, i, hiu, hlo, hsel⟩
    · cases hsame.symm.trans hrun'
      exact ⟨hk, fun _ _ _ => rfl⟩
    · have hki : k ≤ i := by
        by_contra hlt
        exact hnot i hlo (by omega) hsel
      -- Both runs go on from `u`, which has filled the positions before `k`.
      have hcells := (replicas_cells hself hj).2
      obtain ⟨hle', hcells'⟩ := replicas_cells hself (heq.symm.trans hrun')
      exact ⟨by omega, fun a j hj => (hcells' a j (by omega)).trans (hcells a j (by omega)).symm⟩

/-- OSD 1 is at position 1 of object 222: without it OSD 3 stays at position 0. -/
theorem crushChooseFirstn_reweight_prefix_smallMap :
    ∃ μ₁ μ₂ p₂, crushChooseFirstn rjenkins 60 smallInfo 0 zeroStore = .ok (3, μ₁) ∧
      crushChooseFirstn rjenkins 60 (smallInfo.withWeight fun d => if d = 1 then 0 else 0x10000) 0
        zeroStore = .ok (p₂, μ₂) ∧ 1 ≤ p₂ ∧ μ₂.cells 1 0 = μ₁.cells 1 0 := by
  obtain ⟨⟨p₁, μ₁⟩, hrun, hres⟩ := ok_of_toOption_map
    (g := fun r : ℕ × Store => (r.1, r.2.cells 1 0)) (y := (3, 3))
    (x := crushChooseFirstn rjenkins 60 smallInfo 0 zeroStore) (by decide +kernel)
  obtain ⟨rfl, h0⟩ : p₁ = 3 ∧ μ₁.cells 1 0 = 3 := by simpa using hres
  obtain ⟨⟨p₂, μ₂⟩, hrun', hres'⟩ := ok_of_toOption_map (g := Prod.fst) (y := 3)
    (x := crushChooseFirstn rjenkins 60
      (smallInfo.withWeight fun d => if d = 1 then 0 else 0x10000) 0 zeroStore) (by decide +kernel)
  obtain ⟨hle, hcells⟩ := crushChooseFirstn_reweight_prefix rjenkins 60 smallInfo 0
    (fun d => if d = 1 then 0 else 0x10000) 1 zeroStore μ₁ μ₂ 3 p₂ 1 smallMap_wellFormed
    (fun h => absurd rfl h) ⟨fun e he => if_neg he, by decide⟩ hrun hrun' (by decide) (by
      rintro i - hi (⟨-, hsel⟩ | ⟨hne, -⟩)
      · obtain rfl : i = 0 := by omega
        have hsel' : μ₁.cells 1 0 = 1 := hsel
        omega
      · exact hne rfl)
  exact ⟨μ₁, μ₂, p₂, hrun, hrun', hle, hcells 1 0 (by decide)⟩

end MyCeph.Crush
