import MyCeph.Crush.Separation

namespace MyCeph.Crush

open Lib

/-!
# Asking for more replicas

Two runs with the same parameters but for `numrep` and `out_size`.  The search for a
replica depends on its number and on the replicas placed before, and not on how many are
asked for: `numrep` and `out_size` bound the loop over replicas, and the `out_size` handed
to the leaf search only has to be positive (`crushChooseFirstn_single`).  So the run that
asks for less does what the other one does until it stops, and what is placed stays
(`replicas_cells`).

`crushChooseFirstn_mono` says that fuel does not matter: a run that returns does so with
more fuel.
-/

variable {H : CrushHash} {f : FirstnInfo} {self self' : Firstn} {parentR rep : ℤ} {outpos : ℕ}
  {count count' : ℤ}

/-! ### Fuel -/

/-- A pass that succeeds does so with a leaf search that returns more often. -/
theorem attempt_mono (hself : ∀ f r μ w, self f r μ = .ok w → self' f r μ = .ok w)
    {st : Search × Store} {nx : Next (Search × Store) (Verdict × Store)}
    (h : attempt H f self parentR rep outpos count st = .ok nx) :
    attempt H f self' parentR rep outpos count st = .ok nx := by
  -- Only the leaf search calls `self`.
  have hleaf : ∀ r item μ w, findLeaf f self r outpos count item μ = .ok w →
      findLeaf f self' r outpos count item μ = .ok w := by
    intro r item μ w hw
    unfold findLeaf at hw ⊢
    by_cases hrec : f.recurseToLeaf = true
    · rw [if_pos hrec] at hw ⊢
      by_cases hneg : item < 0
      · rw [if_pos hneg] at hw ⊢
        generalize f.map.readBucket (-1 - item) = x at hw ⊢
        cases x with
        | error e => exact hw
        | ok b =>
          dsimp only at hw ⊢
          generalize hrun : self (leafInfo f b outpos count) (subR f r) μ = y at hw
          cases y with
          | error e => simp at hw
          | ok v =>
            rw [hself _ _ _ _ hrun]
            exact hw
      · rw [if_neg hneg] at hw ⊢
        exact hw
    · rw [if_neg hrec] at hw ⊢
      exact hw
  unfold attempt at h ⊢
  dsimp only at h ⊢
  generalize hdraw : drawItem H f st.1.cur (randomFactor rep parentR st.1.ftotal) outpos = d at h ⊢
  cases d with
  | error e => simp at h
  | ok d =>
    cases d with
    | empty => exact h
    | skip item => exact h
    | descend item b => exact h
    | candidate item =>
      dsimp only at h ⊢
      by_cases hcol : collides (st.2.visit st.1.cur) f.out outpos item = true
      · rw [if_pos hcol] at h ⊢
        exact h
      · rw [if_neg hcol] at h ⊢
        generalize hfound : findLeaf f self (randomFactor rep parentR st.1.ftotal) outpos count item
          (st.2.visit st.1.cur) = x at h
        cases x with
        | error e => simp at h
        | ok w =>
          rw [hleaf _ _ _ _ hfound]
          exact h

/-- So does a pass of the loop over replicas. -/
theorem placeReplica_mono (hself : ∀ f r μ w, self f r μ = .ok w → self' f r μ = .ok w)
    {fuel fuel' : ℕ} (hle : fuel ≤ fuel') {st : Replicas} {nx : Next Replicas (ℕ × Store)}
    (h : placeReplica H f self fuel parentR st = .ok nx) :
    placeReplica H f self' fuel' parentR st = .ok nx := by
  unfold placeReplica at h ⊢
  by_cases hguard : st.rep < f.numrep ∧ st.count > 0
  · rw [if_pos hguard] at h ⊢
    generalize hsearch : loop attemptTimeout (attempt H f self parentR st.rep st.outpos st.count)
      fuel (Search.start f, st.μ) = x at h
    cases x with
    | error e => simp at h
    | ok w => rw [loop_mono (fun _ _ hb => attempt_mono hself hb) hle hsearch]; exact h
  · rw [if_neg hguard] at h ⊢
    exact h

/-- **Fuel does not matter** to a run that returns. -/
theorem crushChooseFirstn_mono {fuel fuel' : ℕ} (hle : fuel ≤ fuel') {f : FirstnInfo}
    {parentR : ℤ} {μ : Store} {w : ℕ × Store}
    (h : crushChooseFirstn H fuel f parentR μ = .ok w) :
    crushChooseFirstn H fuel' f parentR μ = .ok w := by
  induction fuel generalizing fuel' f parentR μ w with
  | zero => simp [crushChooseFirstn] at h
  | succ fuel ih =>
    obtain ⟨k, rfl⟩ : ∃ k, fuel' = k + 1 := ⟨fuel' - 1, by omega⟩
    have hk : fuel ≤ k := by omega
    rw [crushChooseFirstn_succ] at h ⊢
    exact loop_mono (fun _ _ hb => placeReplica_mono (fun _ _ _ _ hw => ih hk hw) hk hb) hk h

/-- A run returns one result. -/
theorem crushChooseFirstn_unique {fuel fuel' : ℕ} {μ : Store} {w w' : ℕ × Store}
    (h : crushChooseFirstn H fuel f parentR μ = .ok w)
    (h' : crushChooseFirstn H fuel' f parentR μ = .ok w') : w = w' := by
  rcases le_total fuel fuel' with hle | hle
  · exact Except.ok.inj ((crushChooseFirstn_mono hle h).symm.trans h')
  · exact Except.ok.inj (h.symm.trans (crushChooseFirstn_mono hle h'))

/-! ### The count handed on -/

/-- A search that looks for no leaves does not read `count`. -/
theorem attempt_count (hrec : f.recurseToLeaf = false) :
    attempt H f self parentR rep outpos count = attempt H f self parentR rep outpos count' := by
  funext st
  simp only [attempt, findLeaf, hrec, Bool.false_eq_true, if_false]

/-- Two states of the loop over replicas that differ in `count` only, which is positive in both
    or read no more. -/
structure SameReplica (f : FirstnInfo) (st st' : Replicas) : Prop where
  rep : st'.rep = st.rep
  outpos : st'.outpos = st.outpos
  μ : st'.μ = st.μ
  count : 0 < st.count ∧ 0 < st'.count ∨ f.numrep ≤ st.rep

/-- **A call for one replica** does not depend on `out_size`, as long as it is positive. -/
theorem crushChooseFirstn_single (fuel : ℕ) (hrec : f.recurseToLeaf = false)
    (hone : f.numrep ≤ firstRep f + 1) (hcount : 0 < count) (hcount' : 0 < count') (μ : Store) :
    crushChooseFirstn H fuel { f with outSize := count } parentR μ
      = crushChooseFirstn H fuel { f with outSize := count' } parentR μ := by
  cases fuel with
  | zero => rfl
  | succ fuel =>
    rw [crushChooseFirstn_succ, crushChooseFirstn_succ]
    refine loop_related (fun st st' => SameReplica f st st' ∧ firstRep f ≤ st.rep) ?_ ?_
      ⟨⟨rfl, rfl, rfl, Or.inl ⟨hcount, hcount'⟩⟩, le_refl (firstRep f)⟩
    · rintro st st' ⟨h, -⟩
      show Fault.mk _ st.μ = Fault.mk _ st'.μ
      rw [h.μ]
    · rintro ⟨r, o, c, μ⟩ ⟨r', o', c', μ'⟩ ⟨⟨hr, ho, hμ, hpos⟩, hlo⟩
      dsimp only at hr ho hμ hpos hlo
      subst hr ho hμ
      by_cases hrep : r' < f.numrep
      · -- The only replica: both counts are positive, and the next pass leaves the loop.
        obtain ⟨hc, hc'⟩ : 0 < c ∧ 0 < c' := hpos.resolve_right (not_le.mpr hrep)
        have hsame :
            attempt H { f with outSize := count } (crushChooseFirstn H fuel) parentR r' o' c
            = attempt H { f with outSize := count' } (crushChooseFirstn H fuel) parentR r' o' c' :=
          attempt_count (f := f) hrec
        have hnext : f.numrep ≤ r' + 1 := by omega
        simp only [placeReplica, hrep, hc, hc', and_self, if_true, hsame]
        rw [show Search.start { f with outSize := count }
          = Search.start { f with outSize := count' } from rfl]
        generalize loop attemptTimeout (attempt H { f with outSize := count' }
          (crushChooseFirstn H fuel) parentR r' o' c') fuel _ = x
        rcases x with e | ⟨_ | item, μ''⟩
        · exact .error e
        · exact .again ⟨⟨rfl, rfl, rfl, Or.inr hnext⟩, by dsimp only; omega⟩
        · exact .again ⟨⟨rfl, rfl, rfl, Or.inr hnext⟩, by dsimp only; omega⟩
      · simp only [placeReplica, hrep, false_and, if_false]
        exact .exit _

/-! ### The longer run does what the shorter one does -/

/-- The same call for `n` replicas. -/
def FirstnInfo.withReplicas (f : FirstnInfo) (n : ℤ) : FirstnInfo :=
  { f with numrep := n, outSize := n }

/-- A pass of the inner loop depends on the number of the replica and not on how many are asked
    for. -/
theorem attempt_replicas {fuel : ℕ} {n m : ℤ} (hcount : 0 < count) (hcount' : 0 < count')
    (st : Search × Store) :
    attempt H (f.withReplicas n) (crushChooseFirstn H fuel) parentR rep outpos count st
      = attempt H (f.withReplicas m) (crushChooseFirstn H fuel) parentR rep outpos count' st := by
  -- The two calls for a leaf differ in `out_size` only.
  have hcall : ∀ b r μ,
      crushChooseFirstn H fuel (leafInfo (f.withReplicas n) b outpos count) r μ
        = crushChooseFirstn H fuel (leafInfo (f.withReplicas m) b outpos count') r μ := by
    intro b r μ
    refine crushChooseFirstn_single (f := leafInfo f b outpos count) fuel rfl ?_ hcount hcount' μ
    show (if f.stable then (1 : ℤ) else outpos + 1) ≤ (if f.stable then 0 else (outpos : ℤ)) + 1
    split <;> omega
  have hleaf : ∀ r item μ,
      findLeaf (f.withReplicas n) (crushChooseFirstn H fuel) r outpos count item μ
        = findLeaf (f.withReplicas m) (crushChooseFirstn H fuel) r outpos count' item μ := by
    intro r item μ
    unfold findLeaf
    simp only [hcall]
    rfl
  unfold attempt
  simp only [hleaf]
  rfl

/-- The states of the two loops over replicas while both are running. -/
structure InStep (n m : ℤ) (st st' : Replicas) : Prop where
  rep : st'.rep = st.rep
  outpos : st'.outpos = st.outpos
  μ : st'.μ = st.μ
  count : st'.count = st.count + (m - n)

/-- **The shorter run is a beginning of the longer one.** -/
theorem replicas_appends {fuel k : ℕ} {n m : ℤ} (hnm : n ≤ m) {st st' : Replicas}
    (hstep : InStep n m st st') {w' : ℕ × Store}
    (h : loop replicasTimeout (placeReplica H (f.withReplicas m) (crushChooseFirstn H fuel) fuel
      parentR) k st' = .ok w') :
    ∃ w, loop replicasTimeout (placeReplica H (f.withReplicas n) (crushChooseFirstn H fuel) fuel
        parentR) k st = .ok w ∧
      w.1 ≤ w'.1 ∧ ∀ a, ∀ i < w.1, w'.2.cells a i = w.2.cells a i := by
  induction k generalizing st st' with
  | zero => simp [loop] at h
  | succ k ih =>
    have hself := crushChooseFirstn_spec H fuel
    obtain ⟨r, o, c, μ⟩ := st
    obtain ⟨r', o', c', μ'⟩ := st'
    obtain ⟨hr, ho, hμ, hc⟩ := hstep
    dsimp only at hr ho hμ hc
    subst hr ho hμ
    by_cases hguard : r' < n ∧ 0 < c
    · -- Both loops make this pass, and it does the same in both.
      obtain ⟨hrn, hcpos⟩ := hguard
      have hrm : r' < m := lt_of_lt_of_le hrn hnm
      have hcpos' : 0 < c' := by omega
      have hsearch : attempt H (f.withReplicas n) (crushChooseFirstn H fuel) parentR r' o' c
          = attempt H (f.withReplicas m) (crushChooseFirstn H fuel) parentR r' o' c' :=
        funext fun st => attempt_replicas hcpos hcpos' st
      obtain ⟨l, hl, hb | ⟨st'', hb, h'⟩⟩ := loop_ok h
      · unfold placeReplica at hb
        rw [if_pos ⟨hrm, hcpos'⟩] at hb
        split at hb <;> simp at hb
      obtain rfl : k = l := by omega
      obtain ⟨-, -, v, μ'', hrun, hnext⟩ := placeReplica_again hb
      have hrun' : loop attemptTimeout
          (attempt H (f.withReplicas n) (crushChooseFirstn H fuel) parentR r' o' c) fuel
          (Search.start (f.withReplicas n), μ') = .ok (v, μ'') := by
        rw [hsearch]
        exact hrun
      have hguard : r' < (f.withReplicas n).numrep ∧ c > 0 := ⟨hrn, hcpos⟩
      obtain ⟨rfl, rfl⟩ | ⟨item, rfl, rfl⟩ := hnext
      · -- The replica is skipped.
        have hstep : InStep n m ⟨r' + 1, o', c, μ''⟩ ⟨r' + 1, o', c', μ''⟩ := ⟨rfl, rfl, rfl, hc⟩
        obtain ⟨w, hw, hprefix⟩ := ih hstep h'
        refine ⟨w, (loop_again ?_).trans hw, hprefix⟩
        simp only [placeReplica, hguard, and_self, if_true, hrun']
      · have hstep : InStep n m ⟨r' + 1, o' + 1, c - 1, μ''.write f.out o' item⟩
            ⟨r' + 1, o' + 1, c' - 1, μ''.write f.out o' item⟩ :=
          ⟨rfl, rfl, rfl, by dsimp only; omega⟩
        obtain ⟨w, hw, hprefix⟩ := ih hstep h'
        refine ⟨w, (loop_again ?_).trans hw, hprefix⟩
        simp only [placeReplica, hguard, and_self, if_true, hrun']
        rfl
    · -- The shorter run stops here; the longer one leaves what is placed.
      refine ⟨(o', μ'), loop_exit ?_, ?_⟩
      · exact if_neg hguard
      · exact replicas_cells hself h

/-- **Asking for more replicas only appends.**  If the call for `m` replicas returns, the call for
    `n ≤ m` returns, with any fuel that is enough for it, the first `p` replicas and leaves of
    the other one. -/
theorem crushChooseFirstn_appends (H : CrushHash) (fuel : ℕ) (f : FirstnInfo) (parentR n m : ℤ)
    (μ μ' : Store) (p' : ℕ) (hnm : n ≤ m)
    (hrun : crushChooseFirstn H fuel (f.withReplicas m) parentR μ = .ok (p', μ')) :
    ∃ p μ'', crushChooseFirstn H fuel (f.withReplicas n) parentR μ = .ok (p, μ'') ∧
      (∀ fuel' w, crushChooseFirstn H fuel' (f.withReplicas n) parentR μ = .ok w → w = (p, μ'')) ∧
      p ≤ p' ∧ ∀ i < p, μ'.cells f.out i = μ''.cells f.out i ∧
        μ'.cells f.out2 i = μ''.cells f.out2 i := by
  cases fuel with
  | zero => simp [crushChooseFirstn] at hrun
  | succ fuel =>
    rw [crushChooseFirstn_succ] at hrun
    -- Both runs start in step, with `m - n` places more to fill in the longer one.
    have hstart : InStep n m (Replicas.start (f.withReplicas n) μ)
        (Replicas.start (f.withReplicas m) μ) :=
      ⟨rfl, rfl, rfl, by show m = n + (m - n); omega⟩
    obtain ⟨⟨p, μ''⟩, hshort, hle, hcells⟩ := replicas_appends hnm hstart hrun
    have hshort' : crushChooseFirstn H (fuel + 1) (f.withReplicas n) parentR μ = .ok (p, μ'') :=
      hshort
    exact ⟨p, μ'', hshort', fun fuel' w hw => crushChooseFirstn_unique hw hshort', hle,
      fun i hi => ⟨hcells f.out i hi, hcells f.out2 i hi⟩⟩

/-- One host and its leaf, then both hosts of the small map. -/
theorem crushChooseFirstn_appends_smallHosts :
    ∃ μ' μ'', crushChooseFirstn rjenkins 60 (smallHostsInfo.withReplicas 2) 0 zeroStore
        = .ok (2, μ') ∧
      crushChooseFirstn rjenkins 60 (smallHostsInfo.withReplicas 1) 0 zeroStore = .ok (1, μ'') ∧
      μ'.cells 1 0 = μ''.cells 1 0 ∧ μ'.cells 2 0 = μ''.cells 2 0 := by
  obtain ⟨⟨p', μ'⟩, hrun, rfl⟩ := ok_of_toOption_map (g := Prod.fst) (y := 2)
    (x := crushChooseFirstn rjenkins 60 (smallHostsInfo.withReplicas 2) 0 zeroStore)
    (by decide +kernel)
  obtain ⟨⟨p₁, μ₁⟩, hrun₁, rfl⟩ := ok_of_toOption_map (g := Prod.fst) (y := 1)
    (x := crushChooseFirstn rjenkins 60 (smallHostsInfo.withReplicas 1) 0 zeroStore)
    (by decide +kernel)
  obtain ⟨p, μ'', hshort, -, -, hcells⟩ :=
    crushChooseFirstn_appends rjenkins 60 smallHostsInfo 0 1 2 zeroStore μ' 2 (by omega) hrun
  rw [hrun₁] at hshort
  obtain ⟨rfl, rfl⟩ : 1 = p ∧ μ₁ = μ'' := by simpa using hshort
  obtain ⟨hout, hout2⟩ := hcells 0 (by omega)
  exact ⟨μ', μ₁, hrun, hrun₁, hout, hout2⟩

end MyCeph.Crush
