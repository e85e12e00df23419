import MyCeph.Crush.Eligible

namespace MyCeph.Crush

open Lib

/-!
# Taking load off an OSD that holds no replica

Two runs that differ only in a smaller reweight of device `d`.  `is_out` is monotone in
the reweight (`isOut_mono`), so a pass can only differ if `d` passes its overload test in
the first run; but then `d` is accepted, stays in the result, and the first run has
selected it.  Level by level (`attempt_reweight`, `search_reweight`,
`placeReplica_reweight`) the second run therefore repeats the first, which
`Lib.loop_agree_or` lifts through the loops.
-/

variable {H : CrushHash}

/-- A device that is out stays out when its reweight is lowered. -/
theorem isOut_mono {W W' : ℤ → UInt32} {d : ℤ} (hle : W' d ≤ W d) {weightMax x : ℤ}
    (h : isOut H W weightMax d x = true) : isOut H W' weightMax d x = true := by
  -- A device in service under `W'` is in service under the larger `W`.
  by_contra hnot
  rw [Bool.not_eq_true, isOut_eq_false_iff] at hnot
  obtain ⟨hmax, hne, hpass⟩ := hnot
  have hin : InService H W weightMax d x := by
    refine ⟨hmax, fun h0 => hne ?_, hpass.imp (fun hp => UInt32.le_trans hp hle) fun hp =>
      UInt32.lt_of_lt_of_le hp hle⟩
    exact UInt32.le_zero_iff.mp (h0 ▸ hle)
  rw [← isOut_eq_false_iff, h] at hin
  cases hin

/-- The same call under the reweight table `W`. -/
def FirstnInfo.withWeight (f : FirstnInfo) (W : ℤ → UInt32) : FirstnInfo := { f with weight := W }

/-- Position `i` of the result selects device `d`: in `out` when devices are placed, as the
    leaf in `out2` when buckets are. -/
def Selects (f : FirstnInfo) (μ : Store) (i : ℕ) (d : ℤ) : Prop :=
  (f.type = 0 ∧ μ.cells f.out i = d) ∨
    (f.type ≠ 0 ∧ f.recurseToLeaf = true ∧ μ.cells f.out2 i = d)

/-- Some position from `f.outpos` to `p` selects `d`. -/
def SelectsBelow (f : FirstnInfo) (d : ℤ) (p : ℕ) (μ : Store) : Prop :=
  ∃ i, f.outpos ≤ i ∧ i < p ∧ Selects f μ i d

/-- Selection only depends on the cells at the position. -/
theorem SelectsBelow.of_cells {f : FirstnInfo} {d : ℤ} {p p' : ℕ} {μ μ' : Store}
    (h : SelectsBelow f d p μ) (hp : p ≤ p')
    (hcells : ∀ a, ∀ j < p, μ'.cells a j = μ.cells a j) : SelectsBelow f d p' μ' := by
  obtain ⟨i, hlo, hhi, hsel⟩ := h
  refine ⟨i, hlo, lt_of_lt_of_le hhi hp, ?_⟩
  simpa only [Selects, hcells _ i hhi] using hsel

/-- The leaves of a call that places buckets go to an array of their own. -/
def OwnLeaves (f : FirstnInfo) : Prop := f.type ≠ 0 → f.recurseToLeaf = true → f.out2 ≠ f.out

/-- The table `W` lowers the reweight of `d` at most. -/
structure Lowers (W' W : ℤ → UInt32) (d : ℤ) : Prop where
  same : ∀ e, e ≠ d → W' e = W e
  le : W' d ≤ W d

/-- `self'` repeats under `W'` the runs of `self` that do not select `d`. -/
def Repeats (self self' : Firstn) (W' : ℤ → UInt32) (d : ℤ) : Prop :=
  ∀ f parentR μ p μ', f.map.WellFormed → OwnLeaves f → Lowers W' f.weight d →
    self f parentR μ = .ok (p, μ') →
    SelectsBelow f d p μ' ∨ self' (f.withWeight W') parentR μ = .ok (p, μ')

section TwoRuns

variable {f : FirstnInfo} {self self' : Firstn} {W' : ℤ → UInt32} {d parentR rep : ℤ}
  {outpos : ℕ} {count : ℤ}
variable (hself : Meets H self) (hrep : Repeats self self' W' d) (hwf : f.map.WellFormed)
  (hlow : Lowers W' f.weight d)

include hself hrep hwf hlow

/-- The leaf search repeats, or finds `d`. -/
theorem findLeaf_reweight {r item : ℤ} {μ μ' : Store} {rejected : Bool}
    (h : findLeaf f self r outpos count item μ = .ok (rejected, μ')) :
    (f.recurseToLeaf = true ∧ item < 0 ∧ rejected = false ∧ μ'.cells f.out2 outpos = d) ∨
      findLeaf (f.withWeight W') self' r outpos count item μ = .ok (rejected, μ') := by
  rcases findLeaf_ok h with ⟨hrec, rfl, rfl⟩ | ⟨hrec, hnn, rfl, rfl⟩ |
    ⟨hrec, hneg, b, p, hread, hrun, rfl⟩
  · exact Or.inr (by simp [findLeaf, FirstnInfo.withWeight, hrec])
  · exact Or.inr (by simp [findLeaf, FirstnInfo.withWeight, hrec, not_lt.mpr hnn])
  · rcases hrep (leafInfo f b outpos count) _ _ _ _ hwf (fun h0 => absurd rfl h0) hlow hrun with
      ⟨i, hlo, hhi, hsel⟩ | hrun'
    · -- The leaf search has selected `d`, and position `outpos` is its only one.
      left
      have hp := leaf_le (hself.placement hrun)
      have hlo' : outpos ≤ i := hlo
      obtain rfl : i = outpos := by omega
      refine ⟨hrec, hneg, by simpa using hhi, ?_⟩
      rcases hsel with ⟨-, hd⟩ | ⟨h0, -⟩
      · exact hd
      · exact absurd rfl h0
    · right
      have hrun'' : self' (leafInfo (f.withWeight W') b outpos count) (subR (f.withWeight W') r) μ
          = .ok (p, μ') := hrun'
      have hread' : (f.withWeight W').map.readBucket (-1 - item) = .ok b := hread
      have hrec' : (f.withWeight W').recurseToLeaf = true := hrec
      simp only [findLeaf, hrec', hneg, if_true, hread', hrun'']

omit hself hrep hwf in
/-- The verdict of an overload test repeats, unless it lets `d` in. -/
theorem isOut_reweight (item x : ℤ) :
    (item = d ∧ isOut H f.weight f.weightMax item x = false) ∨
      isOut H W' f.weightMax item x = isOut H f.weight f.weightMax item x := by
  by_cases hd : item = d
  · subst hd
    cases hout : isOut H f.weight f.weightMax item x with
    | false => exact Or.inl ⟨rfl, rfl⟩
    | true => exact Or.inr (isOut_mono hlow.le hout)
  · right
    simp only [isOut, hlow.same item hd]

/-- What shows that a search has let `d` in. -/
def LetsIn (f : FirstnInfo) (d : ℤ) (outpos : ℕ) (w : Verdict × Store) : Prop :=
  ∃ item, w.1 = .accept item ∧ ((f.type = 0 ∧ item = d) ∨
    (f.type ≠ 0 ∧ f.recurseToLeaf = true ∧ w.2.cells f.out2 outpos = d))

/-- **One pass repeats**, or lets `d` in. -/
theorem attempt_reweight {st : Search × Store} {nx : Next (Search × Store) (Verdict × Store)}
    (h : attempt H f self parentR rep outpos count st = .ok nx) :
    (∃ w, nx = .exit w ∧ LetsIn f d outpos w) ∨
      attempt H (f.withWeight W') self' parentR rep outpos count st = .ok nx := by
  have hdraw : ∀ cur r, drawItem H (f.withWeight W') cur r outpos = drawItem H f cur r outpos :=
    fun _ _ => rfl
  unfold attempt at h ⊢
  dsimp only at h ⊢
  rw [hdraw]
  split at h
  · simp at h
  · exact Or.inr h
  · exact Or.inr h
  · exact Or.inr h
  rename_i item hitem
  obtain ⟨-, -, -, htype⟩ := drawItem_candidate hitem
  -- The collision scan does not look at the reweight table.
  split at h
  · rename_i hcol
    rw [if_pos (by exact hcol)]
    exact Or.inr h
  rename_i hcol
  rw [if_neg (by exact hcol)]
  split at h
  · simp at h
  rename_i rejected μ₁ hleaf
  rcases findLeaf_reweight hself hrep hwf hlow hleaf with ⟨hrec, hneg, rfl, hd⟩ | hleaf'
  · -- The leaf is `d`: the item is a bucket and is accepted.
    left
    have hne : f.type ≠ 0 := by
      intro h0
      have := OfType.device hwf (h0 ▸ htype)
      omega
    simp only [Bool.false_or, Bool.and_eq_true, beq_iff_eq, hne, false_and, if_false] at h
    cases h
    exact ⟨_, rfl, item, rfl, Or.inr ⟨hne, hrec, hd⟩⟩
  · rw [hleaf']
    dsimp only
    by_cases h0 : f.type = 0
    · rcases isOut_reweight (H := H) hlow item f.x with ⟨rfl, hin⟩ | heq
      · -- The device is `d` and passes the test: it is accepted unless it was rejected before.
        cases rejected with
        | true => exact Or.inr h
        | false =>
          simp only [hin, Bool.and_false, Bool.or_false, Bool.false_eq_true, if_false] at h
          cases h
          exact Or.inl ⟨_, rfl, item, rfl, Or.inl ⟨h0, rfl⟩⟩
      · have heq' : isOut H (f.withWeight W').weight (f.withWeight W').weightMax item
          (f.withWeight W').x = isOut H f.weight f.weightMax item f.x := heq
        rw [heq']
        exact Or.inr h
    · -- Buckets are not tested for overload.
      have hb : (f.type == 0) = false := by simpa using h0
      have hb' : ((f.withWeight W').type == 0) = false := hb
      rw [hb, Bool.false_and] at h
      rw [hb', Bool.false_and]
      exact Or.inr h

/-- **A search repeats**, or lets `d` in. -/
theorem search_reweight {n : ℕ} {st : Search × Store} {w : Verdict × Store}
    (h : loop attemptTimeout (attempt H f self parentR rep outpos count) n st = .ok w) :
    LetsIn f d outpos w ∨
      loop attemptTimeout (attempt H (f.withWeight W') self' parentR rep outpos count) n st
        = .ok w := by
  refine loop_agree_or (fun _ => True) (fun _ => False) (LetsIn f d outpos) (fun _ _ _ _ => trivial)
    ?_ ?_ (fun _ _ _ hF _ => hF) (fun _ _ _ hF _ => hF.elim) trivial h
  · intro s s' _ hb
    rcases attempt_reweight hself hrep hwf hlow hb with ⟨w, hw, -⟩ | hb'
    · simp at hw
    · exact Or.inr hb'
  · intro s w _ hb
    rcases attempt_reweight hself hrep hwf hlow hb with ⟨w', hw, hin⟩ | hb'
    · cases hw; exact Or.inl hin
    · exact Or.inr hb'

/-- **A replica repeats**, or selects `d`. -/
theorem placeReplica_reweight (hown : OwnLeaves f) {fuel : ℕ} {st st' : Replicas}
    (hlo : f.outpos ≤ st.outpos)
    (h : placeReplica H f self fuel parentR st = .ok (.again st')) :
    SelectsBelow f d st'.outpos st'.μ ∨
      placeReplica H (f.withWeight W') self' fuel parentR st = .ok (.again st') := by
  obtain ⟨hr, hc, v, μ₁, hsearch, hcase⟩ := placeReplica_again h
  have hguard : st.rep < (f.withWeight W').numrep ∧ st.count > 0 := ⟨hr, hc⟩
  have hstart : Search.start (f.withWeight W') = Search.start f := rfl
  rcases search_reweight hself hrep hwf hlow hsearch with ⟨item, hv, hin⟩ | hsearch'
  · -- The search has let `d` in, at position `st.outpos`, where it stays.
    left
    rcases hcase with ⟨rfl, -⟩ | ⟨item', rfl, rfl⟩
    · simp at hv
    obtain rfl : item' = item := by cases hv; rfl
    refine ⟨st.outpos, hlo, Nat.lt_succ_self _, ?_⟩
    rcases hin with ⟨h0, rfl⟩ | ⟨h0, hrec, hd⟩
    · exact Or.inl ⟨h0, Store.write_cells_self _ _ _ _⟩
    · refine Or.inr ⟨h0, hrec, ?_⟩
      rw [← hd]
      exact Store.write_cells_of_ne _ _ fun h => hown h0 hrec h.1
  · right
    unfold placeReplica
    rw [if_pos hguard, hstart, hsearch']
    rcases hcase with ⟨rfl, rfl⟩ | ⟨item, rfl, rfl⟩
    · rfl
    · rfl

end TwoRuns

/-- **A run repeats**, or selects `d`. -/
theorem crushChooseFirstn_repeats (H : CrushHash) (W' : ℤ → UInt32) (d : ℤ) (fuel : ℕ) :
    Repeats (crushChooseFirstn H fuel) (crushChooseFirstn H fuel) W' d := by
  induction fuel with
  | zero => intro f parentR μ p μ' _ _ _ h; cases h
  | succ fuel ih =>
    intro f parentR μ p μ' hwf hown hlow h
    have hself := crushChooseFirstn_spec H fuel
    -- A pass repeats until one selects `d`, and a selection is never lost again.
    refine loop_agree_or (fun st => f.outpos ≤ st.outpos)
      (fun st => SelectsBelow f d st.outpos st.μ) (fun w => SelectsBelow f d w.1 w.2)
      ?_ ?_ ?_ ?_ ?_ (le_refl _) h
    · exact fun st st' hlo hb => le_trans hlo (placeReplica_cells hself hb).1
    · exact fun st st' hlo hb => placeReplica_reweight hself ih hwf hlow hown hlo hb
    · intro st w hlo hb
      right
      unfold placeReplica at hb ⊢
      split at hb
      · split at hb <;> cases hb
      · rename_i hguard
        rw [if_neg (by exact hguard)]
        exact hb
    · intro st st' hlo hsel hb
      obtain ⟨hle, hcells⟩ := placeReplica_cells hself hb
      exact hsel.of_cells hle hcells
    · intro st w hlo hsel hb
      rw [placeReplica_exit hb]
      exact hsel

/-- **Taking load off an OSD that holds no replica moves nothing.** -/
theorem crushChooseFirstn_reweight (H : CrushHash) (fuel : ℕ) (f : FirstnInfo) (parentR : ℤ)
    (W' : ℤ → UInt32) (d : ℤ) (μ μ' : Store) (p : ℕ) (hwf : f.map.WellFormed)
    (hown : OwnLeaves f) (hlow : Lowers W' f.weight d)
    (hrun : crushChooseFirstn H fuel f parentR μ = .ok (p, μ'))
    (hnot : ∀ i, f.outpos ≤ i → i < p → ¬ Selects f μ' i d) :
    crushChooseFirstn H fuel (f.withWeight W') parentR μ = .ok (p, μ') := by
  rcases crushChooseFirstn_repeats H W' d fuel f parentR μ p μ' hwf hown hlow hrun with
    ⟨i, hlo, hhi, hsel⟩ | hrun'
  · exact absurd hsel (hnot i hlo hhi)
  · exact hrun'

/-- OSD 2 of the small map holds no replica of object 222 and can be marked out. -/
theorem crushChooseFirstn_reweight_smallMap :
    ∃ μ', crushChooseFirstn rjenkins 60 smallInfo 0 zeroStore = .ok (3, μ') ∧
      crushChooseFirstn rjenkins 60
        (smallInfo.withWeight fun d => if d = 2 then 0 else 0x10000) 0 zeroStore = .ok (3, μ') := by
  obtain ⟨⟨p, μ'⟩, hrun, hres⟩ := ok_of_toOption_map
    (g := fun r : ℕ × Store => (r.1, r.2.cells 1 0, r.2.cells 1 1, r.2.cells 1 2))
    (y := (3, 3, 1, 0)) (x := crushChooseFirstn rjenkins 60 smallInfo 0 zeroStore)
    (by decide +kernel)
  obtain ⟨rfl, h0, h1, h2⟩ : p = 3 ∧ μ'.cells 1 0 = 3 ∧ μ'.cells 1 1 = 1 ∧ μ'.cells 1 2 = 0 := by
    simpa using hres
  refine ⟨μ', hrun, crushChooseFirstn_reweight rjenkins 60 smallInfo 0 _ 2 zeroStore μ' 3
    smallMap_wellFormed (fun h => absurd rfl h) ⟨fun e he => if_neg he, by decide⟩ hrun ?_⟩
  rintro i - hi (⟨-, hsel⟩ | ⟨hne, -⟩)
  · have hsel' : μ'.cells 1 i = 2 := hsel
    obtain rfl | rfl | rfl : i = 0 ∨ i = 1 ∨ i = 2 := by omega
    all_goals omega
  · exact hne rfl

end MyCeph.Crush
