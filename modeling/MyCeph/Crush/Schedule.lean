import MyCeph.Crush.GiveUp
import MyCeph.Crush.Separation

namespace MyCeph.Crush

open Lib

/-!
# Which schedules repeat the sequential placement

For devices (type 0) a pass of the search does not need the store but for the collision
scan: `devicePass` takes the verdict of the scan as a parameter.  The sequential
search for slot `k` is a loop of such passes whose scans look at the items placed before
(`replicas_slots`).

A worker repeats that search as long as its own scans give the same verdicts
(`scanAgrees`): then `FollowsAt` is an invariant, and the three workers together publish
the sequential result.  A worker whose scan misses a collision goes on to publish the item
(`Keeps`), so that the result is another one (`doWork_sequential`).  Scans agree when the slots
before the worker's own have been published (`doWork_ordered`); one that comes too early lets
two workers publish one device (`early_scan_duplicates`).
-/

variable {H : CrushHash} {f : FirstnInfo}

/-! ### Passes without a store -/

/-- `item` is one of the first `k` entries. -/
def among (seq : ℕ → ℤ) (k : ℕ) (item : ℤ) : Bool := (List.range k).any fun i => seq i == item

/-- The scan, as a search among the cells. -/
theorem collides_eq_among (μ : Store) (out outpos : ℕ) (item : ℤ) :
    collides μ out outpos item = among (μ.cells out) outpos item := rfl

/-- It depends on the cells before the position only. -/
theorem among_congr {seq seq' : ℕ → ℤ} {k : ℕ} (h : ∀ j < k, seq' j = seq j) (item : ℤ) :
    among seq' k item = among seq k item := by
  unfold among
  rw [Bool.eq_iff_iff, List.any_eq_true, List.any_eq_true]
  refine exists_congr fun j => and_congr_right fun hj => ?_
  rw [h j (List.mem_range.mp hj)]

/-- The code at `reject:`, without the store. -/
def retry (f : FirstnInfo) (collide : Bool) (s : Search) : Next Search Verdict :=
  match s.rejected f collide with
  | some s' => .again s'
  | none => .exit .skip

/-- What `reject:` does to the search does not depend on the store. -/
theorem reject_map (collide : Bool) (s : Search) (μ : Store) :
    (reject f collide s μ).map Prod.fst Prod.fst = retry f collide s := by
  unfold reject retry
  cases s.rejected f collide <;> rfl

/-- One pass through the inner loop in search of a device. -/
def devicePass (H : CrushHash) (f : FirstnInfo) (collided : ℤ → Bool) (rep parentR : ℤ)
    (position : ℕ) (s : Search) : Except Stop (Next Search Verdict) :=
  match drawItem H f s.cur (randomFactor rep parentR s.ftotal) position with
  | .error e => .error e
  | .ok .empty => .ok (retry f false s)
  | .ok (.skip _) => .ok (.exit .skip)
  | .ok (.descend _ b) => .ok (.again { s with cur := b })
  | .ok (.candidate item) =>
    if collided item then .ok (retry f true s)
    else if isOut H f.weight f.weightMax item f.x then .ok (retry f false s)
    else .ok (.exit (.accept item))

/-- A search for a device that has used up its fuel. -/
def deviceTimeout (_ : Search) : Stop := .timeout

/-- The search for a device only needs the store for its collision scan. -/
theorem attempt_device (hwf : f.map.WellFormed) (htype : f.type = 0) {self : Firstn}
    {parentR rep : ℤ} {outpos : ℕ} {count : ℤ} {st : Search × Store} {collided : ℤ → Bool}
    {nx : Next (Search × Store) (Verdict × Store)}
    (hcol : ∀ item, collides st.2 f.out outpos item = collided item)
    (h : attempt H f self parentR rep outpos count st = .ok nx) :
    devicePass H f collided rep parentR outpos st.1 = .ok (nx.map Prod.fst Prod.fst) := by
  unfold attempt at h
  dsimp only at h
  split at h
  · simp at h
  · rename_i hdraw
    cases h
    unfold devicePass
    rw [hdraw, reject_map]
  · rename_i hdraw
    cases h
    unfold devicePass
    rw [hdraw]
    rfl
  · rename_i hdraw
    cases h
    unfold devicePass
    rw [hdraw]
    rfl
  · rename_i item hdraw
    unfold devicePass
    rw [hdraw]
    have hnn : 0 ≤ item := OfType.device hwf (htype ▸ (drawItem_candidate hdraw).2.2.2)
    have hcol' : collides (st.2.visit st.1.cur) f.out outpos item = collided item := hcol item
    -- A device is its own leaf, so the leaf search does not reject.
    have hleaf : ∀ {rejected μ'}, findLeaf f self (randomFactor rep parentR st.1.ftotal) outpos
        count item (st.2.visit st.1.cur) = .ok (rejected, μ') → rejected = false := by
      intro rejected μ' hok
      rcases findLeaf_ok hok with ⟨-, hrej, -⟩ | ⟨-, -, hrej, -⟩ | ⟨-, hneg, -⟩
      · exact hrej
      · exact hrej
      · omega
    rw [hcol'] at h
    dsimp only
    split at h
    · rename_i hc
      cases h; rw [if_pos hc, reject_map]
    · rename_i hc
      rw [if_neg hc]
      split at h
      · simp at h
      · rename_i rejected μ' hok
        obtain rfl := hleaf hok
        simp only [Bool.false_or, htype, beq_self_eq_true, Bool.true_and] at h
        split at h
        · rename_i hout
          cases h; rw [if_pos hout, reject_map]
        · rename_i hout
          cases h; rw [if_neg hout]; rfl

/-! ### The sequential search, slot by slot -/

/-- The search for slot `k` of the sequential algorithm, among the items of `seq`. -/
def slotPass (H : CrushHash) (f : FirstnInfo) (seq : ℕ → ℤ) (k : ℕ) :
    Search → Except Stop (Next Search Verdict) :=
  devicePass H f (among seq k) k 0 k

/-- The search for slot `k` finds the item of `seq`. -/
def FindsSlot (H : CrushHash) (f : FirstnInfo) (seq : ℕ → ℤ) (k : ℕ) (s : Search) : Prop :=
  Yields deviceTimeout (slotPass H f seq k) s (.accept (seq k))

variable {self : Firstn} {parentR rep : ℤ} {outpos : ℕ} {count : ℤ}

/-- For devices the search does not need the store but for the cells it scans. -/
theorem search_project (hself : Meets H self) (hwf : f.map.WellFormed) (htype : f.type = 0)
    {seq : ℕ → ℤ} {n : ℕ} {μ : Store} {w : Verdict × Store}
    (hseq : ∀ j < outpos, μ.cells f.out j = seq j)
    (h : loop attemptTimeout (attempt H f self parentR rep outpos count) n (Search.start f, μ)
      = .ok w) :
    loop deviceTimeout (devicePass H f (among seq outpos) rep parentR outpos) n (Search.start f)
      = .ok w.1 := by
  -- The scans look at cells before `outpos`, which the search leaves alone.
  refine loop_project Prod.fst Prod.fst (Searching H f outpos μ)
    (fun _ _ hs hb => hs.step hself hb) (fun st nx hs hb => ?_) (Searching.start μ) h
  refine attempt_device hwf htype (fun item => ?_) hb
  rw [collides_eq_among]
  exact among_congr (fun j hj => (search_cells hs.2 f.out hj).trans (hseq j hj)) item

/-- A run that has skipped a replica returns less than `numrep`. -/
theorem replicas_skipped {fuel n : ℕ} {st : Replicas} {w : ℕ × Store}
    (hlt : (st.outpos : ℤ) < st.rep) (hle : st.rep ≤ f.numrep)
    (h : loop replicasTimeout (placeReplica H f self fuel parentR) n st = .ok w) :
    (w.1 : ℤ) < f.numrep := by
  refine loop_rule (fun st : Replicas => (st.outpos : ℤ) < st.rep ∧ st.rep ≤ f.numrep)
    (fun w => (w.1 : ℤ) < f.numrep) ?_ ?_ ⟨hlt, hle⟩ h
  · rintro st st' ⟨hlt, hle⟩ hb
    obtain ⟨hr, -, v, μ', -, ⟨-, rfl⟩ | ⟨item, -, rfl⟩⟩ := placeReplica_again hb
    all_goals
      dsimp only
      omega
  · rintro st w ⟨hlt, hle⟩ hb
    rw [placeReplica_exit hb]
    omega

/-- **The sequential search, slot by slot.**  A run that returns `numrep` has found each item
    by a search among the items before it. -/
theorem replicas_slots (hself : Meets H self) (hwf : f.map.WellFormed) (htype : f.type = 0)
    {fuel n : ℕ} {st : Replicas} {w : ℕ × Store} (hrep : st.rep = st.outpos)
    (hw : (w.1 : ℤ) = f.numrep)
    (h : loop replicasTimeout (placeReplica H f self fuel 0) n st = .ok w) :
    ∀ k, st.outpos ≤ k → k < w.1 → FindsSlot H f (w.2.cells f.out) k (Search.start f) := by
  induction n generalizing st with
  | zero => cases h
  | succ n ih =>
    intro k hlo hhi
    obtain ⟨m, hm, hb | ⟨st', hb, h'⟩⟩ := loop_ok h
    · rw [placeReplica_exit hb] at hhi
      exact absurd hhi (not_lt.mpr hlo)
    obtain rfl : n = m := by omega
    obtain ⟨hr, -, v, μ', hsearch, ⟨-, rfl⟩ | ⟨item, rfl, rfl⟩⟩ := placeReplica_again hb
    · -- A skipped replica leaves too few for `numrep`.
      have := replicas_skipped (by dsimp only; omega) (by dsimp only; omega) h'
      omega
    · rcases Nat.eq_or_lt_of_le hlo with rfl | hlt
      · -- This pass has placed slot `k`, and later passes leave it alone.
        obtain ⟨-, hcells⟩ := replicas_cells hself h'
        have hitem : w.2.cells f.out st.outpos = item := by
          rw [hcells f.out _ (Nat.lt_succ_self _)]
          exact Store.write_cells_self _ _ _ _
        have hbelow : ∀ j < st.outpos, st.μ.cells f.out j = w.2.cells f.out j := by
          intro j hj
          rw [hcells f.out j (Nat.lt_succ_of_lt hj)]
          dsimp only
          rw [Store.write_cells_of_ne _ _ (by omega),
            search_cells (search_spec hself hsearch).1 f.out hj]
        have hproj := search_project hself hwf htype hbelow hsearch
        rw [hrep] at hproj
        exact ⟨fuel, by rw [hitem]; exact hproj⟩
      · exact ih (by dsimp only; omega) h' k hlt hhi

/-- The slots of a call for three devices. -/
theorem sequential_slots (hwf : f.map.WellFormed) (htype : f.type = 0) (hstable : f.stable = true)
    (hnumrep : f.numrep = 3) (houtpos : f.outpos = 0) {fuel : ℕ} {μ₀ μ₁ : Store}
    (hseq : crushChooseFirstn H fuel f 0 μ₀ = .ok (3, μ₁)) :
    ∀ k < 3, FindsSlot H f (μ₁.cells f.out) k (Search.start f) := by
  cases fuel with
  | zero => cases hseq
  | succ fuel =>
    intro k hk
    rw [crushChooseFirstn_succ] at hseq
    have hrep : (Replicas.start f μ₀).rep = (Replicas.start f μ₀).outpos := by
      simp only [Replicas.start, firstRep, hstable, if_true, houtpos, Nat.cast_zero]
    exact replicas_slots (crushChooseFirstn_spec H fuel) hwf htype hrep
      (by rw [hnumrep]; rfl) hseq k (by simp only [Replicas.start, houtpos, Nat.zero_le]) hk

/-! ### A worker that repeats the search for its slot -/

/-- Between the draw of an item and its acceptance. -/
structure Judging (H : CrushHash) (f : FirstnInfo) (seq : ℕ → ℤ) (k : ℕ) (w : Worker) : Prop where
  drawn : drawItem H f w.search.cur (randomFactor k 0 w.search.ftotal) k
    = .ok (.candidate w.item)
  finds : FindsSlot H f seq k w.search

/-- Worker `k` is at a point of the sequential search for slot `k`, or has found its item. -/
def FollowsAt (H : CrushHash) (f : FirstnInfo) (seq : ℕ → ℤ) (k : ℕ) (sh : Shared) (w : Worker) :
    Prop :=
  match w.pc with
  | .start => True
  | .draw => w.rep = 0 ∧ FindsSlot H f seq k w.search
  | .scan => w.rep = 0 ∧ Judging H f seq k w
  | .writeOut2 | .test => w.rep = 0 ∧ Judging H f seq k w ∧ among seq k w.item = false
  | .publish => w.item = seq k
  | .done => sh.μ.cells f.out k = seq k
  | _ => False

/-- A worker has `rep = 0` and its own number as `parent_r`, which gives the same draws. -/
theorem randomFactor_worker (k : ℕ) (ftotal : UInt32) :
    randomFactor 0 k ftotal = randomFactor k 0 ftotal := by
  unfold randomFactor
  rw [Int.zero_add, Int.add_zero]

/-- Without replacement weights the position does not matter. -/
theorem drawItem_position (hargs : f.chooseArgs = none) (cur : CrushBucket) (r : ℤ) (i j : ℕ) :
    drawItem H f cur r i = drawItem H f cur r j := by
  have hitem : chooseItem H f.x f.chooseArgs cur r i = chooseItem H f.x f.chooseArgs cur r j := by
    rw [hargs]; rfl
  simp only [drawItem, hitem]

variable {glob : Globals} {seq : ℕ → ℤ} {k : ℕ} {sh sh' : Shared} {w w' : Worker}

/-- A rejection goes on with the search, which would not have found its item otherwise. -/
theorem FindsSlot.reject {collide : Bool} (h : FindsSlot H f seq k w.search) (hrep : w.rep = 0)
    (hpass : slotPass H f seq k w.search = .ok (retry f collide w.search)) :
    FollowsAt H f seq k sh (w.reject f collide) := by
  unfold retry at hpass
  unfold Worker.reject
  cases hs : w.search.rejected f collide with
  | none =>
    rw [hs] at hpass
    exact absurd (h.of_exit hpass) (by simp)
  | some s =>
    rw [hs] at hpass
    exact ⟨hrep, h.of_again hpass⟩

/-- What a pass does with the item being judged. -/
theorem Judging.pass (h : Judging H f seq k w) : slotPass H f seq k w.search =
    if among seq k w.item then .ok (retry f true w.search)
    else if isOut H f.weight f.weightMax w.item f.x then .ok (retry f false w.search)
    else .ok (.exit (.accept w.item)) := by
  simp only [slotPass, devicePass, h.drawn]

section Follow

variable (hwf : f.map.WellFormed) (htype : f.type = 0) (hstable : f.stable = true)
  (hargs : f.chooseArgs = none) (hfinds : FindsSlot H f seq k (Search.start f))

include hwf htype hstable hargs hfinds

/-- **Step lemma of a worker** whose scan and overload test agree with the sequential ones. -/
theorem FollowsAt.step (h : FollowsAt H f seq k sh w) (hs : WorkStep H glob f k k sh w sh' w')
    (hscan : w.pc = .scan → collides sh.μ f.out k w.item = among seq k w.item)
    (htest : w.pc = .test → isOut H f.weight glob.weightMax w.item f.x
      = isOut H f.weight f.weightMax w.item f.x) : FollowsAt H f seq k sh' w' := by
  unfold FollowsAt at h
  have hdraw : ∀ {d}, w.pc = .draw → drawItem H f w.search.cur
      (randomFactor w.rep k w.search.ftotal) sh.outpos = d →
      w.rep = 0 ∧ FindsSlot H f seq k w.search ∧
        drawItem H f w.search.cur (randomFactor k 0 w.search.ftotal) k = d := by
    intro d hpc hd
    rw [hpc] at h
    rw [h.1, randomFactor_worker, drawItem_position hargs _ _ _ k] at hd
    exact ⟨h.1, h.2, hd⟩
  cases hs with
  | start hpc =>
    unfold FollowsAt
    dsimp only
    rw [if_pos hstable]
    exact ⟨rfl, hfinds⟩
  | drawFault e hpc hd =>
    obtain ⟨-, hf, hd⟩ := hdraw hpc hd
    have hpass : slotPass H f seq k w.search = .error e := by simp only [slotPass, devicePass, hd]
    exact absurd hpass hf.not_error
  | drawEmpty hpc hd =>
    obtain ⟨hrep, hf, hd⟩ := hdraw hpc hd
    exact hf.reject hrep (by simp only [slotPass, devicePass, hd])
  | drawSkip item hpc hd =>
    -- The sequential search would have skipped the replica as well, but it found an item.
    obtain ⟨-, hf, hd⟩ := hdraw hpc hd
    have hpass : slotPass H f seq k w.search = .ok (.exit .skip) := by
      simp only [slotPass, devicePass, hd]
    exact absurd (hf.of_exit hpass) (by simp)
  | descend item b hpc hd =>
    obtain ⟨hrep, hf, hd⟩ := hdraw hpc hd
    unfold FollowsAt
    dsimp only
    rw [hpc]
    exact ⟨hrep, hf.of_again (by simp only [slotPass, devicePass, hd])⟩
  | candidate item hpc hd =>
    obtain ⟨hrep, hf, hd⟩ := hdraw hpc hd
    exact ⟨hrep, hd, hf⟩
  | collide hpc hcol =>
    have hyes : among seq k w.item = true := (hscan hpc).symm.trans hcol
    rw [hpc] at h
    exact h.2.finds.reject h.1 (by rw [h.2.pass, if_pos hyes])
  | noCollide hpc hcol =>
    have hno : among seq k w.item = false := (hscan hpc).symm.trans hcol
    rw [hpc] at h
    have hnn : ¬ w.item < 0 := not_lt.mpr
      (OfType.device hwf (htype ▸ (drawItem_candidate h.2.drawn).2.2.2))
    unfold FollowsAt
    dsimp only
    rw [if_neg hnn]
    by_cases hrec : f.recurseToLeaf = true
    · rw [if_pos hrec]
      exact ⟨h.1, ⟨h.2.drawn, h.2.finds⟩, hno⟩
    · rw [if_neg hrec]
      exact ⟨h.1, ⟨h.2.drawn, h.2.finds⟩, hno⟩
  | leafFault e μ hpc | leafMove c μ hpc =>
    rcases hpc with hpc | ⟨c, hpc⟩ <;> rw [hpc] at h <;> exact h.elim
  | leafEnd p μ hpc =>
    obtain ⟨c, hpc⟩ := hpc
    rw [hpc] at h; exact h.elim
  | noLeafFound p hpc hp | leafFound p hpc hp => rw [hpc] at h; exact h.elim
  | writeOut2 hpc =>
    rw [hpc] at h
    exact ⟨h.1, ⟨h.2.1.drawn, h.2.1.finds⟩, h.2.2⟩
  | out hpc htype hout =>
    have hout' := (htest hpc).symm.trans hout
    rw [hpc] at h
    exact h.2.1.finds.reject h.1
      (by rw [h.2.1.pass, h.2.2, if_neg Bool.false_ne_true, if_pos hout'])
  | accept hpc hin =>
    have hin' := (htest hpc).symm.trans (hin htype)
    rw [hpc] at h
    have hpass := h.2.1.pass
    rw [h.2.2, hin', if_neg Bool.false_ne_true, if_neg Bool.false_ne_true] at hpass
    exact (Verdict.accept.inj (h.2.1.finds.of_exit hpass)).symm
  | publish hpc =>
    rw [hpc] at h
    exact (Store.write_cells_self _ _ _ _).trans h

end Follow

/-- A worker on its way only writes to its own slot. -/
theorem FollowsAt.cells_eq (h : FollowsAt H f seq k sh w)
    (hs : WorkStep H glob f k k sh w sh' w') (a : ℕ) {j : ℕ} (hj : j ≠ k) :
    sh'.μ.cells a j = sh.μ.cells a j := by
  unfold FollowsAt at h
  cases hs with
  | leafFault e μ hpc | leafMove c μ hpc =>
    rcases hpc with hpc | ⟨c, hpc⟩ <;> rw [hpc] at h <;> exact h.elim
  | leafEnd p μ hpc =>
    obtain ⟨c, hpc⟩ := hpc
    rw [hpc] at h; exact h.elim
  | writeOut2 hpc => exact sh.μ.write_cells_of_ne _ fun hk => hj hk.2
  | publish hpc => exact sh.μ.write_cells_of_ne _ fun hk => hj hk.2
  | _ => rfl

/-- Writes to other slots do not disturb a worker. -/
theorem FollowsAt.frame (h : FollowsAt H f seq k sh w)
    (hcell : sh'.μ.cells f.out k = sh.μ.cells f.out k) : FollowsAt H f seq k sh' w := by
  unfold FollowsAt at h ⊢
  split at h
  case h_7 => exact hcell.trans h
  all_goals exact h

/-! ### Runs of the three workers -/

/-- Worker `k`, when about to scan, gets the verdict of the sequential scan: its item collides
    in `out[0..k)` exactly if it is one of the first `k` items of `seq`. -/
def scanAgrees (f : FirstnInfo) (seq : ℕ → ℤ) (s : Par) (k : Fin 3) : Bool :=
  match (s.w k).pc with
  | .scan => collides s.sh.μ f.out k (s.w k).item == among seq k (s.w k).item
  | _ => true

/-- Worker `k`, when about to test for overload, gets the same verdict with the global
    `weight_max` as with `firstn->weight_max`. -/
def testAgrees (H : CrushHash) (glob : Globals) (f : FirstnInfo) (s : Par) (k : Fin 3) : Bool :=
  match (s.w k).pc with
  | .test => isOut H f.weight glob.weightMax (s.w k).item f.x
      == isOut H f.weight f.weightMax (s.w k).item f.x
  | _ => true

/-- The condition looks at three cells. -/
theorem scanAgrees_congr {seq' : ℕ → ℤ} (h : ∀ j < 3, seq' j = seq j) (s : Par) (k : Fin 3) :
    scanAgrees f seq' s k = scanAgrees f seq s k := by
  unfold scanAgrees
  rw [among_congr fun j hj => h j (lt_trans hj k.isLt)]

/-- With one `weight_max` every overload test agrees. -/
theorem testAgrees_of_weightMax (hmax : glob.weightMax = f.weightMax) (s : Par) (k : Fin 3) :
    testAgrees H glob f s k = true := by
  unfold testAgrees
  split
  · rw [hmax]; exact beq_self_eq_true _
  · rfl

/-- Every worker follows the search for its slot. -/
def FollowAll (H : CrushHash) (f : FirstnInfo) (seq : ℕ → ℤ) (s : Par) : Prop :=
  ∀ k : Fin 3, FollowsAt H f seq k s.sh (s.w k)

/-- A scan behind the publications of the earlier slots agrees. -/
theorem scanAgrees_of_done {s : Par} {k : Fin 3} (h : FollowAll H f seq s)
    (hdone : (s.w k).pc = .scan → ∀ j : Fin 3, j < k → (s.w j).pc = .done) :
    scanAgrees f seq s k = true := by
  unfold scanAgrees
  split
  case h_2 => rfl
  rename_i hscan
  rw [collides_eq_among, beq_iff_eq]
  apply among_congr
  intro j hj
  -- Worker `j` is done, and what it has published is the item of the sequence.
  have hj3 : j < 3 := lt_trans hj k.isLt
  have hfollow := h ⟨j, hj3⟩
  unfold FollowsAt at hfollow
  rw [hdone hscan ⟨j, hj3⟩ hj] at hfollow
  exact hfollow

/-- **Step lemma of the three workers.** -/
theorem FollowAll.step (hwf : f.map.WellFormed) (htype : f.type = 0) (hstable : f.stable = true)
    (hargs : f.chooseArgs = none) (hfinds : ∀ k < 3, FindsSlot H f seq k (Search.start f))
    {s s' : Par} {k : Fin 3} (h : FollowAll H f seq s) (hscan : scanAgrees f seq s k = true)
    (htest : testAgrees H glob f s k = true) (hs : parStep H glob f s k = some s') :
    FollowAll H f seq s' := by
  obtain ⟨w, hstep, hw⟩ := parStep_step hs
  intro j
  rw [hw]
  -- Worker `k` follows by its own step; the others see no change in their places.
  by_cases hj : j = k
  · subst hj
    rw [Function.update_self]
    refine (h j).step hwf htype hstable hargs (hfinds j j.isLt) hstep (fun hpc => ?_)
      fun hpc => ?_
    · rw [scanAgrees, hpc] at hscan
      exact beq_iff_eq.mp hscan
    · rw [testAgrees, hpc] at htest
      exact beq_iff_eq.mp htest
  · rw [Function.update_of_ne hj]
    exact (h j).frame ((h k).cells_eq hstep f.out fun hjk => hj (Fin.ext hjk))

/-- **Run lemma of the three workers.**  They end up with the items of `seq` if the verdicts of
    every step agree, which may be shown from the states in which all workers follow. -/
theorem follow_run (hwf : f.map.WellFormed) (htype : f.type = 0) (hstable : f.stable = true)
    (hargs : f.chooseArgs = none) (hfinds : ∀ k < 3, FindsSlot H f seq k (Search.start f))
    {μ : Store} {tr : List (Par × Fin 3)} {s : Par}
    (hrun : Run (parStep H glob f) (Par.init f μ) tr s)
    (hgood : ∀ p ∈ tr, FollowAll H f seq p.1 →
      scanAgrees f seq p.1 p.2 = true ∧ testAgrees H glob f p.1 p.2 = true)
    (hout : s.sh.outpos = 3) : ∀ k < 3, s.sh.μ.cells f.out k = seq k := by
  have hinit : FollowAll H f seq (Par.init f μ) := fun _ => trivial
  have hall : FollowAll H f seq s := by
    refine hrun.invariant (FollowAll H f seq) (fun s k => FollowAll H f seq s →
      scanAgrees f seq s k = true ∧ testAgrees H glob f s k = true) hinit ?_ hgood
    intro s k s' hI hG hs
    obtain ⟨hscan, htest⟩ := hG hI
    exact hI.step hwf htype hstable hargs hfinds hscan htest hs
  intro k hk
  have hk' := hall ⟨k, hk⟩
  unfold FollowsAt at hk'
  rw [done_of_outpos hrun hout ⟨k, hk⟩] at hk'
  exact hk'

/-! ### Missed collisions -/

/-- Worker `k`, about to scan, misses a collision: its item is one of the first `k` items of
    `seq`, and `out[0..k)` does not hold it. -/
def missesCollision (f : FirstnInfo) (seq : ℕ → ℤ) (s : Par) (k : Fin 3) : Bool :=
  match (s.w k).pc with
  | .scan => among seq k (s.w k).item && !collides s.sh.μ f.out k (s.w k).item
  | _ => false

/-- Worker `k` has got past its scan with item `v`, or has published it. -/
def Keeps (f : FirstnInfo) (v : ℤ) (k : ℕ) (sh : Shared) (w : Worker) : Prop :=
  match w.pc with
  | .writeOut2 | .test | .publish => w.item = v
  | .done => sh.μ.cells f.out k = v
  | _ => False

/-- A device in service that has got past the scan is published. -/
theorem Keeps.step {v : ℤ} (hin : isOut H f.weight f.weightMax v f.x = false)
    (h : Keeps f v k sh w)
    (hs : WorkStep H glob f k k sh w sh' w')
    (htest : w.pc = .test → isOut H f.weight glob.weightMax w.item f.x
      = isOut H f.weight f.weightMax w.item f.x) : Keeps f v k sh' w' := by
  unfold Keeps at h
  cases hs with
  | writeOut2 hpc | accept hpc hin' => rw [hpc] at h; exact h
  | out hpc htype hout =>
    -- The overload test lets the device in.
    have hitem : w.item = v := by rw [hpc] at h; exact h
    rw [htest hpc, hitem, hin] at hout
    simp at hout
  | publish hpc => rw [hpc] at h; exact (Store.write_cells_self _ _ _ _).trans h
  | leafFault e μ hpc | leafMove c μ hpc =>
    rcases hpc with hpc | ⟨c, hpc⟩ <;> rw [hpc] at h <;> exact h.elim
  | leafEnd p μ hpc =>
    obtain ⟨c, hpc⟩ := hpc
    rw [hpc] at h; exact h.elim
  | start hpc | collide hpc | noCollide hpc | noLeafFound p hpc | leafFound p hpc =>
    rw [hpc] at h; exact h.elim
  | drawFault e hpc | drawEmpty hpc | drawSkip item hpc | descend item b hpc | candidate item hpc =>
    rw [hpc] at h; exact h.elim

/-- It depends on the own cell only. -/
theorem Keeps.frame {v : ℤ} (h : Keeps f v k sh w)
    (hcell : sh'.μ.cells f.out k = sh.μ.cells f.out k) : Keeps f v k sh' w := by
  unfold Keeps at h ⊢
  split at h
  case h_4 => exact hcell.trans h
  all_goals exact h

/-- A device that the scan lets through stays with the worker. -/
theorem WorkStep.keeps (hs : WorkStep H glob f k k sh w sh' w') (hpc : w.pc = .scan)
    (hdev : 0 ≤ w.item) (hmiss : collides sh.μ f.out k w.item = false) :
    Keeps f w.item k sh' w' := by
  -- From `scan` a worker can only collide or go on; the other steps start elsewhere.
  cases hs with
  | collide _ hcol => rw [hmiss] at hcol; simp at hcol
  | noCollide _ _ =>
    unfold Keeps
    dsimp only
    rw [if_neg (not_lt.mpr hdev)]
    by_cases hrec : f.recurseToLeaf = true
    · rw [if_pos hrec]
    · rw [if_neg hrec]
  | leafFault e μ hpc' | leafMove c μ hpc' =>
    rcases hpc' with hpc' | ⟨c, hpc'⟩ <;> rw [hpc] at hpc' <;> simp at hpc'
  | leafEnd p μ hpc' =>
    obtain ⟨c, hpc'⟩ := hpc'
    rw [hpc] at hpc'; simp at hpc'
  | start hpc' | writeOut2 hpc' | out hpc' | accept hpc' | publish hpc' =>
    rw [hpc] at hpc'; simp at hpc'
  | noLeafFound p hpc' | leafFound p hpc' => rw [hpc] at hpc'; simp at hpc'
  | drawFault e hpc' | drawEmpty hpc' | drawSkip item hpc' | descend item b hpc'
  | candidate item hpc' => rw [hpc] at hpc'; simp at hpc'

/-- **A missed collision stays.**  A worker that misses a collision with a device in service
    holds it, in hand or published, at the end of the run. -/
theorem keeps_of_missed (hwf : f.map.WellFormed) (htype : f.type = 0)
    (hseq : ∀ j < 3, 0 ≤ seq j ∧ isOut H f.weight f.weightMax (seq j) f.x = false)
    {μ : Store} {tr : List (Par × Fin 3)} {s : Par}
    (hrun : Run (parStep H glob f) (Par.init f μ) tr s)
    (htest : ∀ p ∈ tr, testAgrees H glob f p.1 p.2 = true) {p : Par × Fin 3} (hp : p ∈ tr)
    (hmiss : missesCollision f seq p.1 p.2 = true) :
    ∃ j < (p.2 : ℕ), Keeps f (seq j) p.2 s.sh (s.w p.2) := by
  unfold missesCollision at hmiss
  split at hmiss
  case h_2 => simp at hmiss
  rename_i hscan
  simp only [among, Bool.and_eq_true, List.any_eq_true, List.mem_range, beq_iff_eq,
    Bool.not_eq_true'] at hmiss
  obtain ⟨⟨j, hj, hitem⟩, hfree⟩ := hmiss
  obtain ⟨hdev, hin⟩ := hseq j (lt_trans hj p.2.isLt)
  refine ⟨j, hj, ?_⟩
  -- Since the scan that missed, the item is kept by every step.
  refine hrun.since (fun s => Keeps f (seq j) p.2 s.sh (s.w p.2))
    (fun s k => testAgrees H glob f s k = true) ?_ ?_ htest hp
  · intro tr' s' _ hs _
    obtain ⟨w, hstep, hw⟩ := parStep_step hs
    rw [hw, Function.update_self, hitem]
    exact hstep.keeps hscan (hitem ▸ hdev) hfree
  · intro tr' s k s' hrun' hkeeps htest' hs
    obtain ⟨w, hstep, hw⟩ := parStep_step hs
    rw [hw]
    -- The worker itself keeps the item as long as its test agrees with the sequential one.
    by_cases hk : p.2 = k
    · subst hk
      rw [Function.update_self]
      refine hkeeps.step hin hstep fun hpc => ?_
      rw [testAgrees, hpc] at htest'
      exact beq_iff_eq.mp htest'
    · rw [Function.update_of_ne hk]
      exact hkeeps.frame ((sound_of_run hwf hrun' k).cells_eq htype hstep f.out fun h =>
        hk (Fin.ext h))

/-! ### The sequential result and the workers' -/

/-- What the sequential search places for `outpos` 0 is distinct. -/
theorem sequential_distinct (houtpos : f.outpos = 0) {fuel : ℕ} {μ₀ μ₁ : Store}
    (hseq : crushChooseFirstn H fuel f 0 μ₀ = .ok (3, μ₁)) : Distinct μ₁ f.out 3 := by
  have hstart : Distinct μ₀ f.out f.outpos := by
    rw [houtpos]
    exact fun _ j _ hj => absurd hj (Nat.not_lt_zero j)
  exact ((crushChooseFirstn_spec H fuel).placement hseq).distinct_out hstart

/-- The sequential search places devices in service. -/
theorem sequential_device (hwf : f.map.WellFormed) (htype : f.type = 0) (houtpos : f.outpos = 0)
    {fuel : ℕ} {μ₀ μ₁ : Store} (hseq : crushChooseFirstn H fuel f 0 μ₀ = .ok (3, μ₁)) :
    ∀ j < 3, 0 ≤ μ₁.cells f.out j ∧
      isOut H f.weight f.weightMax (μ₁.cells f.out j) f.x = false := by
  intro j hj
  have hplaced := ((crushChooseFirstn_spec H fuel).placement hseq).placed j (by omega) hj
  exact ⟨OfType.device hwf (htype ▸ hplaced.chosen.ofType), hplaced.chosen.not_isOut htype⟩

/-- **Which runs repeat the sequential placement.**  Once `outpos` is 3, `out` holds the three
    items of the sequential result, which are distinct, if all scans of the run have agreed
    with it, and only if none of them has missed a collision. -/
theorem doWork_sequential (H : CrushHash) (glob : Globals) (f : FirstnInfo) (fuel : ℕ)
    (μ₀ μ₁ μ : Store) (tr : List (Par × Fin 3)) (s : Par) (hwf : f.map.WellFormed)
    (htype : f.type = 0) (hstable : f.stable = true) (hnumrep : f.numrep = 3)
    (hargs : f.chooseArgs = none) (houtpos : f.outpos = 0)
    (hseq : crushChooseFirstn H fuel f 0 μ₀ = .ok (3, μ₁))
    (hrun : Run (parStep H glob f) (Par.init f μ) tr s)
    (htest : ∀ p ∈ tr, testAgrees H glob f p.1 p.2 = true) (hout : s.sh.outpos = 3) :
    ((∀ p ∈ tr, scanAgrees f (μ₁.cells f.out) p.1 p.2 = true) →
        (∀ k < 3, s.sh.μ.cells f.out k = μ₁.cells f.out k) ∧ Distinct s.sh.μ f.out 3) ∧
      ((∀ k < 3, s.sh.μ.cells f.out k = μ₁.cells f.out k) →
        ∀ p ∈ tr, missesCollision f (μ₁.cells f.out) p.1 p.2 = false) := by
  have hdistinct := sequential_distinct houtpos hseq
  constructor
  · intro hscan
    have hfinds := sequential_slots hwf htype hstable hnumrep houtpos hseq
    have hitem : ∀ k < 3, s.sh.μ.cells f.out k = μ₁.cells f.out k :=
      follow_run hwf htype hstable hargs hfinds hrun (fun p hp _ => ⟨hscan p hp, htest p hp⟩) hout
    exact ⟨hitem, hdistinct.of_cells hitem⟩
  · intro hitem p hp
    by_contra hmiss
    rw [Bool.not_eq_false] at hmiss
    -- The slot of the worker ends up with the item of an earlier slot.
    obtain ⟨j, hj, hkeeps⟩ := keeps_of_missed hwf htype (sequential_device hwf htype houtpos hseq)
      hrun htest hp hmiss
    have hk := p.2.isLt
    unfold Keeps at hkeeps
    rw [done_of_outpos hrun hout p.2, hitem p.2 hk] at hkeeps
    exact hdistinct j p.2 hj hk hkeeps.symm

/-- **Ordered scans are enough.**  If every worker scans behind the publications of the slots
    before its own, and the global `weight_max` is that of the call, the workers repeat the
    sequential placement. -/
theorem doWork_ordered (fuel : ℕ) (μ₀ μ₁ μ : Store) (tr : List (Par × Fin 3)) (s : Par)
    (hwf : f.map.WellFormed) (htype : f.type = 0) (hstable : f.stable = true)
    (hnumrep : f.numrep = 3) (hargs : f.chooseArgs = none) (houtpos : f.outpos = 0)
    (hmax : glob.weightMax = f.weightMax)
    (hseq : crushChooseFirstn H fuel f 0 μ₀ = .ok (3, μ₁))
    (hrun : Run (parStep H glob f) (Par.init f μ) tr s)
    (hordered : ∀ p ∈ tr, (p.1.w p.2).pc = .scan → ∀ j < p.2, (p.1.w j).pc = .done)
    (hout : s.sh.outpos = 3) : ∀ k < 3, s.sh.μ.cells f.out k = μ₁.cells f.out k := by
  have hfinds := sequential_slots hwf htype hstable hnumrep houtpos hseq
  refine follow_run hwf htype hstable hargs hfinds hrun (fun p hp hfollow => ?_) hout
  exact ⟨scanAgrees_of_done hfollow (hordered p hp), testAgrees_of_weightMax hmax _ _⟩

/-- The sequential result for `smallInfo`. -/
theorem smallInfo_sequential :
    ∃ μ₁, crushChooseFirstn rjenkins 60 smallInfo 0 zeroStore = .ok (3, μ₁) ∧
      ∀ k < 3, μ₁.cells 1 k = [3, 1, 0].getD k 0 := by
  obtain ⟨⟨p, μ₁⟩, hrun, hres⟩ := ok_of_toOption_map
    (g := fun r : ℕ × Store => (r.1, r.2.cells 1 0, r.2.cells 1 1, r.2.cells 1 2))
    (y := (3, 3, 1, 0)) (x := crushChooseFirstn rjenkins 60 smallInfo 0 zeroStore)
    (by decide +kernel)
  obtain ⟨rfl, h0, h1, h2⟩ : p = 3 ∧ μ₁.cells 1 0 = 3 ∧ μ₁.cells 1 1 = 1 ∧ μ₁.cells 1 2 = 0 := by
    simpa using hres
  refine ⟨μ₁, hrun, fun k hk => ?_⟩
  obtain rfl | rfl | rfl : k = 0 ∨ k = 1 ∨ k = 2 := by omega
  · exact h0
  · exact h1
  · exact h2

/-- The three workers one after the other. -/
def inOrder : List (Fin 3) := List.replicate 7 0 ++ List.replicate 10 1 ++ List.replicate 13 2

/-- The three workers one after the other on the small map. -/
theorem doWork_sequential_inOrder :
    ∃ μ₁ tr s, crushChooseFirstn rjenkins 60 smallInfo 0 zeroStore = .ok (3, μ₁) ∧
      Run (parStep rjenkins smallGlobals smallInfo) (Par.init smallInfo zeroStore) tr s ∧
      s.sh.outpos = 3 ∧ ∀ k < 3, s.sh.μ.cells 1 k = μ₁.cells 1 k := by
  obtain ⟨μ₁, hseq, hitems⟩ := smallInfo_sequential
  obtain ⟨⟨tr, s⟩, hfollow, hres⟩ := Option.map_eq_some_iff.mp
    (show (follow (parStep rjenkins smallGlobals smallInfo) inOrder []
        (Par.init smallInfo zeroStore)).map
      (fun r => (r.2.sh.outpos, r.1.all fun p =>
        scanAgrees smallInfo (fun k => [3, 1, 0].getD k 0) p.1 p.2)) = some (3, true)
      by decide +kernel)
  obtain ⟨hout, hscans⟩ : s.sh.outpos = 3 ∧ ∀ p ∈ tr,
      scanAgrees smallInfo (fun k => [3, 1, 0].getD k 0) p.1 p.2 = true := by
    simpa using hres
  have hrun := Run.start.of_follow hfollow
  refine ⟨μ₁, tr, s, hseq, hrun, hout, ?_⟩
  exact ((doWork_sequential rjenkins smallGlobals smallInfo 60 zeroStore μ₁ zeroStore tr s
    smallMap_wellFormed rfl rfl rfl rfl rfl hseq hrun (fun p _ => testAgrees_of_weightMax rfl _ _)
    hout).1 fun p hp => scanAgrees_congr hitems p.1 p.2 ▸ hscans p hp).1

/-- All workers scan before the first one publishes. -/
def scansFirst : List (Fin 3) :=
  (List.replicate 4 [0, 1, 2]).flatten ++ List.replicate 3 0 ++ List.replicate 3 1 ++
    List.replicate 3 2

/-- **A scan that comes too early**: the first two workers both publish OSD 3, which is not
    what the sequential algorithm has in slot 1. -/
theorem early_scan_duplicates :
    ∃ μ₁ tr s, crushChooseFirstn rjenkins 60 smallInfo 0 zeroStore = .ok (3, μ₁) ∧
      Run (parStep rjenkins smallGlobals smallInfo) (Par.init smallInfo zeroStore) tr s ∧
      s.sh.outpos = 3 ∧ ¬ Distinct s.sh.μ 1 3 ∧ s.sh.μ.cells 1 1 ≠ μ₁.cells 1 1 := by
  obtain ⟨μ₁, hseq, hitems⟩ := smallInfo_sequential
  obtain ⟨⟨tr, s⟩, hfollow, hres⟩ := Option.map_eq_some_iff.mp
    (show (follow (parStep rjenkins smallGlobals smallInfo) scansFirst []
        (Par.init smallInfo zeroStore)).map
      (fun r => (r.2.sh.outpos, r.2.sh.μ.cells 1 0, r.2.sh.μ.cells 1 1)) = some (3, 3, 3)
      by decide +kernel)
  obtain ⟨hout, h0, h1⟩ : s.sh.outpos = 3 ∧ s.sh.μ.cells 1 0 = 3 ∧ s.sh.μ.cells 1 1 = 3 := by
    simpa using hres
  refine ⟨μ₁, tr, s, hseq, Run.start.of_follow hfollow, hout, ?_, ?_⟩
  · exact fun hd => hd 0 1 (by omega) (by omega) (h0.trans h1.symm)
  · rw [h1, hitems 1 (by omega)]
    decide

/-! ### The workers as functions -/

/-- Worker `k` moves until it can no more. -/
def callWork (H : CrushHash) (glob : Globals) (f : FirstnInfo) (k : Fin 3) :
    ℕ → Shared → Worker → Except Stop Shared
  | 0, _, _ => .error .timeout
  | n + 1, sh, w =>
    match work H glob f k sh w with
    | some (sh', w') => callWork H glob f k n sh' w'
    | none =>
      match w.pc with
      | .fault e => .error e
      | _ => .ok sh

/-- `do_work1(firstn); do_work2(firstn); do_work3(firstn);`. -/
def callWorks (H : CrushHash) (glob : Globals) (f : FirstnInfo) (fuel : ℕ) (sh : Shared) :
    Except Stop Shared :=
  match callWork H glob f 0 fuel sh (Worker.init f) with
  | .error e => .error e
  | .ok sh =>
    match callWork H glob f 1 fuel sh (Worker.init f) with
    | .error e => .error e
    | .ok sh => callWork H glob f 2 fuel sh (Worker.init f)

end MyCeph.Crush
