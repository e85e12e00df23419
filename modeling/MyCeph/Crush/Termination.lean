import MyCeph.Crush.Eligible
import MyCeph.Crush.MoreReplicas

namespace MyCeph.Crush

open Lib

/-!
# Placement terminates

On a well-formed acyclic map a search goes round for two reasons: it descends, which
brings it further down the map, or a draw is rejected, which counts up `ftotal`.  `ftotal` is
never reset, and as long as the unsigned counters do not wrap (`CountersFit`) it stays within
`tries` and the local retries of one descent (`Counting`).  So the pair of what is left of
`ftotal` and the bucket of the search goes down lexicographically (`Counting.step`), and
`Lib.loop_terminates` lifts this through the loops.  The leaf search looks for no leaves itself,
so the recursion has depth one.

Of the map this only needs the buckets a search can get to (`Closed`).
-/

variable {H : CrushHash} {f : FirstnInfo} {parentR rep : ℤ} {outpos : ℕ} {count : ℤ}

/-- The call returns. -/
def Returns (H : CrushHash) (f : FirstnInfo) (parentR : ℤ) (μ : Store) : Prop :=
  ∃ n w, ∀ k, n ≤ k → crushChooseFirstn H k f parentR μ = .ok w

/-- The tries and the local retries of one descent stay below `2^32` together. -/
def CountersFit (f : FirstnInfo) : Prop :=
  ∀ i b, f.map.bucket? i = some b →
    max f.tries.toNat f.recurseTries.toNat
      + max f.localRetries.toNat (b.size.toNat + f.localFallbackRetries.toNat) + 1 < 2 ^ 32

/-- The leaf search has fewer tries, so its counters fit as well. -/
theorem CountersFit.leaf (h : CountersFit f) (b : CrushBucket) :
    CountersFit (leafInfo f b outpos count) := by
  intro i c hc
  have hfit := h i c hc
  have h0 : (0 : UInt32).toNat = 0 := rfl
  show max f.recurseTries.toNat (0 : UInt32).toNat
    + max f.localRetries.toNat (c.size.toNat + f.localFallbackRetries.toNat) + 1 < 2 ^ 32
  omega

/-! ### Every draw leads somewhere -/

/-- A set of buckets that no descent leaves: an item of one of them that passes the test against
    `max_devices` is a device or another one of them. -/
structure Closed (m : CrushMap) (S : CrushBucket → Prop) : Prop where
  items_length : ∀ b, S b → b.items.length = b.size.toNat
  bucket : ∀ b, S b → m.bucket? (-1 - b.id) = some b
  child : ∀ b, S b → ∀ c ∈ b.items, c < 0 → c < m.maxDevices →
    ∃ d, m.bucket? (-1 - c) = some d ∧ d.id = c ∧ S d

/-- The buckets of a well-formed map. -/
theorem CrushMap.WellFormed.closed {m : CrushMap} (hwf : m.WellFormed) : Closed m m.Has where
  items_length := fun _ ⟨_, hi⟩ => hwf.items_length hi
  bucket := fun _ hb => hwf.bucket_of_has hb
  child := by
    rintro b ⟨i, hi⟩ c hc hneg -
    obtain ⟨d, hd⟩ := hwf.child hi c hc hneg
    exact ⟨d, hd, hwf.id_of_bucket hd, _, hd⟩

variable {S : CrushBucket → Prop}

theorem Closed.chooseItem_mem (hS : Closed f.map S) {cur : CrushBucket} (hcur : S cur)
    (hsize : cur.size ≠ 0) (r : ℤ) (position : ℕ) :
    chooseItem H f.x f.chooseArgs cur r position ∈ cur.items :=
  bucketStraw2Choose_mem H f.x r _ position hsize (hS.items_length cur hcur)

/-- A draw from a bucket of the set is never a read outside the map. -/
theorem Closed.drawItem_returns (hS : Closed f.map S) {cur : CrushBucket} (hcur : S cur) (r : ℤ)
    (position : ℕ) : ∃ d, drawItem H f cur r position = .ok d := by
  unfold drawItem
  by_cases hsize : cur.size = 0
  · rw [if_pos hsize]
    exact ⟨_, rfl⟩
  rw [if_neg hsize]
  dsimp only
  have hmem := hS.chooseItem_mem (H := H) hcur hsize r position
  generalize chooseItem H f.x f.chooseArgs cur r position = item at hmem
  by_cases hmax : item ≥ f.map.maxDevices
  · rw [if_pos hmax]
    exact ⟨_, rfl⟩
  rw [if_neg hmax]
  unfold itemType
  by_cases hneg : item < 0
  · -- The bucket is there, for its type and for the descent.
    obtain ⟨b, hb, -, -⟩ := hS.child cur hcur item hmem hneg (by omega)
    rw [if_pos hneg, f.map.readBucket_ok.mpr hb]
    dsimp only
    by_cases htype : (b.type : ℤ) ≠ f.type
    · rw [if_pos htype]
      by_cases hbad : item ≥ 0 ∨ -1 - item ≥ f.map.maxBuckets
      · rw [if_pos hbad]
        exact ⟨_, rfl⟩
      · rw [if_neg hbad]
        exact ⟨_, rfl⟩
    · rw [if_neg htype]
      exact ⟨_, rfl⟩
  · rw [if_neg hneg]
    dsimp only
    by_cases htype : ((0 : ℕ) : ℤ) ≠ f.type
    · rw [if_pos htype, if_pos (Or.inl (by omega))]
      exact ⟨_, rfl⟩
    · rw [if_neg htype]
      exact ⟨_, rfl⟩

/-- The bucket of a drawn item of the wanted type can be read. -/
theorem Closed.read_candidate (hS : Closed f.map S) {cur : CrushBucket} (hcur : S cur) {r : ℤ}
    {position : ℕ} {item : ℤ} (hdraw : drawItem H f cur r position = .ok (.candidate item))
    (hneg : item < 0) : ∃ b, f.map.readBucket (-1 - item) = .ok b ∧ S b := by
  obtain ⟨hsize, hitem, hmax, -⟩ := drawItem_candidate hdraw
  have hmem : item ∈ cur.items := by
    rw [hitem]
    exact hS.chooseItem_mem hcur hsize r position
  obtain ⟨b, hb, -, hSb⟩ := hS.child cur hcur item hmem hneg hmax
  exact ⟨b, f.map.readBucket_ok.mpr hb, hSb⟩

/-- A descent stays in the set, and follows a link of the map. -/
theorem Closed.descend (hS : Closed f.map S) {cur : CrushBucket} (hcur : S cur) {r : ℤ}
    {position : ℕ} {item : ℤ} {b : CrushBucket}
    (hdraw : drawItem H f cur r position = .ok (.descend item b)) :
    S b ∧ f.map.Link cur.id b.id ∧ b.id < 0 ∧ f.map.bucket? (-1 - b.id) = some b := by
  obtain ⟨hsize, hitem, hmax, hneg, hb⟩ := drawItem_descend hdraw
  have hmem : item ∈ cur.items := by
    rw [hitem]
    exact hS.chooseItem_mem hcur hsize r position
  obtain ⟨b', hb', rfl, hSb⟩ := hS.child cur hcur item hmem hneg hmax
  obtain rfl : b = b' := Option.some.inj (hb.symm.trans hb')
  exact ⟨hSb, ⟨cur, hS.bucket _ hcur, hmem⟩, hneg, hb⟩

/-- The leaf searches of the call return. -/
def LeavesReturn (H : CrushHash) (f : FirstnInfo) (S : CrushBucket → Prop) : Prop :=
  f.recurseToLeaf = true → ∀ b outpos count r μ, S b → Returns H (leafInfo f b outpos count) r μ

/-- The part of a pass that looks for a leaf returns, if the leaf search does. -/
theorem findLeaf_returns (outpos : ℕ) (count : ℤ) (hleaf : LeavesReturn H f S) {item : ℤ}
    (hread : item < 0 → ∃ b, f.map.readBucket (-1 - item) = .ok b ∧ S b) (r : ℤ) (μ : Store) :
    ∃ n w, ∀ k, n ≤ k →
      findLeaf f (crushChooseFirstn H k) r outpos count item μ = .ok w := by
  unfold findLeaf
  by_cases hrec : f.recurseToLeaf = true
  · by_cases hneg : item < 0
    · obtain ⟨b, hb, hSb⟩ := hread hneg
      obtain ⟨n, w, hrun⟩ := hleaf hrec b outpos count (subR f r) μ hSb
      refine ⟨n, (decide (w.1 ≤ outpos), w.2), fun k hk => ?_⟩
      rw [if_pos hrec, if_pos hneg, hb]
      dsimp only
      rw [hrun k hk]
    · refine ⟨0, (false, μ.write f.out2 outpos item), fun k _ => ?_⟩
      rw [if_pos hrec, if_neg hneg]
  · refine ⟨0, (false, μ), fun k _ => ?_⟩
    rw [if_neg hrec]

/-- A pass returns. -/
theorem attempt_returns (parentR rep : ℤ) (outpos : ℕ) (count : ℤ) (hS : Closed f.map S)
    (hleaf : LeavesReturn H f S) {s : Search} (hcur : S s.cur) (μ : Store) :
    ∃ n nx, ∀ k, n ≤ k →
      attempt H f (crushChooseFirstn H k) parentR rep outpos count (s, μ) = .ok nx := by
  obtain ⟨d, hd⟩ :=
    hS.drawItem_returns (H := H) hcur (randomFactor rep parentR s.ftotal) outpos
  unfold attempt
  dsimp only
  rw [hd]
  cases d with
  | empty => exact ⟨0, _, fun k _ => rfl⟩
  | skip item => exact ⟨0, _, fun k _ => rfl⟩
  | descend item b => exact ⟨0, _, fun k _ => rfl⟩
  | candidate item =>
    dsimp only
    -- The fuel matters for the leaf search alone, and a collision comes before it.
    by_cases hcol : collides (μ.visit s.cur) f.out outpos item = true
    · simp only [hcol, if_true]
      exact ⟨0, _, fun k _ => rfl⟩
    simp only [hcol, Bool.false_eq_true, if_false]
    obtain ⟨n, ⟨rejected, μ'⟩, hfound⟩ := findLeaf_returns outpos count hleaf
      (hS.read_candidate hcur hd) (randomFactor rep parentR s.ftotal) (μ.visit s.cur)
    by_cases hrej : (rejected || (f.type == 0 && isOut H f.weight f.weightMax item f.x)) = true
    · refine ⟨n, reject f false s μ', fun k hk => ?_⟩
      rw [hfound k hk]
      exact if_pos hrej
    · refine ⟨n, .exit (.accept item, μ'), fun k hk => ?_⟩
      rw [hfound k hk]
      exact if_neg hrej

/-! ### Every search ends -/

/-- What the search keeps: it stands in a bucket of the set, and what `ftotal` counts are the
    tries used up before this descent and the rejections counted by `flocal`. -/
structure Counting (f : FirstnInfo) (S : CrushBucket → Prop) (s : Search) : Prop where
  cur : S s.cur
  ftotal_le : s.ftotal.toNat ≤ f.tries.toNat + s.flocal.toNat
  fits : f.tries.toNat + s.flocal.toNat + 1 < 2 ^ 32

/-- What goes down: what is left of `ftotal`, then the bucket. -/
def Closer (m : CrushMap) (s' s : Search) : Prop :=
  Prod.Lex (· < ·) (fun c p : ℤ => m.Link p c ∧ c < 0 ∧ (m.bucket? (-1 - c)).isSome)
    (2 ^ 32 - s'.ftotal.toNat, s'.cur.id) (2 ^ 32 - s.ftotal.toNat, s.cur.id)

/-- On an acyclic map a search cannot come closer for ever. -/
theorem closer_wellFounded (hacyclic : f.map.Acyclic) : WellFounded (Closer f.map) :=
  InvImage.wf (fun s : Search => (2 ^ 32 - s.ftotal.toNat, s.cur.id))
    (WellFounded.prod_lex wellFounded_lt hacyclic.wellFounded)

theorem Counting.start (hS : Closed f.map S) (hstart : S f.bucket) (hfit : CountersFit f) :
    Counting f S (Search.start f) := by
  have hfits := hfit _ _ (hS.bucket _ hstart)
  have h0 : (0 : UInt32).toNat = 0 := rfl
  refine ⟨hstart, ?_, ?_⟩
  · show (0 : UInt32).toNat ≤ _
    omega
  · show f.tries.toNat + (0 : UInt32).toNat + 1 < 2 ^ 32
    omega

/-- A retry in the same bucket is within its local retries. -/
theorem retryKind_bucket {collide : Bool} {size ftotal flocal : UInt32}
    (h : retryKind f collide size ftotal flocal = .bucket) :
    flocal.toNat ≤ max f.localRetries.toNat (size.toNat + f.localFallbackRetries.toNat) := by
  -- The sum may wrap, and only gets smaller by it.
  have hsum : (size + f.localFallbackRetries).toNat
      ≤ size.toNat + f.localFallbackRetries.toNat := by
    rw [UInt32.toNat_add]
    exact Nat.mod_le _ _
  unfold retryKind at h
  split at h
  · rename_i hretry
    have hle := UInt32.le_iff_toNat_le.mp hretry.2
    omega
  split at h
  · rename_i hfallback
    have hle := UInt32.le_iff_toNat_le.mp hfallback.2
    omega
  split at h <;> cases h

/-- For a new descent there are tries left. -/
theorem retryKind_descent {collide : Bool} {size ftotal flocal : UInt32}
    (h : retryKind f collide size ftotal flocal = .descent) : ftotal.toNat < f.tries.toNat := by
  unfold retryKind at h
  split at h
  · cases h
  split at h
  · cases h
  split at h
  · rename_i hlt
    exact UInt32.lt_iff_toNat_lt.mp hlt
  · cases h

/-- **Step lemma, at `reject:`.** -/
theorem Counting.rejected (hS : Closed f.map S) (hstart : S f.bucket) (hfit : CountersFit f)
    {s s' : Search} {collide : Bool} (h : Counting f S s)
    (hr : s.rejected f collide = some s') : Counting f S s' ∧ Closer f.map s' s := by
  obtain ⟨hcur, htotal, hfits⟩ := h
  have hlocal := hfit _ _ (hS.bucket _ hcur)
  have hone : (1 : UInt32).toNat = 1 := rfl
  -- Neither counter wraps.
  have hftotal : (s.ftotal + 1).toNat = s.ftotal.toNat + 1 := by
    rw [UInt32.toNat_add, hone]
    omega
  have hflocal : (s.flocal + 1).toNat = s.flocal.toNat + 1 := by
    rw [UInt32.toNat_add, hone]
    omega
  have hcloser : ∀ c, Closer f.map ⟨c, s.ftotal + 1, s.flocal⟩ s := by
    intro c
    apply Prod.Lex.left
    dsimp only
    omega
  unfold Search.rejected at hr
  dsimp only at hr
  split at hr
  · rename_i hkind
    cases hr
    have hle := retryKind_bucket hkind
    refine ⟨⟨hcur, ?_, ?_⟩, hcloser _⟩
    · dsimp only
      omega
    · dsimp only
      omega
  · rename_i hkind
    cases hr
    have hlt := retryKind_descent hkind
    have h0 : (0 : UInt32).toNat = 0 := rfl
    refine ⟨⟨hstart, ?_, ?_⟩, hcloser _⟩
    · dsimp only
      omega
    · dsimp only
      omega
  · cases hr

/-- **Step lemma of the search.** -/
theorem Counting.step (hS : Closed f.map S) (hstart : S f.bucket) (hfit : CountersFit f)
    {self : Firstn} {s s' : Search} {μ μ' : Store} (h : Counting f S s)
    (hpass : Pass H f self parentR rep outpos count s μ (.again (s', μ'))) :
    Counting f S s' ∧ Closer f.map s' s := by
  rcases hpass.again with ⟨collide, hs'⟩ | ⟨item, b, hdraw, rfl⟩
  · exact h.rejected hS hstart hfit hs'
  · obtain ⟨hSb, hlink, hneg, hb⟩ := hS.descend h.cur hdraw
    refine ⟨⟨hSb, h.ftotal_le, h.fits⟩, ?_⟩
    -- The bucket drawn is an item of the one before.
    apply Prod.Lex.right
    exact ⟨hlink, hneg, Option.isSome_iff_exists.mpr ⟨b, hb⟩⟩

/-- Every search returns, from some fuel on always the same. -/
theorem search_returns (parentR rep : ℤ) (outpos : ℕ) (count : ℤ) (hS : Closed f.map S)
    (hacyclic : f.map.Acyclic) (hstart : S f.bucket) (hfit : CountersFit f)
    (hleaf : LeavesReturn H f S) (μ : Store) :
    ∃ n w, ∀ k j, n ≤ k → n ≤ j →
      loop attemptTimeout (attempt H f (crushChooseFirstn H k) parentR rep outpos count) j
        (Search.start f, μ) = .ok w := by
  refine loop_terminates (InvImage.wf Prod.fst (closer_wellFounded hacyclic))
    (fun st : Search × Store => Counting f S st.1) ?_ _ (Counting.start hS hstart hfit)
  rintro ⟨s, μ₁⟩ hs
  obtain ⟨n, nx, hbody⟩ := attempt_returns parentR rep outpos count hS hleaf hs.cur μ₁
  refine ⟨n, nx, hbody, ?_⟩
  rintro ⟨s', μ'⟩ rfl
  exact hs.step hS hstart hfit (attempt_pass (hbody n (le_refl n)))

/-! ### Every call returns -/

/-- **Step lemma of the loop over replicas**: a pass returns, and brings `rep` closer to
    `numrep`. -/
theorem placeReplica_returns (hS : Closed f.map S) (hacyclic : f.map.Acyclic)
    (hstart : S f.bucket) (hfit : CountersFit f) (hleaf : LeavesReturn H f S) (parentR : ℤ)
    (st : Replicas) :
    ∃ n nx, (∀ k, n ≤ k → placeReplica H f (crushChooseFirstn H k) k parentR st = .ok nx) ∧
      ∀ st', nx = .again st' → (f.numrep - st'.rep).toNat < (f.numrep - st.rep).toNat := by
  by_cases hguard : st.rep < f.numrep ∧ st.count > 0
  · obtain ⟨n, ⟨v, μ'⟩, hsearch⟩ := search_returns parentR st.rep st.outpos st.count hS hacyclic
      hstart hfit hleaf st.μ
    -- With the fuel of the search the pass has one result, whatever the fuel.
    have hpass : ∃ nx, ∀ k, n ≤ k →
        placeReplica H f (crushChooseFirstn H k) k parentR st = .ok nx := by
      unfold placeReplica
      simp only [hguard, and_self, if_true]
      cases v with
      | skip =>
        refine ⟨.again { st with rep := st.rep + 1, μ := μ' }, fun k hk => ?_⟩
        rw [hsearch k k hk hk]
      | accept item =>
        refine ⟨.again ⟨st.rep + 1, st.outpos + 1, st.count - 1, μ'.write f.out st.outpos item⟩,
          fun k hk => ?_⟩
        rw [hsearch k k hk hk]
    obtain ⟨nx, hnx⟩ := hpass
    refine ⟨n, nx, hnx, ?_⟩
    -- Each pass counts one replica, placed or skipped.
    rintro st' rfl
    obtain ⟨-, -, v', μ₁, -, ⟨-, rfl⟩ | ⟨item, -, rfl⟩⟩ := placeReplica_again (hnx n (le_refl n))
    all_goals
      dsimp only
      omega
  · refine ⟨0, .exit (st.outpos, st.μ), fun k _ => if_neg hguard, ?_⟩
    intro st' hst'
    cases hst'

/-- A call whose leaf searches return does so itself. -/
theorem returns_of_leaves (hS : Closed f.map S) (hacyclic : f.map.Acyclic)
    (hstart : S f.bucket) (hfit : CountersFit f) (hleaf : LeavesReturn H f S) (parentR : ℤ)
    (μ : Store) : Returns H f parentR μ := by
  have hpass : ∀ st : Replicas, True → ∃ n nx,
      (∀ k, n ≤ k → placeReplica H f (crushChooseFirstn H k) k parentR st = .ok nx) ∧
        ∀ st', nx = .again st' →
          True ∧ (f.numrep - st'.rep).toNat < (f.numrep - st.rep).toNat := by
    intro st _
    obtain ⟨n, nx, hbody, hcloser⟩ :=
      placeReplica_returns hS hacyclic hstart hfit hleaf parentR st
    exact ⟨n, nx, hbody, fun st' h => ⟨trivial, hcloser st' h⟩⟩
  -- The replicas still to come decrease along the passes.
  obtain ⟨n, w, hloop⟩ := loop_terminates (t := replicasTimeout)
    (InvImage.wf (fun st : Replicas => (f.numrep - st.rep).toNat) wellFounded_lt)
    (fun _ => True) hpass (Replicas.start f μ) trivial
  refine ⟨n + 1, w, fun k hk => ?_⟩
  obtain ⟨k, rfl⟩ : ∃ i, k = i + 1 := ⟨k - 1, by omega⟩
  rw [crushChooseFirstn_succ]
  exact hloop k k (by omega) (by omega)

/-- A call whose counters do not wrap returns: so do its leaf searches, which look for no leaves. -/
theorem returns_of_closed (hS : Closed f.map S) (hacyclic : f.map.Acyclic) (hstart : S f.bucket)
    (hfit : CountersFit f) (parentR : ℤ) (μ : Store) : Returns H f parentR μ := by
  refine returns_of_leaves hS hacyclic hstart hfit (fun _ b outpos count r μ hb => ?_) parentR μ
  refine returns_of_leaves (f := leafInfo f b outpos count) hS hacyclic hb (hfit.leaf b) ?_ r μ
  intro hrec
  cases hrec

/-- The call returns on a well-formed acyclic map. -/
theorem returns_of_fits (hwf : f.map.WellFormed) (hacyclic : f.map.Acyclic)
    (hstart : f.map.Has f.bucket) (hfit : CountersFit f) (parentR : ℤ) (μ : Store) :
    Returns H f parentR μ :=
  returns_of_closed hwf.closed hacyclic hstart hfit parentR μ

/-- **Placement terminates** on a well-formed acyclic map, as long as the tries and the local
    retries do not wrap the counters. -/
theorem crushChooseFirstn_terminates (H : CrushHash) (f : FirstnInfo) (parentR : ℤ) (μ : Store)
    (hwf : f.map.WellFormed) (hacyclic : f.map.Acyclic) (hstart : f.map.Has f.bucket)
    (hfit : ∀ i b, f.map.bucket? i = some b →
      max f.tries.toNat f.recurseTries.toNat
        + max f.localRetries.toNat (b.size.toNat + f.localFallbackRetries.toNat) + 1 < 2 ^ 32) :
    ∃ n p μ', ∀ fuel, n ≤ fuel → crushChooseFirstn H fuel f parentR μ = .ok (p, μ') := by
  obtain ⟨n, ⟨p, μ'⟩, hrun⟩ := returns_of_fits hwf hacyclic hstart hfit parentR μ
  exact ⟨n, p, μ', hrun⟩

/-- The hosts of the small map, with local retries and fallback retries. -/
theorem crushChooseFirstn_terminates_smallHosts :
    ∃ n p μ', ∀ fuel, n ≤ fuel →
      crushChooseFirstn rjenkins fuel
        { smallHostsInfo with numrep := 5, localRetries := 3, localFallbackRetries := 2 } 0
        zeroStore = .ok (p, μ') := by
  refine crushChooseFirstn_terminates rjenkins
    { smallHostsInfo with numrep := 5, localRetries := 3, localFallbackRetries := 2 } 0 zeroStore
    smallMap_wellFormed smallMap_acyclic ⟨0, rfl⟩ ?_
  intro i b hb
  obtain ⟨-, rfl⟩ | ⟨-, rfl⟩ | ⟨-, rfl⟩ := smallMap_bucket hb
  all_goals decide

end MyCeph.Crush
