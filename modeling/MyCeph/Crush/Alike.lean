import MyCeph.Crush.FirstnSpec

namespace MyCeph.Crush

open Lib

/-!
# Two runs side by side

What a run of `crush_choose_firstn` depends on.  Two runs on two maps and two memories go
hand in hand when

* the maps are `Alike` below the start buckets — whatever is drawn from a bucket of one is
  drawn from its partner in the other, and leads to partners again;
* the memories agree on the cells of `out` (and `out2`) before the window (`SameBelow`).

Every step of one run is then matched by the same step of the other: it writes the same
value to the same cell, or draws from a partner bucket (`Lockstep`).  Level by level
(`findLeaf_alike`, `attempt_alike`, `search_alike`, `placeReplica_alike`), with
`Lib.loop_simulates` for the loops, the runs come to the same end
(`crushChooseFirstn_alike`).

The first consequence is about memory: nothing but the cells before the window is read, so
that what the caller's arrays hold before the call does not matter
(`crushChooseFirstn_memory`).
-/

/-! ### Alike maps -/

/-- A placement of `x` cannot tell `m` under `args` from `m'` under `args'` when it starts from
    buckets related by `B`. -/
structure Alike (H : CrushHash) (x : ℤ) (m m' : CrushMap)
    (args args' : Option (ℤ → CrushChooseArg)) (B : CrushBucket → CrushBucket → Prop) : Prop where
  maxDevices_eq : m'.maxDevices = m.maxDevices
  size_eq : ∀ {b b'}, B b b' → b'.size = b.size
  type_eq : ∀ {b b'}, B b b' → b'.type = b.type
  choose_eq : ∀ {b b'}, B b b' → b.size ≠ 0 → ∀ r position,
    chooseItem H x args' b' r position = chooseItem H x args b r position
  child : ∀ {b b'}, B b b' → b.size ≠ 0 → ∀ r position, chooseItem H x args b r position < 0 →
    Option.Rel B (m.bucket? (-1 - chooseItem H x args b r position))
      (m'.bucket? (-1 - chooseItem H x args b r position))

/-- The same call on another map, from another bucket, under other `choose_args`. -/
def FirstnInfo.onMap (f : FirstnInfo) (m' : CrushMap) (b' : CrushBucket)
    (args' : Option (ℤ → CrushChooseArg)) : FirstnInfo :=
  { f with map := m', bucket := b', chooseArgs := args' }

/-! ### Memories in step -/

/-- `μ` and `μ'` come from `μ₀` and `μ₀'` by the same writes, and visits to related buckets. -/
inductive Lockstep (B : CrushBucket → CrushBucket → Prop) (μ₀ μ₀' : Store) :
    Store → Store → Prop where
  | start : Lockstep B μ₀ μ₀' μ₀ μ₀'
  | visit {μ μ' : Store} {b b' : CrushBucket} (h : Lockstep B μ₀ μ₀' μ μ') (hb : B b b') :
      Lockstep B μ₀ μ₀' (μ.visit b) (μ'.visit b')
  | write {μ μ' : Store} (h : Lockstep B μ₀ μ₀' μ μ') (a i : ℕ) (v : ℤ) :
      Lockstep B μ₀ μ₀' (μ.write a i v) (μ'.write a i v)

/-- The first `n` cells of `arr` are the same in both stores. -/
def SameBelow (μ μ' : Store) (arr n : ℕ) : Prop := ∀ j < n, μ'.cells arr j = μ.cells arr j

variable {B : CrushBucket → CrushBucket → Prop} {μ₀ μ₀' μ₁ μ₁' μ μ' : Store}

theorem Lockstep.trans (h₁ : Lockstep B μ₀ μ₀' μ₁ μ₁') (h₂ : Lockstep B μ₁ μ₁' μ μ') :
    Lockstep B μ₀ μ₀' μ μ' := by
  induction h₂ with
  | start => exact h₁
  | visit _ hb ih => exact ih.visit hb
  | write _ a i v ih => exact ih.write a i v

/-- A cell that is the same at the start stays so. -/
theorem Lockstep.cells (h : Lockstep B μ₀ μ₀' μ μ') {a j : ℕ}
    (h0 : μ₀'.cells a j = μ₀.cells a j) : μ'.cells a j = μ.cells a j := by
  induction h with
  | start => exact h0
  | visit _ _ ih => simpa using ih
  | write _ arr i v ih =>
    by_cases hij : a = arr ∧ j = i
    · simp [Store.write, hij]
    · rw [Store.write_cells_of_ne _ v hij, Store.write_cells_of_ne _ v hij, ih]

/-- What the stores had in common below a position, they still have. -/
theorem Lockstep.sameBelow (h : Lockstep B μ₀ μ₀' μ μ') {arr n : ℕ}
    (h0 : SameBelow μ₀ μ₀' arr n) : SameBelow μ μ' arr n :=
  fun j hj => h.cells (h0 j hj)

/-- Stores in step with the same bucket for a partner are equal. -/
theorem Lockstep.eq (h : Lockstep B μ₀ μ₀ μ μ') (hB : ∀ b b', B b b' → b' = b) : μ' = μ := by
  induction h with
  | start => rfl
  | visit _ hb ih => rw [ih, hB _ _ hb]
  | write _ a i v ih => rw [ih]

/-- Stores in step from one memory hold the same. -/
theorem Lockstep.cells_eq (h : Lockstep B μ₀ μ₀ μ μ') : μ'.cells = μ.cells := by
  ext a j
  exact h.cells rfl

theorem SameBelow.succ {arr n : ℕ} (h : SameBelow μ μ' arr n)
    (hn : μ'.cells arr n = μ.cells arr n) : SameBelow μ μ' arr (n + 1) := by
  intro j hj
  rcases Nat.lt_succ_iff_lt_or_eq.mp hj with hlt | rfl
  · exact h j hlt
  · exact hn

theorem SameBelow.refl (μ : Store) (arr n : ℕ) : SameBelow μ μ arr n := fun _ _ => rfl

/-! ### What the levels of a run come to -/

/-- The runs stop short for the same reason. -/
def SameStop (B : CrushBucket → CrushBucket → Prop) (μ₀ μ₀' : Store) (e e' : Fault) : Prop :=
  e'.stop = e.stop ∧ Lockstep B μ₀ μ₀' e.μ e'.μ

/-- The runs return the same position, and have filled the positions before it alike. -/
def SamePlacement (B : CrushBucket → CrushBucket → Prop) (f : FirstnInfo) (μ₀ μ₀' : Store)
    (w w' : ℕ × Store) : Prop :=
  w'.1 = w.1 ∧ Lockstep B μ₀ μ₀' w.2 w'.2 ∧ SameBelow w.2 w'.2 f.out w.1 ∧
    (f.recurseToLeaf = true → SameBelow w.2 w'.2 f.out2 w.1)

/-- The memories agree on what a call reads of them: the cells before its window. -/
structure SameInput (f : FirstnInfo) (μ μ' : Store) : Prop where
  out : SameBelow μ μ' f.out f.outpos
  out2 : f.recurseToLeaf = true → SameBelow μ μ' f.out2 f.outpos

theorem SameInput.refl (f : FirstnInfo) (μ : Store) : SameInput f μ μ :=
  ⟨SameBelow.refl μ _ _, fun _ => SameBelow.refl μ _ _⟩

/-- Runs on one memory that visit the same buckets are equal. -/
theorem eq_of_handInHand {f : FirstnInfo} {x x' : Except Fault (ℕ × Store)}
    (h : Outcomes (SameStop B μ μ) (SamePlacement B f μ μ) x x')
    (hB : ∀ b b', B b b' → b' = b) : x' = x := by
  cases h with
  | @error e e' he =>
    obtain ⟨hstop, hin⟩ := he
    obtain ⟨stop, μ₁⟩ := e
    obtain ⟨stop', μ₁'⟩ := e'
    rw [show stop' = stop from hstop, show μ₁' = μ₁ from hin.eq hB]
  | @ok w w' hw =>
    obtain ⟨hp, hin, -, -⟩ := hw
    rw [Prod.ext hp (hin.eq hB)]

/-- `self` and `self'` go hand in hand on all parameters. -/
def HandInHand (H : CrushHash) (self self' : Firstn) : Prop :=
  ∀ {f : FirstnInfo} {m' : CrushMap} {b' : CrushBucket} {args' : Option (ℤ → CrushChooseArg)}
    {B : CrushBucket → CrushBucket → Prop} (parentR : ℤ) {μ μ' : Store},
    Alike H f.x f.map m' f.chooseArgs args' B → B f.bucket b' → SameInput f μ μ' →
    Outcomes (SameStop B μ μ') (SamePlacement B f μ μ') (self f parentR μ)
      (self' (f.onMap m' b' args') parentR μ')

/-! ### Reading the maps -/

/-- Reading related buckets fails in both maps or in neither. -/
theorem readBucket_alike {m m' : CrushMap} {i : ℤ} (h : Option.Rel B (m.bucket? i) (m'.bucket? i)) :
    Outcomes Eq B (m.readBucket i) (m'.readBucket i) := by
  unfold CrushMap.readBucket
  generalize m.bucket? i = b at h ⊢
  generalize m'.bucket? i = b' at h ⊢
  cases h with
  | some hb => exact .ok hb
  | none => exact .error rfl

/-- There are buckets below `max_buckets` only. -/
theorem lt_maxBuckets {m : CrushMap} {i : ℤ} {b : CrushBucket} (h : m.bucket? i = some b) :
    i < m.maxBuckets := by
  obtain ⟨-, -, -, hlt, -⟩ := CrushMap.bucket?_eq_some_iff.mp h
  exact hlt

section TwoRuns

variable {H : CrushHash} {f : FirstnInfo} {m' : CrushMap} {b' : CrushBucket}
  {args' : Option (ℤ → CrushChooseArg)} {self self' : Firstn} {parentR rep : ℤ} {outpos : ℕ}
  {count : ℤ} (halike : Alike H f.x f.map m' f.chooseArgs args' B)

/-- The draws lead to partners. -/
inductive SameDraw (B : CrushBucket → CrushBucket → Prop) (m m' : CrushMap) :
    Draw → Draw → Prop where
  | empty : SameDraw B m m' .empty .empty
  | skip (item : ℤ) : SameDraw B m m' (.skip item) (.skip item)
  | descend (item : ℤ) {b b' : CrushBucket} (hb : B b b') :
      SameDraw B m m' (.descend item b) (.descend item b')
  | candidate (item : ℤ)
      (hb : item < 0 → Option.Rel B (m.bucket? (-1 - item)) (m'.bucket? (-1 - item))) :
      SameDraw B m m' (.candidate item) (.candidate item)

include halike

/-- An item has the same type in both maps. -/
theorem itemType_alike {item : ℤ}
    (h : item < 0 → Option.Rel B (f.map.bucket? (-1 - item)) (m'.bucket? (-1 - item))) :
    itemType (f.onMap m' b' args') item = itemType f item := by
  unfold itemType
  by_cases hneg : item < 0
  · have hread := readBucket_alike (h hneg)
    have hmap : (f.onMap m' b' args').map = m' := rfl
    rw [if_pos hneg, if_pos hneg, hmap]
    generalize f.map.readBucket (-1 - item) = x at hread ⊢
    generalize m'.readBucket (-1 - item) = x' at hread ⊢
    cases hread with
    | error he => rw [he]
    | ok hb => simp only [halike.type_eq hb]
  · rw [if_neg hneg, if_neg hneg]

/-- **The draws.** -/
theorem drawItem_alike {cur cur' : CrushBucket} (hcur : B cur cur') (r : ℤ) (position : ℕ) :
    Outcomes Eq (SameDraw B f.map m') (drawItem H f cur r position)
      (drawItem H (f.onMap m' b' args') cur' r position) := by
  unfold drawItem
  rw [halike.size_eq hcur]
  by_cases hsize : cur.size = 0
  · rw [if_pos hsize, if_pos hsize]
    exact .ok .empty
  rw [if_neg hsize, if_neg hsize]
  dsimp only
  have hitem : chooseItem H (f.onMap m' b' args').x (f.onMap m' b' args').chooseArgs cur' r position
      = chooseItem H f.x f.chooseArgs cur r position := halike.choose_eq hcur hsize r position
  have hchild := halike.child hcur hsize r position
  have hmax : (f.onMap m' b' args').map.maxDevices = f.map.maxDevices := halike.maxDevices_eq
  rw [hitem, hmax]
  generalize chooseItem H f.x f.chooseArgs cur r position = item at hchild ⊢
  by_cases hge : item ≥ f.map.maxDevices
  · rw [if_pos hge, if_pos hge]
    exact .ok (.skip item)
  rw [if_neg hge, if_neg hge, itemType_alike halike hchild]
  cases ht : itemType f item with
  | error e => exact .error rfl
  | ok t =>
    dsimp only
    change Outcomes Eq _ _ (if (t : ℤ) ≠ f.type then _ else _)
    by_cases htype : (t : ℤ) ≠ f.type
    · rw [if_pos htype, if_pos htype]
      by_cases hnn : item ≥ 0
      · rw [if_pos (Or.inl hnn), if_pos (Or.inl hnn)]
        exact .ok (.skip item)
      · -- The bucket is there in both maps: its type has been read.
        obtain ⟨hnn', -⟩ | ⟨hneg, b, hb, -⟩ := itemType_ok ht
        · exact absurd hnn' hnn
        have hrel := hchild hneg
        rw [hb] at hrel
        generalize hb' : m'.bucket? (-1 - item) = x' at hrel
        cases hrel with
        | some hbb =>
          have hmax' : (f.onMap m' b' args').map = m' := rfl
          rw [if_neg (not_or.mpr ⟨hnn, not_le.mpr (lt_maxBuckets hb)⟩), hmax',
            if_neg (not_or.mpr ⟨hnn, not_le.mpr (lt_maxBuckets hb')⟩),
            f.map.readBucket_ok.mpr hb, m'.readBucket_ok.mpr hb']
          exact .ok (.descend item hbb)
    · rw [if_neg htype, if_neg htype]
      exact .ok (.candidate item hchild)

/-! ### One search -/

/-- The state of two searches that go hand in hand. -/
structure SameSearch (B : CrushBucket → CrushBucket → Prop) (μ μ' : Store)
    (st st' : Search × Store) : Prop where
  cur : B st.1.cur st'.1.cur
  ftotal : st'.1.ftotal = st.1.ftotal
  flocal : st'.1.flocal = st.1.flocal
  lockstep : Lockstep B μ μ' st.2 st'.2

/-- The result of two searches that go hand in hand: when an item is accepted, its leaf is the
    same. -/
structure SameVerdict (B : CrushBucket → CrushBucket → Prop) (f : FirstnInfo) (outpos : ℕ)
    (μ μ' : Store) (w w' : Verdict × Store) : Prop where
  verdict : w'.1 = w.1
  lockstep : Lockstep B μ μ' w.2 w'.2
  leaf : ∀ item, w.1 = .accept item → f.recurseToLeaf = true →
    w'.2.cells f.out2 outpos = w.2.cells f.out2 outpos

/-- Both searches retry in the same way, as the counters and sizes are the same. -/
theorem reject_alike (hstart : B f.bucket b') {μ₀ μ₀' : Store} {s s' : Search} {μ μ' : Store}
    (collide : Bool) (hs : SameSearch B μ₀ μ₀' (s, μ) (s', μ')) :
    Nexts (SameSearch B μ₀ μ₀') (SameVerdict B f outpos μ₀ μ₀') (reject f collide s μ)
      (reject (f.onMap m' b' args') collide s' μ') := by
  obtain ⟨hcur, hft, hfl, hin⟩ := hs
  dsimp only at hcur hft hfl hin
  have hkind : retryKind (f.onMap m' b' args') collide s'.cur.size (s'.ftotal + 1) (s'.flocal + 1)
      = retryKind f collide s.cur.size (s.ftotal + 1) (s.flocal + 1) := by
    rw [halike.size_eq hcur, hft, hfl]
    rfl
  unfold reject Search.rejected
  dsimp only
  rw [hkind]
  cases retryKind f collide s.cur.size (s.ftotal + 1) (s.flocal + 1) with
  | bucket => exact .again ⟨hcur, by rw [hft], by rw [hfl], hin⟩
  | descent => exact .again ⟨hstart, by rw [hft], rfl, hin⟩
  | giveUp => exact .exit ⟨rfl, hin, by simp⟩

/-- What two looks for a leaf come to. -/
def SameLeaf (B : CrushBucket → CrushBucket → Prop) (f : FirstnInfo) (outpos : ℕ) (μ μ' : Store)
    (w w' : Bool × Store) : Prop :=
  w'.1 = w.1 ∧ Lockstep B μ μ' w.2 w'.2 ∧
    (w.1 = false → f.recurseToLeaf = true → w'.2.cells f.out2 outpos = w.2.cells f.out2 outpos)

/-- The leaf searches go hand in hand as well. -/
theorem findLeaf_alike (hself : HandInHand H self self') {r item : ℤ} {μ μ' : Store}
    (hitem : item < 0 → Option.Rel B (f.map.bucket? (-1 - item)) (m'.bucket? (-1 - item)))
    (hout2 : f.recurseToLeaf = true → SameBelow μ μ' f.out2 outpos) :
    Outcomes (SameStop B μ μ') (SameLeaf B f outpos μ μ') (findLeaf f self r outpos count item μ)
      (findLeaf (f.onMap m' b' args') self' r outpos count item μ') := by
  have hrec' : (f.onMap m' b' args').recurseToLeaf = f.recurseToLeaf := rfl
  have hmap : (f.onMap m' b' args').map = m' := rfl
  unfold findLeaf
  rw [hrec', hmap]
  by_cases hrec : f.recurseToLeaf = true
  swap
  · rw [if_neg hrec, if_neg hrec]
    exact .ok ⟨rfl, .start, fun _ h => absurd h hrec⟩
  rw [if_pos hrec, if_pos hrec]
  by_cases hneg : item < 0
  swap
  · -- A device is stored as its own leaf.
    rw [if_neg hneg, if_neg hneg]
    exact .ok ⟨rfl, .write .start _ _ _, fun _ _ => by
      rw [Store.write_cells_self]; exact Store.write_cells_self _ _ _ _⟩
  rw [if_pos hneg, if_pos hneg]
  have hread := readBucket_alike (hitem hneg)
  generalize f.map.readBucket (-1 - item) = x at hread ⊢
  generalize m'.readBucket (-1 - item) = x' at hread ⊢
  cases hread with
  | error he => exact .error ⟨he.symm, .start⟩
  | @ok b c hb =>
    -- The leaf searches start from partners, and `out2` is their `out`.
    have hrun := hself (f := leafInfo f b outpos count) (subR f r) halike hb
      ⟨hout2 hrec, fun h => by cases h⟩
    have hinfo : leafInfo (f.onMap m' b' args') c outpos count
        = (leafInfo f b outpos count).onMap m' c args' := rfl
    have hsub : subR (f.onMap m' b' args') r = subR f r := rfl
    dsimp only
    rw [hinfo, hsub]
    generalize self (leafInfo f b outpos count) (subR f r) μ = y at hrun ⊢
    generalize self' _ (subR f r) μ' = y' at hrun ⊢
    cases hrun with
    | error he => exact .error he
    | @ok w w' hw =>
      obtain ⟨hp, hin, hsame, -⟩ := hw
      refine .ok ⟨by dsimp only; rw [hp], hin, fun hlt _ => ?_⟩
      have hlt' : outpos < w.1 := by simpa using hlt
      exact hsame outpos hlt'

omit halike in
/-- The scan sees the same cells. -/
theorem collides_alike {μ μ' : Store} {out : ℕ} (h : SameBelow μ μ' out outpos) (item : ℤ) :
    collides μ' out outpos item = collides μ out outpos item := by
  unfold collides
  rw [Bool.eq_iff_iff]
  simp only [List.any_eq_true, List.mem_range, beq_iff_eq]
  refine exists_congr fun j => and_congr_right fun hj => ?_
  rw [h j hj]

/-- **Step lemma of the search.** -/
theorem attempt_alike (hself : HandInHand H self self') (hstart : B f.bucket b')
    {μ₀ μ₀' : Store} (hout : SameBelow μ₀ μ₀' f.out outpos)
    (hout2 : f.recurseToLeaf = true → SameBelow μ₀ μ₀' f.out2 outpos) {st st' : Search × Store}
    (hst : SameSearch B μ₀ μ₀' st st') :
    Outcomes (SameStop B μ₀ μ₀')
      (Nexts (SameSearch B μ₀ μ₀') (SameVerdict B f outpos μ₀ μ₀'))
      (attempt H f self parentR rep outpos count st)
      (attempt H (f.onMap m' b' args') self' parentR rep outpos count st') := by
  obtain ⟨hcur, hft, hfl, hin⟩ := hst
  have hvisit := hin.visit hcur
  unfold attempt
  dsimp only
  rw [hft]
  have hdraw : Outcomes Eq (SameDraw B f.map m')
      (drawItem H f st.1.cur (randomFactor rep parentR st.1.ftotal) outpos)
      (drawItem H (f.onMap m' b' args') st'.1.cur (randomFactor rep parentR st.1.ftotal) outpos) :=
    drawItem_alike halike hcur _ outpos
  generalize drawItem H f st.1.cur (randomFactor rep parentR st.1.ftotal) outpos = x at hdraw ⊢
  generalize drawItem H (f.onMap m' b' args') st'.1.cur _ outpos = x' at hdraw ⊢
  cases hdraw with
  | error he => exact .error ⟨he.symm, hvisit⟩
  | ok hd =>
    cases hd with
    | empty => exact .ok (reject_alike halike hstart false ⟨hcur, hft, hfl, hvisit⟩)
    | skip item => exact .ok (.exit ⟨rfl, hvisit, by simp⟩)
    | descend item hb => exact .ok (.again ⟨hb, rfl, hfl, hvisit⟩)
    | candidate item hb =>
      dsimp only
      -- Both scan the same cells for a collision.
      have hcol := collides_alike (hvisit.sameBelow hout) item
      have hout' : (f.onMap m' b' args').out = f.out := rfl
      rw [hout', hcol]
      by_cases hc : collides (st.2.visit st.1.cur) f.out outpos item = true
      · rw [if_pos hc, if_pos hc]
        exact .ok (reject_alike halike hstart true ⟨hcur, hft, hfl, hvisit⟩)
      rw [if_neg hc, if_neg hc]
      have hleaf : Outcomes _ (SameLeaf B f outpos (st.2.visit st.1.cur) (st'.2.visit st'.1.cur))
          (findLeaf f self (randomFactor rep parentR st.1.ftotal) outpos count item _)
          (findLeaf (f.onMap m' b' args') self' (randomFactor rep parentR st.1.ftotal) outpos count
            item _) :=
        findLeaf_alike halike hself hb fun hr => hvisit.sameBelow (hout2 hr)
      generalize findLeaf f self _ outpos count item (st.2.visit st.1.cur) = y at hleaf ⊢
      generalize findLeaf (f.onMap m' b' args') self' _ outpos count item
        (st'.2.visit st'.1.cur) = y' at hleaf ⊢
      cases hleaf with
      | error he => exact .error ⟨he.1, hvisit.trans he.2⟩
      | @ok w w' hw =>
        obtain ⟨rejected, μ⟩ := w
        obtain ⟨rejected', μ'⟩ := w'
        obtain ⟨hrej, hin', hcell⟩ := hw
        dsimp only at hrej hin' hcell ⊢
        have hin₂ := hvisit.trans hin'
        change Outcomes _ _ _ (if (rejected' ||
          (f.type == 0 && isOut H f.weight f.weightMax item f.x)) = true then _ else _)
        rw [hrej]
        by_cases hr : (rejected || (f.type == 0 && isOut H f.weight f.weightMax item f.x)) = true
        · rw [if_pos hr, if_pos hr]
          exact .ok (reject_alike halike hstart false ⟨hcur, hft, hfl, hin₂⟩)
        · rw [if_neg hr, if_neg hr]
          rw [Bool.not_eq_true, Bool.or_eq_false_iff] at hr
          exact .ok (.exit ⟨rfl, hin₂, fun _ _ hrec => hcell hr.1 hrec⟩)

/-- The searches for one replica stay in lockstep. -/
theorem search_alike (hself : HandInHand H self self') (hstart : B f.bucket b')
    {μ μ' : Store} (hout : SameBelow μ μ' f.out outpos)
    (hout2 : f.recurseToLeaf = true → SameBelow μ μ' f.out2 outpos) (parentR rep count : ℤ)
    (n : ℕ) :
    Outcomes (SameStop B μ μ') (SameVerdict B f outpos μ μ')
      (loop attemptTimeout (attempt H f self parentR rep outpos count) n (Search.start f, μ))
      (loop attemptTimeout (attempt H (f.onMap m' b' args') self' parentR rep outpos count) n
        (Search.start (f.onMap m' b' args'), μ')) := by
  apply loop_simulates (SameSearch B μ μ')
  · exact fun st st' hst => ⟨rfl, hst.lockstep⟩
  · exact fun st st' hst => attempt_alike halike hself hstart hout hout2 hst
  · exact ⟨hstart, rfl, rfl, .start⟩

/-! ### The loop over replicas -/

/-- The state of two loops over replicas that go hand in hand. -/
structure SameReplicas (B : CrushBucket → CrushBucket → Prop) (f : FirstnInfo) (μ μ' : Store)
    (st st' : Replicas) : Prop where
  rep : st'.rep = st.rep
  outpos : st'.outpos = st.outpos
  count : st'.count = st.count
  lockstep : Lockstep B μ μ' st.μ st'.μ
  out : SameBelow st.μ st'.μ f.out st.outpos
  out2 : f.recurseToLeaf = true → SameBelow st.μ st'.μ f.out2 st.outpos

/-- **Step lemma of the loop over replicas.** -/
theorem placeReplica_alike (hself : HandInHand H self self') (hstart : B f.bucket b') (fuel : ℕ)
    {μ₀ μ₀' : Store} {st st' : Replicas} (hst : SameReplicas B f μ₀ μ₀' st st') :
    Outcomes (SameStop B μ₀ μ₀') (Nexts (SameReplicas B f μ₀ μ₀') (SamePlacement B f μ₀ μ₀'))
      (placeReplica H f self fuel parentR st)
      (placeReplica H (f.onMap m' b' args') self' fuel parentR st') := by
  obtain ⟨rep, outpos, count, μ⟩ := st
  obtain ⟨rep', outpos', count', μ'⟩ := st'
  obtain ⟨rfl, rfl, rfl, hin, hout, hout2⟩ := hst
  dsimp only at hin hout hout2
  have hnumrep : (f.onMap m' b' args').numrep = f.numrep := rfl
  have houtarr : (f.onMap m' b' args').out = f.out := rfl
  unfold placeReplica
  dsimp only
  rw [hnumrep, houtarr]
  by_cases hguard : rep' < f.numrep ∧ count' > 0
  swap
  · rw [if_neg hguard, if_neg hguard]
    exact .ok (.exit ⟨rfl, hin, hout, hout2⟩)
  rw [if_pos hguard, if_pos hguard]
  have hsearch := search_alike halike hself hstart hout hout2 parentR rep' count' fuel
  generalize loop attemptTimeout (attempt H f self parentR rep' outpos' count') fuel
    (Search.start f, μ) = x at hsearch ⊢
  generalize loop attemptTimeout _ fuel (Search.start (f.onMap m' b' args'), μ') = x'
    at hsearch ⊢
  cases hsearch with
  | error he => exact .error ⟨he.1, hin.trans he.2⟩
  | @ok w w' hw =>
    obtain ⟨v, μ₁⟩ := w
    obtain ⟨v', μ₁'⟩ := w'
    obtain ⟨hv, hin₁, hleaf⟩ := hw
    dsimp only at hv hin₁ hleaf
    subst hv
    cases v' with
    | skip =>
      exact .ok (.again ⟨rfl, rfl, rfl, hin.trans hin₁, hin₁.sameBelow hout,
        fun hrec => hin₁.sameBelow (hout2 hrec)⟩)
    | accept item =>
      -- The leaf is in place, and the same store to `out` follows.
      have hwrite : Lockstep B μ₁ μ₁' (μ₁.write f.out outpos' item)
          (μ₁'.write f.out outpos' item) := .write .start _ _ _
      refine .ok (.again ⟨rfl, rfl, rfl, (hin.trans hin₁).write _ _ _, ?_, fun hrec => ?_⟩)
      · apply (hwrite.sameBelow (hin₁.sameBelow hout)).succ
        rw [Store.write_cells_self, Store.write_cells_self]
      · apply (hwrite.sameBelow (hin₁.sameBelow (hout2 hrec))).succ
        exact hwrite.cells (hleaf item rfl hrec)

end TwoRuns

/-- **Runs on alike maps go hand in hand.** -/
theorem crushChooseFirstn_alike (H : CrushHash) (fuel : ℕ) :
    HandInHand H (crushChooseFirstn H fuel) (crushChooseFirstn H fuel) := by
  induction fuel with
  | zero =>
    intro f m' b' args' B parentR μ μ' _ _ _
    exact .error ⟨rfl, .start⟩
  | succ fuel ih =>
    intro f m' b' args' B parentR μ μ' halike hstart hinput
    rw [crushChooseFirstn_succ, crushChooseFirstn_succ]
    apply loop_simulates (SameReplicas B f μ μ')
    · exact fun st st' hst => ⟨rfl, hst.lockstep⟩
    · exact fun st st' hst => placeReplica_alike halike ih hstart fuel hst
    · exact ⟨rfl, rfl, rfl, .start, hinput.out, hinput.out2⟩

/-! ### What is read of memory -/

/-- A map is alike to itself. -/
theorem Alike.refl (H : CrushHash) (x : ℤ) (m : CrushMap) (args : Option (ℤ → CrushChooseArg)) :
    Alike H x m m args args Eq where
  maxDevices_eq := rfl
  size_eq := by rintro b _ rfl; rfl
  type_eq := by rintro b _ rfl; rfl
  choose_eq := by rintro b _ rfl _ _ _; rfl
  child := by
    rintro b _ rfl _ r position _
    generalize m.bucket? _ = c
    cases c with
    | none => exact .none
    | some c => exact .some rfl

/-- **Only the cells before the window are read.**  Two memories that agree on them lead to the
    same end, through the same draws and the same writes, whatever else they hold. -/
theorem crushChooseFirstn_memory (H : CrushHash) (fuel : ℕ) (f : FirstnInfo) (parentR : ℤ)
    (μ μ' : Store) (hinput : SameInput f μ μ') :
    Outcomes (SameStop Eq μ μ') (SamePlacement Eq f μ μ') (crushChooseFirstn H fuel f parentR μ)
      (crushChooseFirstn H fuel f parentR μ') :=
  crushChooseFirstn_alike H fuel parentR (Alike.refl H f.x f.map f.chooseArgs) rfl hinput

/-- The call of `test` on a buffer as `malloc` might return it. -/
theorem crushChooseFirstn_memory_smallMap :
    ∃ μ μ', crushChooseFirstn rjenkins 60 smallInfo 0 zeroStore = .ok (3, μ) ∧
      crushChooseFirstn rjenkins 60 smallInfo 0 ⟨fun a j => 7 * a + j - 3, []⟩ = .ok (3, μ') ∧
      ∀ j < 3, μ'.cells 1 j = μ.cells 1 j := by
  obtain ⟨⟨p, μ⟩, hrun, rfl⟩ := ok_of_toOption_map (g := Prod.fst) (y := 3)
    (x := crushChooseFirstn rjenkins 60 smallInfo 0 zeroStore) (by decide +kernel)
  have h := crushChooseFirstn_memory rjenkins 60 smallInfo 0 zeroStore
    ⟨fun a j => 7 * a + j - 3, []⟩
    ⟨fun j hj => absurd hj (Nat.not_lt_zero j), fun _ j hj => absurd hj (Nat.not_lt_zero j)⟩
  rw [hrun] at h
  generalize hrun' : crushChooseFirstn rjenkins 60 smallInfo 0 ⟨_, []⟩ = x at h
  cases h with
  | @ok _ w hw =>
    obtain ⟨p, μ'⟩ := w
    obtain ⟨rfl, -, hout, -⟩ := hw
    exact ⟨μ, μ', hrun, rfl, hout⟩

end MyCeph.Crush
