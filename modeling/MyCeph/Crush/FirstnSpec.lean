import MyCeph.Crush.Firstn

namespace MyCeph.Crush

open Lib

/-!
# What a run of `crush_choose_firstn` does

The specification every placement result below is read off from.

* `Visits` and `Drawn` — the buckets a search can get to from its start bucket, and the
  items it can draw there;
* `Store.Ext` — the second store comes from the first by a list of logged events, all
  of one kind;
* `Pass`, `attempt_pass` — all that one pass through the inner loop can do;
* `Placed` — what is known of the item at a position once it has been accepted;
* `crushChooseFirstn_spec` — a run from `outpos` that returns `p` fills the positions
  in between with placed items and writes nowhere else (`Placement`); a run that stops
  short has done nothing else either.
-/

/-! ### Buckets visited, items drawn -/

/-- The buckets a search from `start` can draw from: `start`, and every bucket that was
    itself drawn from one of them. -/
inductive Visits (H : CrushHash) (m : CrushMap) (x : ℤ)
    (args : Option (ℤ → CrushChooseArg)) (start : CrushBucket) : CrushBucket → Prop where
  | start : Visits H m x args start start
  | child {b c : CrushBucket} (r : ℤ) (position : ℕ) (hb : Visits H m x args start b)
      (hsize : b.size ≠ 0) (hneg : chooseItem H x args b r position < 0)
      (hc : m.bucket? (-1 - chooseItem H x args b r position) = some c) :
      Visits H m x args start c

/-- `item` is drawn from a bucket visited from `start`. -/
def Drawn (H : CrushHash) (m : CrushMap) (x : ℤ) (args : Option (ℤ → CrushChooseArg))
    (start : CrushBucket) (item : ℤ) : Prop :=
  ∃ b r position, Visits H m x args start b ∧ b.size ≠ 0 ∧
    item = chooseItem H x args b r position

/-- `item` has type `type`: 0 for a device, otherwise the type of the bucket it names. -/
def OfType (m : CrushMap) (item type : ℤ) : Prop :=
  (0 ≤ item ∧ type = 0) ∨ (item < 0 ∧ ∃ b, m.bucket? (-1 - item) = some b ∧ (b.type : ℤ) = type)

/-- An item of type other than 0 is a bucket. -/
theorem OfType.neg {m : CrushMap} {item type : ℤ} (h : OfType m item type) (htype : type ≠ 0) :
    item < 0 := by
  rcases h with ⟨-, h0⟩ | ⟨hneg, -⟩
  · exact absurd h0 htype
  · exact hneg

/-- On a well-formed map an item of type 0 is a device. -/
theorem OfType.device {m : CrushMap} (hwf : m.WellFormed) {item : ℤ} (h : OfType m item 0) :
    0 ≤ item := by
  rcases h with ⟨hnn, -⟩ | ⟨-, b, hb, h0⟩
  · exact hnn
  · have := hwf.type_pos hb
    omega

/-- On a well-formed map a bucket has a type above 0. -/
theorem OfType.pos {m : CrushMap} (hwf : m.WellFormed) {item type : ℤ} (h : OfType m item type)
    (hneg : item < 0) : 0 < type := by
  rcases h with ⟨hnn, -⟩ | ⟨-, b, hb, rfl⟩
  · omega
  · exact Int.natCast_pos.mpr (hwf.type_pos hb)

variable {H : CrushHash} {m : CrushMap} {x : ℤ} {args : Option (ℤ → CrushChooseArg)}

theorem Visits.trans {a b c : CrushBucket} (hab : Visits H m x args a b)
    (hbc : Visits H m x args b c) : Visits H m x args a c := by
  induction hbc with
  | start => exact hab
  | child r position _ hsize hneg hc ih => exact ih.child r position hsize hneg hc

/-- What is drawn below a drawn bucket is drawn below the start. -/
theorem Drawn.of_child {a c : CrushBucket} {item leaf : ℤ} (h : Drawn H m x args a item)
    (hneg : item < 0) (hc : m.bucket? (-1 - item) = some c) (hl : Drawn H m x args c leaf) :
    Drawn H m x args a leaf := by
  obtain ⟨b, r, position, hb, hsize, rfl⟩ := h
  obtain ⟨b', r', position', hb', hsize', rfl⟩ := hl
  exact ⟨b', r', position', (hb.child r position hsize hneg hc).trans hb', hsize', rfl⟩

/-- The bucket of a drawn id can be visited next. -/
theorem Drawn.visits_child {a c : CrushBucket} {item : ℤ} (h : Drawn H m x args a item)
    (hneg : item < 0) (hc : m.bucket? (-1 - item) = some c) : Visits H m x args a c := by
  obtain ⟨b, r, position, hb, hsize, rfl⟩ := h
  exact hb.child r position hsize hneg hc

/-! ### Stores that come from one another -/

/-- `μ'` comes from `μ` by events that all satisfy `E`; a cell no such event writes is
    unchanged. -/
def Store.Ext (E : Event → Prop) (μ μ' : Store) : Prop :=
  ∃ new, μ'.log = new ++ μ.log ∧ (∀ e ∈ new, E e) ∧
    ∀ a j, (∀ v, Event.write a j v ∉ new) → μ'.cells a j = μ.cells a j

variable {E E' : Event → Prop} {μ μ₁ μ' : Store}

theorem Store.Ext.refl (E : Event → Prop) (μ : Store) : Store.Ext E μ μ :=
  ⟨[], rfl, by simp, fun _ _ _ => rfl⟩

theorem Store.Ext.trans (h₁ : Store.Ext E μ μ₁) (h₂ : Store.Ext E μ₁ μ') : Store.Ext E μ μ' := by
  obtain ⟨new₁, hlog₁, hE₁, hcells₁⟩ := h₁
  obtain ⟨new₂, hlog₂, hE₂, hcells₂⟩ := h₂
  refine ⟨new₂ ++ new₁, by rw [hlog₂, hlog₁, List.append_assoc], ?_, ?_⟩
  · intro e he
    rcases List.mem_append.mp he with h | h
    · exact hE₂ e h
    · exact hE₁ e h
  · intro a j hnot
    rw [hcells₂ a j (fun v hv => hnot v (List.mem_append_left _ hv)),
      hcells₁ a j (fun v hv => hnot v (List.mem_append_right _ hv))]

/-- What is true of all events of a run. -/
theorem Store.Ext.mono (h : Store.Ext E μ μ') (hE : ∀ e, E e → E' e) : Store.Ext E' μ μ' := by
  obtain ⟨new, hlog, hnew, hcells⟩ := h
  exact ⟨new, hlog, fun e he => hE e (hnew e he), hcells⟩

/-- A visit changes no cell. -/
theorem Store.Ext.visit {b : CrushBucket} (hb : E (.visit b)) :
    Store.Ext E μ (μ.visit b) :=
  ⟨[.visit b], rfl, by simpa using hb, fun _ _ _ => rfl⟩

/-- A write changes its own cell only. -/
theorem Store.Ext.write {a i : ℕ} {v : ℤ} (hw : E (.write a i v)) :
    Store.Ext E μ (μ.write a i v) := by
  refine ⟨[.write a i v], rfl, by simpa using hw, fun a' j hnot => ?_⟩
  refine μ.write_cells_of_ne v ?_
  rintro ⟨rfl, rfl⟩
  exact hnot v (List.mem_singleton.mpr rfl)

/-- A cell that no event of kind `E` writes is unchanged. -/
theorem Store.Ext.cells_eq (h : Store.Ext E μ μ') {a j : ℕ} (hE : ∀ v, ¬ E (.write a j v)) :
    μ'.cells a j = μ.cells a j := by
  obtain ⟨new, -, hnew, hcells⟩ := h
  exact hcells a j fun v hv => hE v (hnew _ hv)

/-! ### One pass through the inner loop -/

variable {f : FirstnInfo}

/-- The scan finds nothing exactly if no cell before the position holds the item. -/
theorem collides_eq_false {μ : Store} {out outpos : ℕ} {item : ℤ} :
    collides μ out outpos item = false ↔ ∀ j < outpos, μ.cells out j ≠ item := by
  simp [collides]

/-- The type that the code reads is that of the item. -/
theorem itemType_ok {item : ℤ} {t : ℕ} (h : itemType f item = .ok t) :
    OfType f.map item t := by
  unfold itemType at h
  split at h
  · rename_i hneg
    cases hb : f.map.readBucket (-1 - item) with
    | error e => simp [hb] at h
    | ok b =>
      simp only [hb, Except.ok.injEq] at h
      exact Or.inr ⟨hneg, b, f.map.readBucket_ok.mp hb, by rw [h]⟩
  · rename_i hneg
    simp only [Except.ok.injEq] at h
    exact Or.inl ⟨by omega, by omega⟩

/-- What `drawItem` says when it draws a bucket to descend into. -/
theorem drawItem_descend {cur : CrushBucket} {r : ℤ} {position : ℕ} {item : ℤ} {b : CrushBucket}
    (h : drawItem H f cur r position = .ok (.descend item b)) :
    cur.size ≠ 0 ∧ item = chooseItem H f.x f.chooseArgs cur r position ∧
      item < f.map.maxDevices ∧ item < 0 ∧ f.map.bucket? (-1 - item) = some b := by
  unfold drawItem at h
  split at h
  · simp at h
  -- The tests in the order of the code; the descent stands behind all of them.
  rename_i hsize
  dsimp only at h
  split at h
  · simp at h
  rename_i hmax
  split at h
  · simp at h
  split at h
  · split at h
    · simp at h
    rename_i hitem
    split at h
    · simp at h
    rename_i hread
    simp only [Except.ok.injEq, Draw.descend.injEq] at h
    obtain ⟨rfl, rfl⟩ := h
    exact ⟨hsize, rfl, by omega, by omega, f.map.readBucket_ok.mp hread⟩
  · simp at h

/-- What `drawItem` says when it draws an item of the wanted type. -/
theorem drawItem_candidate {cur : CrushBucket} {r : ℤ} {position : ℕ} {item : ℤ}
    (h : drawItem H f cur r position = .ok (.candidate item)) :
    cur.size ≠ 0 ∧ item = chooseItem H f.x f.chooseArgs cur r position ∧
      item < f.map.maxDevices ∧ OfType f.map item f.type := by
  unfold drawItem at h
  split at h
  · simp at h
  rename_i hsize
  dsimp only at h
  split at h
  · simp at h
  rename_i hmax
  split at h
  · simp at h
  -- The type read is compared with the type wanted last.
  rename_i t ht
  split at h
  · split at h
    · simp at h
    split at h <;> cases h
  · rename_i htype
    simp only [Except.ok.injEq, Draw.candidate.injEq] at h
    subst h
    rw [not_not] at htype
    exact ⟨hsize, rfl, by omega, htype ▸ itemType_ok ht⟩

/-- All that one pass through the inner loop can do. -/
inductive Pass (H : CrushHash) (f : FirstnInfo) (self : Firstn) (parentR rep : ℤ) (outpos : ℕ)
    (count : ℤ) (s : Search) (μ : Store) : Next (Search × Store) (Verdict × Store) → Prop where
  /-- The replica is given up at the draw. -/
  | skip : Pass H f self parentR rep outpos count s μ (.exit (.skip, μ.visit s.cur))
  /-- The search goes on in a bucket that was drawn. -/
  | descend (item : ℤ) (b : CrushBucket)
      (hdraw : drawItem H f s.cur (randomFactor rep parentR s.ftotal) outpos
        = .ok (.descend item b)) :
      Pass H f self parentR rep outpos count s μ (.again ({ s with cur := b }, μ.visit s.cur))
  /-- The draw is rejected before anything is stored. -/
  | early (collide : Bool) :
      Pass H f self parentR rep outpos count s μ (reject f collide s (μ.visit s.cur))
  /-- The draw is rejected for want of a leaf, or because it is out. -/
  | late (item : ℤ) (rejected : Bool) (μ₁ : Store)
      (hdraw : drawItem H f s.cur (randomFactor rep parentR s.ftotal) outpos
        = .ok (.candidate item))
      (hleaf : findLeaf f self (randomFactor rep parentR s.ftotal) outpos count item
        (μ.visit s.cur) = .ok (rejected, μ₁)) :
      Pass H f self parentR rep outpos count s μ (reject f false s μ₁)
  /-- The draw is accepted. -/
  | accept (item : ℤ) (μ₁ : Store)
      (hdraw : drawItem H f s.cur (randomFactor rep parentR s.ftotal) outpos
        = .ok (.candidate item))
      (hfresh : ∀ j < outpos, μ.cells f.out j ≠ item)
      (hleaf : findLeaf f self (randomFactor rep parentR s.ftotal) outpos count item
        (μ.visit s.cur) = .ok (false, μ₁))
      (hin : f.type = 0 → isOut H f.weight f.weightMax item f.x = false) :
      Pass H f self parentR rep outpos count s μ (.exit (.accept item, μ₁))

variable {self : Firstn} {parentR rep : ℤ} {outpos : ℕ} {count : ℤ}

/-- **All that one pass can do.** -/
theorem attempt_pass {s : Search} {μ : Store} {nx : Next (Search × Store) (Verdict × Store)}
    (h : attempt H f self parentR rep outpos count (s, μ) = .ok nx) :
    Pass H f self parentR rep outpos count s μ nx := by
  unfold attempt at h
  dsimp only at h
  split at h
  · simp at h
  · cases h; exact .early false
  · cases h; exact .skip
  · rename_i item b hdraw
    cases h; exact .descend item b hdraw
  · rename_i item hdraw
    split at h
    · cases h; exact .early true
    -- No collision: the leaf search and the overload test decide.
    rename_i hcol
    have hfresh := collides_eq_false.mp (Bool.not_eq_true _ ▸ hcol)
    split at h
    · simp at h
    rename_i rejected μ₁ hleaf
    split at h
    · cases h; exact .late item rejected μ₁ hdraw hleaf
    · rename_i hrej
      simp only [Bool.or_eq_true, Bool.and_eq_true, beq_iff_eq, not_or, not_and,
        Bool.not_eq_true] at hrej
      cases h
      rw [hrej.1] at hleaf
      exact .accept item μ₁ hdraw hfresh hleaf hrej.2

/-! ### What an accepted item satisfies -/

/-- What acceptance of `item` for position `i` says, apart from its leaf. -/
structure Chosen (H : CrushHash) (f : FirstnInfo) (μ : Store) (i : ℕ) (item : ℤ) : Prop where
  drawn : Drawn H f.map f.x f.chooseArgs f.bucket item
  lt_maxDevices : item < f.map.maxDevices
  ofType : OfType f.map item f.type
  not_isOut : f.type = 0 → isOut H f.weight f.weightMax item f.x = false
  fresh : ∀ j < i, μ.cells f.out j ≠ item

/-- What acceptance of `item` for position `i` says about the leaf in `out2[i]`. -/
structure HasLeaf (H : CrushHash) (f : FirstnInfo) (μ : Store) (i : ℕ) (item : ℤ) : Prop where
  device : f.recurseToLeaf = true → 0 ≤ item → μ.cells f.out2 i = item
  bucket : f.recurseToLeaf = true → item < 0 → ∃ c count, f.map.bucket? (-1 - item) = some c ∧
    Chosen H (leafInfo f c i count) μ i (μ.cells f.out2 i)

/-- The item at position `i` of `out` was chosen for that position, and so was its leaf
    if `out2` is an array of its own. -/
structure Placed (H : CrushHash) (f : FirstnInfo) (μ : Store) (i : ℕ) : Prop where
  chosen : Chosen H f μ i (μ.cells f.out i)
  leaf : f.out2 ≠ f.out → HasLeaf H f μ i (μ.cells f.out i)

/-- What a run does to memory: it draws from visited buckets, and writes drawn items into
    its window of `out` (and `out2`, when it looks for leaves). -/
def RunEvent (H : CrushHash) (f : FirstnInfo) : Event → Prop
  | .visit b => Visits H f.map f.x f.chooseArgs f.bucket b
  | .write a i v => (a = f.out ∨ f.recurseToLeaf = true ∧ a = f.out2) ∧ f.outpos ≤ i ∧
      (i : ℤ) < f.outpos + min f.outSize (f.numrep - firstRep f) ∧
      Drawn H f.map f.x f.chooseArgs f.bucket v

/-- **Specification of a run** that returns `p`. -/
structure Placement (H : CrushHash) (f : FirstnInfo) (μ μ' : Store) (p : ℕ) : Prop where
  le : f.outpos ≤ p
  le_window : (p : ℤ) ≤ f.outpos + max 0 (min f.outSize (f.numrep - firstRep f))
  ext : Store.Ext (RunEvent H f) μ μ'
  placed : ∀ i, f.outpos ≤ i → i < p → Placed H f μ' i

/-- `run` meets the specification on all parameters. -/
structure Meets (H : CrushHash) (run : Firstn) : Prop where
  placement : ∀ {f parentR μ p μ'}, run f parentR μ = .ok (p, μ') → Placement H f μ μ' p
  fault : ∀ {f parentR μ e}, run f parentR μ = .error e → Store.Ext (RunEvent H f) μ e.μ

/-- Being chosen depends on the cells before the position only. -/
theorem Chosen.of_cells {μ μ' : Store} {i : ℕ} {item : ℤ} (h : Chosen H f μ i item)
    (hcells : ∀ j < i, μ'.cells f.out j = μ.cells f.out j) : Chosen H f μ' i item :=
  { h with fresh := fun j hj => hcells j hj ▸ h.fresh j hj }

/-- Placement at `i` only looks at the cells up to `i`. -/
theorem Placed.of_cells {μ μ' : Store} {i : ℕ} (h : Placed H f μ i)
    (hout : ∀ j ≤ i, μ'.cells f.out j = μ.cells f.out j)
    (hout2 : ∀ j ≤ i, μ'.cells f.out2 j = μ.cells f.out2 j) : Placed H f μ' i := by
  have hitem := hout i (le_refl i)
  have hleaf := hout2 i (le_refl i)
  constructor
  · rw [hitem]
    exact h.chosen.of_cells fun j hj => hout j (le_of_lt hj)
  · intro hne
    obtain ⟨hdev, hbucket⟩ := h.leaf hne
    rw [hitem]
    refine ⟨fun hr h0 => hleaf ▸ hdev hr h0, fun hr hneg => ?_⟩
    obtain ⟨c, count, hc, hch⟩ := hbucket hr hneg
    rw [hleaf]
    exact ⟨c, count, hc, hch.of_cells fun j hj => hout2 j (le_of_lt hj)⟩

/-! ### One search -/

/-- What the search for the replica at `outpos` does to memory: its only writes go to
    `out2[outpos]`. -/
def SearchEvent (H : CrushHash) (f : FirstnInfo) (outpos : ℕ) : Event → Prop
  | .visit b => Visits H f.map f.x f.chooseArgs f.bucket b
  | .write a i v => (f.recurseToLeaf = true ∧ a = f.out2) ∧ i = outpos ∧
      Drawn H f.map f.x f.chooseArgs f.bucket v

/-- The leaf search looks for one replica, with both ways of counting. -/
theorem leafInfo_window (b : CrushBucket) :
    (leafInfo f b outpos count).numrep - firstRep (leafInfo f b outpos count) = 1 := by
  simp only [leafInfo, firstRep]
  by_cases h : f.stable = true <;> simp [h]

/-- The leaf search writes one cell at most, and below the item drawn. -/
theorem leaf_event {b : CrushBucket} {item : ℤ} {e : Event} (hrec : f.recurseToLeaf = true)
    (hdrawn : Drawn H f.map f.x f.chooseArgs f.bucket item) (hneg : item < 0)
    (hb : f.map.bucket? (-1 - item) = some b)
    (he : RunEvent H (leafInfo f b outpos count) e) : SearchEvent H f outpos e := by
  cases e with
  | visit c => exact (hdrawn.visits_child hneg hb).trans he
  | write a i v =>
    obtain ⟨ha, hlo, hhi, hv⟩ := he
    rw [leafInfo_window] at hhi
    refine ⟨⟨hrec, ?_⟩, ?_, hdrawn.of_child hneg hb hv⟩
    · -- The leaf search gets `out2` as its `out`, and looks for no leaves itself.
      rcases ha with ha | ⟨hfalse, -⟩
      · exact ha
      · cases hfalse
    · have h1 : outpos ≤ i := hlo
      have h2 : (i : ℤ) < outpos + min count 1 := hhi
      omega

/-- All that the part of a pass that looks for a leaf can do. -/
theorem findLeaf_ok {r item : ℤ} {μ μ' : Store} {rejected : Bool}
    (h : findLeaf f self r outpos count item μ = .ok (rejected, μ')) :
    (f.recurseToLeaf = false ∧ rejected = false ∧ μ' = μ) ∨
    (f.recurseToLeaf = true ∧ 0 ≤ item ∧ rejected = false ∧ μ' = μ.write f.out2 outpos item) ∨
    (f.recurseToLeaf = true ∧ item < 0 ∧ ∃ b p, f.map.readBucket (-1 - item) = .ok b ∧
      self (leafInfo f b outpos count) (subR f r) μ = .ok (p, μ') ∧
      rejected = decide (p ≤ outpos)) := by
  unfold findLeaf at h
  split at h
  · rename_i hrec
    split at h
    · -- A bucket, and so a leaf search in it.
      rename_i hneg
      split at h
      · simp at h
      rename_i b hread
      split at h
      · simp at h
      rename_i p μ₁ hrun
      cases h
      exact Or.inr (Or.inr ⟨hrec, hneg, b, p, hread, hrun, rfl⟩)
    · rename_i hneg
      cases h
      exact Or.inr (Or.inl ⟨hrec, by omega, rfl, rfl⟩)
  · rename_i hrec
    cases h
    exact Or.inl ⟨by simpa using hrec, rfl, rfl⟩

/-- A leaf search adds one leaf at most. -/
theorem leaf_le {b : CrushBucket} {μ μ' : Store} {p : ℕ}
    (h : Placement H (leafInfo f b outpos count) μ μ' p) : p ≤ outpos + 1 := by
  have hwin : (p : ℤ) ≤ outpos + max 0 (min count _) := h.le_window
  rw [leafInfo_window] at hwin
  omega

/-- The part of a pass that looks for a leaf. -/
theorem findLeaf_spec (hself : Meets H self) {r item : ℤ} {μ μ' : Store} {rejected : Bool}
    (hdrawn : Drawn H f.map f.x f.chooseArgs f.bucket item)
    (h : findLeaf f self r outpos count item μ = .ok (rejected, μ')) :
    Store.Ext (SearchEvent H f outpos) μ μ' ∧
      (rejected = false → HasLeaf H f μ' outpos item) := by
  rcases findLeaf_ok h with
    ⟨hrec, -, rfl⟩ | ⟨hrec, hnn, -, rfl⟩ | ⟨hrec, hneg, b, p, hread, hrun, rfl⟩
  · -- No leaf is asked for.
    refine ⟨Store.Ext.refl _ _, fun _ => ?_⟩
    constructor <;> simp [hrec]
  · -- A device is its own leaf.
    refine ⟨Store.Ext.write ⟨⟨hrec, rfl⟩, rfl, hdrawn⟩, fun _ => ?_⟩
    constructor
    · intro _ _
      apply Store.write_cells_self
    · intro _ hneg
      omega
  · -- Below a bucket the function calls itself, for one device.
    have hb := f.map.readBucket_ok.mp hread
    have hspec := hself.placement hrun
    refine ⟨hspec.ext.mono fun e he => leaf_event hrec hdrawn hneg hb he, fun hp => ?_⟩
    have hlt : outpos < p := by simpa using hp
    constructor
    · intro _ hnn
      omega
    · intro _ _
      exact ⟨b, count, hb, (hspec.placed outpos (le_refl _) hlt).chosen⟩

/-- A leaf search that stops short. -/
theorem findLeaf_error (hself : Meets H self) {r item : ℤ} {μ : Store} {e : Fault}
    (hdrawn : Drawn H f.map f.x f.chooseArgs f.bucket item)
    (h : findLeaf f self r outpos count item μ = .error e) :
    Store.Ext (SearchEvent H f outpos) μ e.μ := by
  unfold findLeaf at h
  split at h
  · rename_i hrec
    split at h
    · rename_i hneg
      split at h
      · cases h; exact Store.Ext.refl _ _
      -- The events of the leaf search are events of this search.
      rename_i b hread
      have hb := f.map.readBucket_ok.mp hread
      split at h
      · rename_i hrun
        cases h
        exact (hself.fault hrun).mono fun e he => leaf_event hrec hdrawn hneg hb he
      · simp at h
    · simp at h
  · simp at h

/-- After `reject:` the search goes on in the same bucket or at the top. -/
theorem rejected_cur {s s' : Search} {collide : Bool} (h : s.rejected f collide = some s') :
    s'.cur = s.cur ∨ s'.cur = f.bucket := by
  unfold Search.rejected at h
  dsimp only at h
  split at h
  · cases h; exact Or.inl rfl
  · cases h; exact Or.inr rfl
  · simp at h

/-- A pass goes round because its draw was rejected, or to descend. -/
theorem Pass.again {s s' : Search} {μ μ' : Store}
    (h : Pass H f self parentR rep outpos count s μ (.again (s', μ'))) :
    (∃ collide, s.rejected f collide = some s') ∨
      ∃ item b, drawItem H f s.cur (randomFactor rep parentR s.ftotal) outpos
        = .ok (.descend item b) ∧ s' = { s with cur := b } := by
  -- `reject:` goes round with the search it says.
  have hreject : ∀ {collide : Bool} {μ₁ : Store}, reject f collide s μ₁ = .again (s', μ') →
      ∃ collide, s.rejected f collide = some s' := by
    intro collide μ₁ hr
    unfold reject at hr
    split at hr
    · rename_i hs
      cases hr
      exact ⟨collide, hs⟩
    · cases hr
  generalize hnx : Next.again (s', μ') = nx at h
  cases h with
  | skip => cases hnx
  | accept => cases hnx
  | early collide => exact Or.inl (hreject hnx.symm)
  | late item rejected μ₁ hdraw hleaf => exact Or.inl (hreject hnx.symm)
  | descend item b hdraw =>
    cases hnx
    exact Or.inr ⟨item, b, hdraw, rfl⟩

/-- What the search keeps while it goes round. -/
def Searching (H : CrushHash) (f : FirstnInfo) (outpos : ℕ) (μ : Store) (st : Search × Store) :
    Prop :=
  Visits H f.map f.x f.chooseArgs f.bucket st.1.cur ∧
    Store.Ext (SearchEvent H f outpos) μ st.2

/-- A pass that ends at `reject:` keeps `Searching`, or gives up. -/
theorem reject_cases {s : Search} {μ μ₁ : Store} {collide : Bool}
    (hs : Visits H f.map f.x f.chooseArgs f.bucket s.cur)
    (hext : Store.Ext (SearchEvent H f outpos) μ μ₁) :
    (∃ s', reject f collide s μ₁ = .again (s', μ₁) ∧ Searching H f outpos μ (s', μ₁)) ∨
      reject f collide s μ₁ = .exit (.skip, μ₁) := by
  unfold reject
  cases hr : s.rejected f collide with
  | none => exact Or.inr rfl
  | some s' =>
    refine Or.inl ⟨s', rfl, ?_, hext⟩
    rcases rejected_cur hr with h | h
    · simpa only [h] using hs
    · simpa only [h] using Visits.start

/-- A candidate has been drawn on a descent from the start. -/
theorem Searching.drawn {s : Search} {μ μ₁ : Store} {r item : ℤ}
    (hs : Searching H f outpos μ (s, μ₁))
    (hdraw : drawItem H f s.cur r outpos = .ok (.candidate item)) :
    Drawn H f.map f.x f.chooseArgs f.bucket item := by
  obtain ⟨hsize, hitem, -, -⟩ := drawItem_candidate hdraw
  exact ⟨s.cur, r, outpos, hs.1, hsize, hitem⟩

/-- What an accepted item of a search satisfies. -/
def Accepted (H : CrushHash) (f : FirstnInfo) (outpos : ℕ) (μ : Store) (w : Verdict × Store) :
    Prop :=
  Store.Ext (SearchEvent H f outpos) μ w.2 ∧
    ∀ item, w.1 = .accept item → Chosen H f w.2 outpos item ∧ HasLeaf H f w.2 outpos item

/-- **Step lemma of the search.** -/
theorem pass_spec (hself : Meets H self) {s : Search} {μ μ₁ : Store}
    {nx : Next (Search × Store) (Verdict × Store)} (hs : Searching H f outpos μ (s, μ₁))
    (h : Pass H f self parentR rep outpos count s μ₁ nx) :
    (∃ st', nx = .again st' ∧ Searching H f outpos μ st') ∨
      ∃ w, nx = .exit w ∧ Accepted H f outpos μ w := by
  have hvisit : Store.Ext (SearchEvent H f outpos) μ (μ₁.visit s.cur) :=
    hs.2.trans (Store.Ext.visit hs.1)
  -- Both kinds of rejection go on with `Searching` or leave with `skip`.
  have hreject : ∀ {collide : Bool} {μ₂ : Store}, Store.Ext (SearchEvent H f outpos) μ μ₂ →
      (∃ st', reject f collide s μ₂ = .again st' ∧ Searching H f outpos μ st') ∨
        ∃ w, reject f collide s μ₂ = .exit w ∧ Accepted H f outpos μ w := by
    intro collide μ₂ hext
    rcases reject_cases hs.1 hext with ⟨s', hr, hs'⟩ | hr
    · exact Or.inl ⟨_, hr, hs'⟩
    · exact Or.inr ⟨_, hr, hext, by simp⟩
  cases h with
  | skip => exact Or.inr ⟨_, rfl, hvisit, by simp⟩
  | descend item b hdraw =>
    obtain ⟨hsize, rfl, -, hneg, hb⟩ := drawItem_descend hdraw
    exact Or.inl ⟨_, rfl, hs.1.child _ _ hsize hneg hb, hvisit⟩
  | early collide => exact hreject hvisit
  | late item rejected μ₂ hdraw hleaf =>
    exact hreject (hvisit.trans (findLeaf_spec hself (hs.drawn hdraw) hleaf).1)
  | accept item μ₂ hdraw hfresh hleaf hin =>
    obtain ⟨hext, hl⟩ := findLeaf_spec hself (hs.drawn hdraw) hleaf
    obtain ⟨-, -, hmax, htype⟩ := drawItem_candidate hdraw
    refine Or.inr ⟨_, rfl, hvisit.trans hext, fun item' hitem => ?_⟩
    obtain rfl : item = item' := Verdict.accept.inj hitem
    refine ⟨⟨hs.drawn hdraw, hmax, htype, hin, fun j hj => ?_⟩, hl rfl⟩
    -- The leaf went to position `outpos`, so the scan still holds afterwards.
    rw [hext.cells_eq (fun v hv => by have := hv.2.1; omega), Store.visit_cells]
    exact hfresh j hj

/-- A pass that stops short. -/
theorem attempt_error (hself : Meets H self) {s : Search} {μ μ₁ : Store} {e : Fault}
    (hs : Searching H f outpos μ (s, μ₁))
    (h : attempt H f self parentR rep outpos count (s, μ₁) = .error e) :
    Store.Ext (SearchEvent H f outpos) μ e.μ := by
  -- The visit to the current bucket comes before anything can fail.
  have hvisit : Store.Ext (SearchEvent H f outpos) μ (μ₁.visit s.cur) :=
    hs.2.trans (Store.Ext.visit hs.1)
  unfold attempt at h
  dsimp only at h
  split at h
  · cases h; exact hvisit
  · simp at h
  · simp at h
  · simp at h
  · rename_i item hdraw
    split at h
    · simp at h
    split at h
    · rename_i hleaf
      cases h
      exact hvisit.trans (findLeaf_error hself (hs.drawn hdraw) hleaf)
    · split at h <;> cases h

/-- What the search keeps, as a step lemma of its loop. -/
theorem Searching.step (hself : Meets H self) {μ : Store} {st st' : Search × Store}
    (hs : Searching H f outpos μ st)
    (h : attempt H f self parentR rep outpos count st = .ok (.again st')) :
    Searching H f outpos μ st' := by
  rcases pass_spec hself hs (attempt_pass h) with ⟨_, heq, hs'⟩ | ⟨_, heq, _⟩
  · cases heq; exact hs'
  · simp at heq

theorem Searching.start (μ : Store) : Searching H f outpos μ (Search.start f, μ) :=
  ⟨Visits.start, Store.Ext.refl _ _⟩

/-- **What a search accepts**, over all of its passes. -/
theorem search_spec (hself : Meets H self) {n : ℕ} {μ : Store} {w : Verdict × Store}
    (h : loop attemptTimeout (attempt H f self parentR rep outpos count) n (Search.start f, μ)
      = .ok w) :
    Accepted H f outpos μ w := by
  refine loop_rule (Searching H f outpos μ) (Accepted H f outpos μ)
    (fun _ _ hs hb => hs.step hself hb) ?_ (Searching.start μ) h
  rintro ⟨s, μ₁⟩ w hs hb
  rcases pass_spec hself hs (attempt_pass hb) with ⟨_, heq, _⟩ | ⟨_, heq, hw⟩
  · simp at heq
  · cases heq; exact hw

/-- A search that stops short has touched what it may touch only. -/
theorem search_error (hself : Meets H self) {n : ℕ} {μ : Store} {e : Fault}
    (h : loop attemptTimeout (attempt H f self parentR rep outpos count) n (Search.start f, μ)
      = .error e) : Store.Ext (SearchEvent H f outpos) μ e.μ :=
  loop_rule_error (Searching H f outpos μ) (fun e => Store.Ext (SearchEvent H f outpos) μ e.μ)
    (fun _ _ hs hb => hs.step hself hb) (fun _ _ hs hb => attempt_error hself hs hb)
    (fun _ hs => hs.2) (Searching.start μ) h

/-! ### The loop over replicas -/

/-- All that one pass of the loop over replicas can do when it goes round. -/
theorem placeReplica_again {fuel : ℕ} {st st' : Replicas}
    (h : placeReplica H f self fuel parentR st = .ok (.again st')) :
    st.rep < f.numrep ∧ 0 < st.count ∧ ∃ v μ',
      loop attemptTimeout (attempt H f self parentR st.rep st.outpos st.count) fuel
        (Search.start f, st.μ) = .ok (v, μ') ∧
      ((v = .skip ∧ st' = { st with rep := st.rep + 1, μ := μ' }) ∨ ∃ item, v = .accept item ∧
        st' = ⟨st.rep + 1, st.outpos + 1, st.count - 1, μ'.write f.out st.outpos item⟩) := by
  unfold placeReplica at h
  split at h
  · rename_i hguard
    refine ⟨hguard.1, hguard.2, ?_⟩
    split at h
    · simp at h
    · rename_i μ' hsearch
      cases h; exact ⟨_, _, hsearch, Or.inl ⟨rfl, rfl⟩⟩
    · rename_i item μ' hsearch
      cases h; exact ⟨_, _, hsearch, Or.inr ⟨item, rfl, rfl⟩⟩
  · simp at h

/-- The loop over replicas ends with the position it has got to. -/
theorem placeReplica_exit {fuel : ℕ} {st : Replicas} {w : ℕ × Store}
    (h : placeReplica H f self fuel parentR st = .ok (.exit w)) : w = (st.outpos, st.μ) := by
  unfold placeReplica at h
  split at h
  · split at h <;> cases h
  · cases h; rfl

/-- It stops short when a search does. -/
theorem placeReplica_fails {fuel : ℕ} {st : Replicas} {e : Fault}
    (h : placeReplica H f self fuel parentR st = .error e) :
    (st.rep < f.numrep ∧ st.count > 0) ∧
      loop attemptTimeout (attempt H f self parentR st.rep st.outpos st.count) fuel
        (Search.start f, st.μ) = .error e := by
  unfold placeReplica at h
  split at h
  · rename_i hguard
    split at h
    · rename_i hsearch
      cases h
      exact ⟨hguard, hsearch⟩
    · cases h
    · cases h
  · cases h

/-- A search at `outpos` leaves the positions before it alone. -/
theorem search_cells {μ μ' : Store} (h : Store.Ext (SearchEvent H f outpos) μ μ') (a : ℕ) {j : ℕ}
    (hj : j < outpos) : μ'.cells a j = μ.cells a j :=
  h.cells_eq fun v hv => by have := hv.2.1; omega

/-- A pass of the loop over replicas leaves the positions before `outpos` alone. -/
theorem placeReplica_cells (hself : Meets H self) {fuel : ℕ} {st st' : Replicas}
    (h : placeReplica H f self fuel parentR st = .ok (.again st')) :
    st.outpos ≤ st'.outpos ∧ ∀ a, ∀ j < st.outpos, st'.μ.cells a j = st.μ.cells a j := by
  obtain ⟨-, -, v, μ', hsearch, ⟨-, rfl⟩ | ⟨item, -, rfl⟩⟩ := placeReplica_again h
  · exact ⟨le_refl _, fun a j hj => search_cells (search_spec hself hsearch).1 a hj⟩
  · refine ⟨Nat.le_succ _, fun a j hj => ?_⟩
    rw [← search_cells (search_spec hself hsearch).1 a hj]
    exact μ'.write_cells_of_ne item (by omega)

/-- What is placed stays. -/
theorem replicas_cells (hself : Meets H self) {fuel n : ℕ} {st : Replicas} {w : ℕ × Store}
    (h : loop replicasTimeout (placeReplica H f self fuel parentR) n st = .ok w) :
    st.outpos ≤ w.1 ∧ ∀ a, ∀ j < st.outpos, w.2.cells a j = st.μ.cells a j := by
  refine loop_rule
    (fun st' => st.outpos ≤ st'.outpos ∧ ∀ a, ∀ j < st.outpos, st'.μ.cells a j = st.μ.cells a j)
    (fun w => st.outpos ≤ w.1 ∧ ∀ a, ∀ j < st.outpos, w.2.cells a j = st.μ.cells a j) ?_ ?_
    ⟨le_refl _, fun _ _ _ => rfl⟩ h
  · rintro st₁ st₂ ⟨hle, hcells⟩ hb
    obtain ⟨hle', hcells'⟩ := placeReplica_cells hself hb
    exact ⟨le_trans hle hle', fun a j hj =>
      (hcells' a j (lt_of_lt_of_le hj hle)).trans (hcells a j hj)⟩
  · rintro st₁ w ⟨hle, hcells⟩ hb
    rw [placeReplica_exit hb]
    exact ⟨hle, hcells⟩

/-- What the loop over replicas keeps. -/
structure Placing (H : CrushHash) (f : FirstnInfo) (μ : Store) (st : Replicas) : Prop where
  placement : Placement H f μ st.μ st.outpos
  count_eq : (st.outpos : ℤ) + st.count = f.outpos + f.outSize
  le_rep : (st.outpos : ℤ) - f.outpos ≤ st.rep - firstRep f

theorem Placing.start (μ : Store) : Placing H f μ (Replicas.start f μ) where
  placement := ⟨le_refl _, by simp only [Replicas.start]; omega, Store.Ext.refl _ _,
    fun i hlo hhi => absurd hhi (not_lt.mpr hlo)⟩
  count_eq := rfl
  le_rep := by simp [Replicas.start]

/-- A search for the next replica stays inside the window. -/
theorem Placing.search_event {μ : Store} {st : Replicas} (hst : Placing H f μ st)
    (hguard : st.rep < f.numrep ∧ st.count > 0) {e : Event} (he : SearchEvent H f st.outpos e) :
    RunEvent H f e := by
  obtain ⟨⟨hle, -, -, -⟩, hcnt, hler⟩ := hst
  cases e with
  | visit b => exact he
  | write a i v =>
    obtain ⟨ha, rfl, hv⟩ := he
    exact ⟨Or.inr ha, hle, by omega, hv⟩

/-- An accepted item is in place once it is stored. -/
theorem Placed.of_accepted {μ : Store} {i : ℕ} {item : ℤ} (hch : Chosen H f μ i item)
    (hl : HasLeaf H f μ i item) : Placed H f (μ.write f.out i item) i := by
  have hsame : ∀ a, ∀ j < i, (μ.write f.out i item).cells a j = μ.cells a j :=
    fun a j hj => μ.write_cells_of_ne item (by omega)
  constructor
  · rw [Store.write_cells_self]
    exact hch.of_cells fun j hj => hsame _ j hj
  · intro hne
    -- The leaf is in another array, which the store to `out` leaves alone.
    have hcell : (μ.write f.out i item).cells f.out2 i = μ.cells f.out2 i :=
      μ.write_cells_of_ne item fun h => hne h.1
    rw [Store.write_cells_self]
    constructor
    · intro hr h0
      rw [hcell]
      exact hl.device hr h0
    · intro hr hneg
      obtain ⟨c, count, hc, hleaf⟩ := hl.bucket hr hneg
      rw [hcell]
      exact ⟨c, count, hc, hleaf.of_cells fun j hj => hsame _ j hj⟩

/-- **Step lemma of the loop over replicas.** -/
theorem Placing.step (hself : Meets H self) {fuel : ℕ} {μ : Store} {st st' : Replicas}
    (hst : Placing H f μ st) (h : placeReplica H f self fuel parentR st = .ok (.again st')) :
    Placing H f μ st' := by
  obtain ⟨hrep, hcount, v, μ', hsearch, hcase⟩ := placeReplica_again h
  obtain ⟨hsext, hacc⟩ := search_spec hself hsearch
  dsimp only at hsext hacc
  have hrun : Store.Ext (RunEvent H f) st.μ μ' :=
    hsext.mono fun _ => hst.search_event ⟨hrep, hcount⟩
  obtain ⟨⟨hle, hwin, hext, hplaced⟩, hcnt, hler⟩ := hst
  -- The search has left the positions before its own alone, and so does the store to `out`.
  have hold : ∀ i, f.outpos ≤ i → i < st.outpos → Placed H f μ' i := by
    intro i hlo hhi
    apply (hplaced i hlo hhi).of_cells
    · exact fun j hj => search_cells hsext _ (by omega)
    · exact fun j hj => search_cells hsext _ (by omega)
  rcases hcase with ⟨rfl, rfl⟩ | ⟨item, rfl, rfl⟩
  · exact ⟨⟨hle, hwin, hext.trans hrun, hold⟩, hcnt, by dsimp only; omega⟩
  · obtain ⟨hch, hl⟩ := hacc item rfl
    have hwrite : RunEvent H f (.write f.out st.outpos item) :=
      ⟨Or.inl rfl, hle, by omega, hch.drawn⟩
    have hsame : ∀ a, ∀ j < st.outpos, (μ'.write f.out st.outpos item).cells a j = μ'.cells a j :=
      fun a j hj => μ'.write_cells_of_ne item (by omega)
    refine ⟨⟨by dsimp only; omega, by dsimp only; omega,
      (hext.trans hrun).trans (Store.Ext.write hwrite), ?_⟩, by dsimp only; omega,
      by dsimp only; omega⟩
    intro i hlo hhi
    rcases Nat.lt_succ_iff_lt_or_eq.mp hhi with hlt | rfl
    · apply (hold i hlo hlt).of_cells
      · exact fun j hj => hsame _ j (by omega)
      · exact fun j hj => hsame _ j (by omega)
    · exact Placed.of_accepted hch hl

/-- A pass of the loop over replicas that stops short. -/
theorem placeReplica_error (hself : Meets H self) {fuel : ℕ} {μ : Store} {st : Replicas}
    {e : Fault} (hst : Placing H f μ st)
    (h : placeReplica H f self fuel parentR st = .error e) : Store.Ext (RunEvent H f) μ e.μ := by
  obtain ⟨hguard, hsearch⟩ := placeReplica_fails h
  exact hst.placement.ext.trans
    ((search_error hself hsearch).mono fun _ => hst.search_event hguard)

/-- **Specification of `crush_choose_firstn`.** -/
theorem crushChooseFirstn_spec (H : CrushHash) (fuel : ℕ) : Meets H (crushChooseFirstn H fuel) := by
  induction fuel with
  | zero =>
    constructor
    · intro f parentR μ p μ' h; cases h
    · intro f parentR μ e h; cases h; exact Store.Ext.refl _ _
  | succ fuel ih =>
    -- The leaf searches of a run with one more unit of fuel meet the specification by `ih`.
    constructor
    · intro f parentR μ p μ' h
      refine loop_rule (Placing H f μ) (fun w => Placement H f μ w.2 w.1)
        (fun _ _ hst hb => hst.step ih hb) ?_ (Placing.start μ) h
      intro st w hst hb
      rw [placeReplica_exit hb]
      exact hst.placement
    · intro f parentR μ e h
      exact loop_rule_error (Placing H f μ) (fun e => Store.Ext (RunEvent H f) μ e.μ)
        (fun _ _ hst hb => hst.step ih hb) (fun _ _ hst hb => placeReplica_error ih hst hb)
        (fun _ hst => hst.placement.ext) (Placing.start μ) h

/-- The store a run leaves, whether it returns or stops short. -/
def storeLeft : Except Fault (ℕ × Store) → Store
  | .ok w => w.2
  | .error e => e.μ

/-- The events of a run, whether it returns or not. -/
theorem Meets.ext {run : Firstn} (h : Meets H run) (f : FirstnInfo) (parentR : ℤ) (μ : Store) :
    Store.Ext (RunEvent H f) μ (storeLeft (run f parentR μ)) := by
  cases hrun : run f parentR μ with
  | error e => exact h.fault hrun
  | ok w => exact (h.placement hrun).ext

end MyCeph.Crush
