import MyCeph.Crush.Eligible
import MyCeph.Crush.Separation

namespace MyCeph.Crush

open Lib Relation

/-!
# Failure domains

A search for buckets of a type stops at the first one on its way down, so what it accepts has
no bucket of that type between the start and itself (`FirstOfType`).  On a tree two such
buckets have disjoint subtrees, and so no bucket of the type holds the leaves of two positions:
losing one failure domain loses at most one replica (`crushChooseFirstn_domains`).

`crushChooseFirstn_accepted` lifts what is known of every accepted item to the positions of the
result.
-/

/-! ### First of its type -/

/-- A link to an item that a search for type `type` enters. -/
def Passable (m : CrushMap) (type p c : ℤ) : Prop := m.Link p c ∧ ¬ OfType m c type

/-- `c` is found below `start`, with nothing of type `type` in between. -/
def FirstOfType (m : CrushMap) (start type c : ℤ) : Prop :=
  ∃ p, ReflTransGen (Passable m type) start p ∧ m.Link p c

variable {m : CrushMap} {start type : ℤ}

/-- An item stands in one bucket. -/
theorem CrushMap.TreeShaped.parent_unique (h : m.TreeShaped) {p p' c : ℤ} (hp : m.Link p c)
    (hp' : m.Link p' c) : p = p' := by
  obtain ⟨b, hb, hc⟩ := hp
  obtain ⟨b', hb', hc'⟩ := hp'
  obtain ⟨j, hj⟩ := List.mem_iff_getElem?.mp hc
  obtain ⟨j', hj'⟩ := List.mem_iff_getElem?.mp hc'
  have := (h.one_place hb hb' hj hj').1
  omega

/-- Above an item that is the first of its type there is none of that type. -/
theorem FirstOfType.not_reaches (htree : m.TreeShaped) {c q : ℤ} (hc : FirstOfType m start type c)
    (hq : m.Reaches start q) (htype : OfType m q type) : ¬ m.Reaches q c := by
  obtain ⟨p, hpath, hlink⟩ := hc
  -- Going up from `c` along the path, `q` is met at the start at the latest.
  have hup : ∀ {p}, ReflTransGen (Passable m type) start p → ¬ m.AtOrBelow q p := by
    intro p hpath
    induction hpath with
    | refl => exact fun hqs => htree.acyclic q (TransGen.trans_right hqs hq)
    | @tail a p _ hap ih =>
      intro hqp
      rcases ReflTransGen.cases_tail hqp with rfl | ⟨a', hqa, hap'⟩
      · exact hap.2 htype
      · rw [htree.parent_unique hap' hap.1] at hqa
        exact ih hqa
  intro hqc
  obtain ⟨p', hqp, hlink'⟩ := TransGen.tail'_iff.mp hqc
  rw [htree.parent_unique hlink' hlink] at hqp
  exact hup hpath hqp

theorem FirstOfType.reaches {c : ℤ} (h : FirstOfType m start type c) : m.Reaches start c := by
  obtain ⟨p, hpath, hlink⟩ := h
  have hle : Passable m type ≤ m.Link := fun _ _ h => h.1
  exact TransGen.tail' (ReflTransGen.mono hle _ _ hpath) hlink

/-- Of two ids that are the first of one type, neither is above the other. -/
theorem FirstOfType.eq_of_atOrBelow (htree : m.TreeShaped) {c c' : ℤ}
    (hc : FirstOfType m start type c) (hc' : FirstOfType m start type c')
    (htype : OfType m c type) (h : m.AtOrBelow c c') : c = c' := by
  rcases reflTransGen_iff_eq_or_transGen.mp h with rfl | hreach
  · rfl
  · exact absurd hreach (hc'.not_reaches htree hc.reaches htype)

/-- No bucket of the type holds something below each of two items that are the first of it. -/
theorem FirstOfType.disjoint (htree : m.TreeShaped) {c c' e e' q : ℤ}
    (hc : FirstOfType m start type c) (hc' : FirstOfType m start type c')
    (hct : OfType m c type) (hct' : OfType m c' type) (hne : c ≠ c') (he : m.AtOrBelow c e)
    (he' : m.AtOrBelow c' e') (hq : m.Reaches start q) (hqt : OfType m q type) :
    ¬ (m.AtOrBelow q e ∧ m.AtOrBelow q e') := by
  -- What is at or above `e` and is of the type is at or below `c`.
  have hbelow : ∀ {c e : ℤ}, FirstOfType m start type c → m.AtOrBelow c e → m.AtOrBelow q e →
      m.AtOrBelow c q := by
    intro c e hc he hqe
    rcases htree.comparable he hqe with h | h
    · rcases reflTransGen_iff_eq_or_transGen.mp h with rfl | hreach
      · exact ReflTransGen.refl
      · exact absurd hreach (hc.not_reaches htree hq hqt)
    · exact h
  rintro ⟨hqe, hqe'⟩
  apply hne
  rcases htree.comparable (hbelow hc he hqe) (hbelow hc' he' hqe') with h | h
  · exact (hc'.eq_of_atOrBelow htree hc hct' h).symm
  · exact hc.eq_of_atOrBelow htree hc' hct h

/-! ### The search stops at the first -/

variable {H : CrushHash} {f : FirstnInfo} {self : Firstn} {parentR rep count : ℤ} {outpos : ℕ}

/-- A bucket is entered because it is not of the type wanted. -/
theorem drawItem_descend_ofType {cur : CrushBucket} {r : ℤ} {position : ℕ} {item : ℤ}
    {b : CrushBucket} (h : drawItem H f cur r position = .ok (.descend item b)) :
    ¬ OfType f.map item f.type := by
  obtain ⟨-, -, -, hneg, hb⟩ := drawItem_descend h
  have htype : (b.type : ℤ) ≠ f.type := by
    unfold drawItem at h
    dsimp only at h
    split at h
    · cases h
    split at h
    · cases h
    split at h
    · cases h
    -- The test against the type wanted comes before the descent.
    rename_i t ht
    split at h
    · rename_i hne
      split at h
      · cases h
      split at h
      · cases h
      rename_i b' hread
      cases h
      rcases itemType_ok ht with ⟨hnn, -⟩ | ⟨-, b'', hb'', hbt⟩
      · omega
      · obtain rfl : b = b'' := Option.some.inj (hb.symm.trans hb'')
        omega
    · cases h
  -- The bucket found for the id is the one whose type was tested.
  rintro (⟨hnn, -⟩ | ⟨-, b', hb', hbt⟩)
  · omega
  · obtain rfl : b = b' := Option.some.inj (hb.symm.trans hb')
    exact htype hbt

/-- The bucket a search is at: only buckets of other types lie on the way. -/
def PastOthers (f : FirstnInfo) (b : CrushBucket) : Prop :=
  f.map.Has b ∧ ReflTransGen (Passable f.map f.type) f.bucket.id b.id

/-- What is drawn is an item of the bucket. -/
theorem PastOthers.link (hwf : f.map.WellFormed) {b : CrushBucket} (hb : f.map.Has b)
    (hsize : b.size ≠ 0) (r : ℤ) (position : ℕ) :
    f.map.Link b.id (chooseItem H f.x f.chooseArgs b r position) :=
  hwf.link_of_mem hb (chooseItem_mem H f.x f.chooseArgs hwf hb hsize r position)

/-- **Step lemma of the search.** -/
theorem PastOthers.step (hwf : f.map.WellFormed) (hstart : f.map.Has f.bucket)
    {s s' : Search} {μ μ' : Store} (hs : PastOthers f s.cur)
    (h : attempt H f self parentR rep outpos count (s, μ) = .ok (.again (s', μ'))) :
    PastOthers f s'.cur := by
  rcases (attempt_pass h).again with ⟨collide, hr⟩ | ⟨item, b, hdraw, rfl⟩
  · -- A retry goes on in the same bucket or at the top.
    rcases rejected_cur hr with heq | heq
    · rw [heq]; exact hs
    · rw [heq]; exact ⟨hstart, ReflTransGen.refl⟩
  · have hne := drawItem_descend_ofType hdraw
    obtain ⟨hsize, rfl, -, -, hb⟩ := drawItem_descend hdraw
    refine ⟨⟨_, hb⟩, hs.2.tail ?_⟩
    dsimp only
    rw [hwf.id_of_bucket hb]
    exact ⟨PastOthers.link hwf hs.1 hsize _ _, hne⟩

/-- **What a search accepts is the first of its type.** -/
theorem search_firstOfType (hwf : f.map.WellFormed) (hstart : f.map.Has f.bucket) {n : ℕ}
    {μ μ' : Store} {item : ℤ}
    (h : loop attemptTimeout (attempt H f self parentR rep outpos count) n (Search.start f, μ)
      = .ok (.accept item, μ')) :
    FirstOfType f.map f.bucket.id f.type item := by
  refine loop_rule (fun st => PastOthers f st.1.cur)
    (fun w => ∀ item, w.1 = .accept item → FirstOfType f.map f.bucket.id f.type item)
    (fun _ _ hs hb => hs.step hwf hstart hb) ?_ ⟨hstart, ReflTransGen.refl⟩ h item rfl
  rintro ⟨s, μ₁⟩ w hs hb item hw
  obtain ⟨v, μ₂⟩ := w
  subst hw
  -- Only an accepting pass ends the search so.
  have hp := attempt_pass hb
  generalize hnx : Next.exit (Verdict.accept item, μ₂) = nx at hp
  cases hp with
  | skip => cases hnx
  | descend => cases hnx
  | early collide =>
    unfold reject at hnx
    split at hnx <;> cases hnx
  | late item' rejected μ₃ =>
    unfold reject at hnx
    split at hnx <;> cases hnx
  | accept item' μ₃ hdraw =>
    cases hnx
    obtain ⟨hsize, rfl, -, -⟩ := drawItem_candidate hdraw
    exact ⟨s.cur.id, hs.2, PastOthers.link hwf hs.1 hsize _ _⟩

/-! ### From the search to the result -/

/-- What is known of every item that a search of the run accepts. -/
def AllAccepted (H : CrushHash) (f : FirstnInfo) (self : Firstn) (parentR : ℤ) (P : ℤ → Prop) :
    Prop :=
  ∀ {n : ℕ} {rep : ℤ} {outpos : ℕ} {count : ℤ} {μ μ' : Store} {item : ℤ},
    loop attemptTimeout (attempt H f self parentR rep outpos count) n (Search.start f, μ)
      = .ok (.accept item, μ') → P item

/-- **What holds of every accepted item holds of every position of the result.** -/
theorem crushChooseFirstn_accepted {fuel : ℕ} {P : ℤ → Prop}
    (hP : AllAccepted H f (crushChooseFirstn H fuel) parentR P) {μ μ' : Store} {p : ℕ}
    (h : crushChooseFirstn H (fuel + 1) f parentR μ = .ok (p, μ')) :
    ∀ i, f.outpos ≤ i → i < p → P (μ'.cells f.out i) := by
  have hself := crushChooseFirstn_spec H fuel
  rw [crushChooseFirstn_succ] at h
  refine loop_rule (fun st => ∀ i, f.outpos ≤ i → i < st.outpos → P (st.μ.cells f.out i))
    (fun w => ∀ i, f.outpos ≤ i → i < w.1 → P (w.2.cells f.out i)) ?_ ?_ ?_ h
  · intro st st' hst hb i hlo hhi
    obtain ⟨-, -, v, μ₁, hsearch, hcase⟩ := placeReplica_again hb
    -- A search leaves the positions filled before.
    have hkeep : ∀ j < st.outpos, μ₁.cells f.out j = st.μ.cells f.out j :=
      fun j hj => search_cells (search_spec hself hsearch).1 _ hj
    rcases hcase with ⟨rfl, rfl⟩ | ⟨item, rfl, rfl⟩
    · dsimp only
      rw [hkeep i hhi]
      exact hst i hlo hhi
    · dsimp only at hhi ⊢
      rcases Nat.lt_succ_iff_lt_or_eq.mp hhi with hlt | rfl
      · rw [Store.write_cells_of_ne _ _ (by omega), hkeep i hlt]
        exact hst i hlo hlt
      · rw [Store.write_cells_self]
        exact hP hsearch
  · intro st w hst hb
    rw [placeReplica_exit hb]
    exact hst
  · exact fun i hlo hhi => absurd hhi (not_lt.mpr hlo)

/-! ### The result -/

/-- **One replica per failure domain.**  On a tree no bucket of the type that is placed holds
    the leaves of two positions. -/
theorem crushChooseFirstn_domains (H : CrushHash) (fuel : ℕ) (f : FirstnInfo) (parentR : ℤ)
    (μ μ' : Store) (p : ℕ) (hwf : f.map.WellFormed) (htree : f.map.TreeShaped)
    (hstart : f.map.Has f.bucket) (htype : 0 < f.type) (hrec : f.recurseToLeaf = true)
    (hown : f.out2 ≠ f.out) (hrun : crushChooseFirstn H fuel f parentR μ = .ok (p, μ')) :
    ∀ i j, f.outpos ≤ i → i < j → j < p → ∀ q, f.map.Reaches f.bucket.id q →
      OfType f.map q f.type →
      ¬ (f.map.AtOrBelow q (μ'.cells f.out2 i) ∧ f.map.AtOrBelow q (μ'.cells f.out2 j)) := by
  intro i j hlo hij hhi q hq hqt
  cases fuel with
  | zero => cases hrun
  | succ fuel =>
    have hspec := (crushChooseFirstn_spec H (fuel + 1)).placement hrun
    have hfirst : ∀ k, f.outpos ≤ k → k < p →
        FirstOfType f.map f.bucket.id f.type (μ'.cells f.out k) :=
      crushChooseFirstn_accepted (fun hs => search_firstOfType hwf hstart hs) hrun
    -- Each leaf is found below the bucket at its position.
    have hleaf : ∀ k, f.outpos ≤ k → k < p → OfType f.map (μ'.cells f.out k) f.type ∧
        f.map.AtOrBelow (μ'.cells f.out k) (μ'.cells f.out2 k) := by
      intro k hk hkp
      have he := (hspec.placed k hk hkp).eligible hwf hstart
      exact ⟨he.ofType, (he.leaf htype hrec hown).2.1.to_reflTransGen⟩
    -- The item at `j` was compared with everything before it, whatever the array held at entry.
    have hne : μ'.cells f.out i ≠ μ'.cells f.out j :=
      (hspec.placed j (by omega) hhi).chosen.fresh i hij
    obtain ⟨hti, hbi⟩ := hleaf i hlo (by omega)
    obtain ⟨htj, hbj⟩ := hleaf j (by omega) hhi
    exact (hfirst i hlo (by omega)).disjoint htree (hfirst j (by omega) hhi) hti htj
      hne hbi hbj hq hqt

/-- The leaves of the two hosts of the small map are not in one host. -/
theorem crushChooseFirstn_domains_smallHosts :
    ∃ μ', crushChooseFirstn rjenkins 60 smallHostsInfo 0 zeroStore = .ok (2, μ') ∧
      ¬ (smallMap.AtOrBelow (-2) (μ'.cells 2 0) ∧ smallMap.AtOrBelow (-2) (μ'.cells 2 1)) := by
  obtain ⟨⟨p, μ'⟩, hrun, rfl⟩ := ok_of_toOption_map (g := Prod.fst) (y := 2)
    (x := crushChooseFirstn rjenkins 60 smallHostsInfo 0 zeroStore) (by decide +kernel)
  exact ⟨μ', hrun, crushChooseFirstn_domains rjenkins 60 smallHostsInfo 0 zeroStore μ' 2
    smallMap_wellFormed smallMap_treeShaped ⟨0, rfl⟩ (by decide) rfl (by decide) hrun 0 1
    (by decide) (by decide) (by decide) (-2) (TransGen.single ⟨smallRoot, rfl, by decide⟩)
    (Or.inr ⟨by decide, smallHost (-2) 0, rfl, rfl⟩)⟩

end MyCeph.Crush
