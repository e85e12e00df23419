import MyCeph.Crush.Alike
import MyCeph.Crush.Eligible
import MyCeph.Crush.Separation

namespace MyCeph.Crush

open Lib Relation

/-!
# What a placement reads of the map

Two maps between which `crush_choose_firstn` cannot tell (`Alike`).

* `crushChooseFirstn_subtree` — a map that agrees with a well-formed one on `max_devices` and
  on the buckets found below the start bucket; what else the map holds does not matter;
* `crushChooseFirstn_underArgs` — a map under `choose_args` of one weight set, and the map
  that has these weights for its own.
-/

variable {H : CrushHash} {f : FirstnInfo} {μ μ' : Store}

/-! ### Below the start bucket -/

/-- `m'` has the buckets that `m` has below the id `p`. -/
def AgreeBelow (m m' : CrushMap) (p : ℤ) : Prop :=
  ∀ c, m.Reaches p c → c < 0 → m'.bucket? (-1 - c) = m.bucket? (-1 - c)

/-- A bucket of `m` at or below the id `p`. -/
def Below (m : CrushMap) (p : ℤ) (b b' : CrushBucket) : Prop :=
  b' = b ∧ m.Has b ∧ m.AtOrBelow p b.id

/-- Maps that agree below a bucket look alike to a search from there. -/
theorem AgreeBelow.alike {m m' : CrushMap} {p : ℤ} (h : AgreeBelow m m' p) (hwf : m.WellFormed)
    (hmax : m'.maxDevices = m.maxDevices) (x : ℤ) (args : Option (ℤ → CrushChooseArg)) :
    Alike H x m m' args args (Below m p) where
  maxDevices_eq := hmax
  size_eq := by rintro _ b ⟨rfl, -, -⟩; rfl
  type_eq := by rintro _ b ⟨rfl, -, -⟩; rfl
  choose_eq := by rintro _ b ⟨rfl, -, -⟩ _ _ _; rfl
  child := by
    rintro _ b ⟨rfl, hb, hbelow⟩ hsize r position hneg
    have hmem := chooseItem_mem H x args hwf hb hsize r position
    have hlink := hwf.link_of_mem hb hmem
    generalize chooseItem H x args b r position = c at hneg hmem hlink ⊢
    obtain ⟨i, hi⟩ := hb
    obtain ⟨d, hd⟩ := hwf.child hi c hmem hneg
    rw [h c (TransGen.tail' hbelow hlink) hneg, hd]
    refine .some ⟨rfl, ⟨_, hd⟩, ?_⟩
    rw [hwf.id_of_bucket hd]
    exact hbelow.tail hlink

/-- **Only the buckets below the start are read.**  The runs on the two maps are the same, down
    to the buckets they visit and the cells they write. -/
theorem crushChooseFirstn_subtree (H : CrushHash) (fuel : ℕ) (f : FirstnInfo) (m' : CrushMap)
    (parentR : ℤ) (μ : Store) (hwf : f.map.WellFormed) (hstart : f.map.Has f.bucket)
    (hmax : m'.maxDevices = f.map.maxDevices) (hagree : AgreeBelow f.map m' f.bucket.id) :
    crushChooseFirstn H fuel { f with map := m' } parentR μ
      = crushChooseFirstn H fuel f parentR μ := by
  have hrun := crushChooseFirstn_alike H fuel parentR
    (hagree.alike hwf hmax f.x f.chooseArgs) ⟨rfl, hstart, ReflTransGen.refl⟩ (SameInput.refl f μ)
  exact eq_of_handInHand hrun fun _ _ hb => hb.1

/-- The small map with a host that is not below its root. -/
def grownMap : CrushMap :=
  { smallMap with buckets := smallMap.buckets ++ [some (smallHost (-4) 2)], maxBuckets := 4 }

/-- A host added beside the root changes nothing. -/
theorem crushChooseFirstn_subtree_grownMap :
    crushChooseFirstn rjenkins 60 { smallHostsInfo with map := grownMap } 0 zeroStore
      = crushChooseFirstn rjenkins 60 smallHostsInfo 0 zeroStore := by
  refine crushChooseFirstn_subtree rjenkins 60 smallHostsInfo grownMap 0 zeroStore
    smallMap_wellFormed ⟨0, rfl⟩ rfl ?_
  intro c hreach hneg
  obtain ⟨p, -, b, hb, hc⟩ := TransGen.tail'_iff.mp hreach
  obtain ⟨d, hd⟩ := smallMap_wellFormed.child hb c hc hneg
  have hold : smallHostsInfo.map.bucket? (-1 - c) = some d := hd
  rw [hold]
  rcases smallMap_bucket hd with ⟨hi, rfl⟩ | ⟨hi, rfl⟩ | ⟨hi, rfl⟩
  all_goals rw [hi]; rfl

/-! ### Weight sets -/

/-- The bucket with the weights that `choose_args` give it in place of its own. -/
def CrushBucket.underArgs (args : ℤ → CrushChooseArg) (b : CrushBucket) : CrushBucket :=
  { b with itemWeights := getChooseArgWeights b (some (args (-1 - b.id))) 0 }

/-- The map with the weights that `choose_args` give its buckets. -/
def CrushMap.underArgs (args : ℤ → CrushChooseArg) (m : CrushMap) : CrushMap :=
  { m with buckets := m.buckets.map (Option.map (CrushBucket.underArgs args)) }

/-- The `choose_args` replace weights only, by one weight set for all positions. -/
structure OneWeightSet (m : CrushMap) (args : ℤ → CrushChooseArg) : Prop where
  ids : ∀ {b}, m.Has b → (args (-1 - b.id)).ids.getD b.items = b.items
  positions : ∀ {b}, m.Has b → (args (-1 - b.id)).weightSet.isSome →
    (args (-1 - b.id)).weightSetPositions = 1

/-- The buckets with their weights replaced. -/
theorem CrushMap.underArgs_bucket? (args : ℤ → CrushChooseArg) (m : CrushMap) (i : ℤ) :
    (m.underArgs args).bucket? i = (m.bucket? i).map (CrushBucket.underArgs args) := by
  have hmax : (m.underArgs args).maxBuckets = m.maxBuckets := rfl
  unfold CrushMap.bucket?
  rw [hmax]
  by_cases hi : 0 ≤ i ∧ i < m.maxBuckets
  · rw [if_pos hi, if_pos hi]
    simp only [CrushMap.underArgs, List.getElem?_map]
    cases m.buckets[i.toNat]? <;> rfl
  · rw [if_neg hi, if_neg hi]
    rfl

/-- With one weight set the position does not matter. -/
theorem OneWeightSet.weights {m : CrushMap} {args : ℤ → CrushChooseArg} (h : OneWeightSet m args)
    {b : CrushBucket} (hb : m.Has b) (position : ℕ) :
    getChooseArgWeights b (some (args (-1 - b.id))) position = (b.underArgs args).itemWeights := by
  have hpos := h.positions hb
  unfold CrushBucket.underArgs getChooseArgWeights
  dsimp only
  cases hws : (args (-1 - b.id)).weightSet with
  | none => rfl
  | some ws =>
    have hone := hpos (by rw [hws]; rfl)
    -- Both positions come to the first weight set.
    dsimp only
    congr 1
    split <;> split <;> omega

/-- One weight set is as good as its weights in the buckets. -/
theorem OneWeightSet.alike {m : CrushMap} {args : ℤ → CrushChooseArg} (h : OneWeightSet m args)
    (H : CrushHash) (x : ℤ) :
    Alike H x m (m.underArgs args) (some args) none
      fun b b' => b' = b.underArgs args ∧ m.Has b where
  maxDevices_eq := rfl
  size_eq := by rintro b _ ⟨rfl, -⟩; rfl
  type_eq := by rintro b _ ⟨rfl, -⟩; rfl
  choose_eq := by
    rintro b _ ⟨rfl, hb⟩ _ r position
    have hids : getChooseArgIds b (some (args (-1 - b.id))) = b.items := h.ids hb
    simp only [chooseItem, crushBucketChoose, bucketStraw2Choose, straw2High, Option.map,
      h.weights hb position, hids]
    rfl
  child := by
    rintro b _ ⟨rfl, hb⟩ _ r position _
    rw [CrushMap.underArgs_bucket?]
    cases hc : m.bucket? (-1 - chooseItem H x (some args) b r position) with
    | none => exact .none
    | some c => exact .some ⟨rfl, _, hc⟩

/-- **A weight set is the map with its weights.** -/
theorem crushChooseFirstn_underArgs (H : CrushHash) (fuel : ℕ) (f : FirstnInfo) (parentR : ℤ)
    (μ : Store) (args : ℤ → CrushChooseArg) (hargs : f.chooseArgs = some args)
    (hstart : f.map.Has f.bucket) (hone : OneWeightSet f.map args) :
    Outcomes (fun e e' => e'.stop = e.stop ∧ e'.μ.cells = e.μ.cells)
      (fun w w' => w'.1 = w.1 ∧ w'.2.cells = w.2.cells)
      (crushChooseFirstn H fuel f parentR μ)
      (crushChooseFirstn H fuel (f.onMap (f.map.underArgs args) (f.bucket.underArgs args) none)
        parentR μ) := by
  have halike := hone.alike H f.x
  rw [← hargs] at halike
  apply (crushChooseFirstn_alike H fuel parentR halike ⟨rfl, hstart⟩ (SameInput.refl f μ)).mono
  · exact fun e e' he => ⟨he.1, he.2.cells_eq⟩
  · exact fun w w' hw => ⟨hw.1, hw.2.1.cells_eq⟩

/-- Each second item three times as heavy as the first. -/
def smallArgs (_ : ℤ) : CrushChooseArg where
  ids := none
  weightSet := some [[0x10000, 0x30000]]
  weightSetPositions := 1

/-- OSDs for object 222, with the second items preferred. -/
def smallArgsInfo : FirstnInfo := { smallInfo with chooseArgs := some smallArgs }

/-- The same three OSDs either way. -/
theorem crushChooseFirstn_underArgs_smallMap :
    ∃ μ μ', crushChooseFirstn rjenkins 60 smallArgsInfo 0 zeroStore = .ok (3, μ) ∧
      crushChooseFirstn rjenkins 60 (smallArgsInfo.onMap (smallMap.underArgs smallArgs)
        (smallRoot.underArgs smallArgs) none) 0 zeroStore = .ok (3, μ') ∧ μ'.cells = μ.cells := by
  obtain ⟨⟨p, μ⟩, hrun, rfl⟩ := ok_of_toOption_map (g := Prod.fst) (y := 3)
    (x := crushChooseFirstn rjenkins 60 smallArgsInfo 0 zeroStore) (by decide +kernel)
  have h := crushChooseFirstn_underArgs rjenkins 60 smallArgsInfo 0 zeroStore smallArgs rfl
    ⟨0, rfl⟩ ⟨fun _ => rfl, fun _ _ => rfl⟩
  rw [hrun] at h
  change Outcomes _ _ _ (crushChooseFirstn rjenkins 60 (smallArgsInfo.onMap
    (smallMap.underArgs smallArgs) (smallRoot.underArgs smallArgs) none) 0 zeroStore) at h
  generalize crushChooseFirstn rjenkins 60 (smallArgsInfo.onMap _ _ none) 0 zeroStore = x at h ⊢
  cases h with
  | @ok _ w hw =>
    obtain ⟨p', μ'⟩ := w
    obtain ⟨rfl, hcells⟩ := hw
    exact ⟨μ, μ', hrun, rfl, hcells⟩

end MyCeph.Crush
