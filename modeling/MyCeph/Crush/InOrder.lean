import MyCeph.Crush.Schedule

namespace MyCeph.Crush

open Lib

/-!
# The workers as functions

`do_work1`, `do_work2` and `do_work3` called one after the other on one `firstn_info`
(`callWorks`).  When worker `k` starts, the workers before it have published and
`firstn->outpos` is `k`, so that its passes are those of the sequential search for slot `k`,
with the same random factors, the same position and the same verdicts (`slotPass_worker`).  It
goes through them to its publication (`callWork_finds`), and the three together leave the
sequential result (`callWorks_refines`).
-/

variable {H : CrushHash} {glob : Globals} {f : FirstnInfo}

/-- A call that returns does so with more fuel. -/
theorem callWork_mono {k : Fin 3} {n n' : ℕ} (hle : n ≤ n') {sh sh' : Shared} {w : Worker}
    (h : callWork H glob f k n sh w = .ok sh') : callWork H glob f k n' sh w = .ok sh' := by
  induction n generalizing n' sh w with
  | zero => cases h
  | succ n ih =>
    obtain ⟨m, rfl⟩ : ∃ m, n' = m + 1 := ⟨n' - 1, by omega⟩
    unfold callWork at h ⊢
    cases hstep : work H glob f k sh w with
    | some st =>
      rw [hstep] at h
      exact ih (by omega) h
    | none =>
      rw [hstep] at h
      exact h

/-! ### Moving on -/

/-- From `sh` and `w` worker `k` gets to `sh'` and `w'`. -/
def Gets (H : CrushHash) (glob : Globals) (f : FirstnInfo) (k : Fin 3) (sh : Shared) (w : Worker)
    (sh' : Shared) (w' : Worker) : Prop :=
  ∃ n, ∀ m, callWork H glob f k (n + m) sh w = callWork H glob f k m sh' w'

variable {k : Fin 3} {sh sh' sh'' : Shared} {w w' w'' : Worker}

theorem Gets.refl (sh : Shared) (w : Worker) : Gets H glob f k sh w sh w :=
  ⟨0, fun m => by rw [Nat.zero_add]⟩

/-- One step, and the steps that follow. -/
theorem Gets.head (hstep : doWork H glob f k k sh w = some (sh', w'))
    (h : Gets H glob f k sh' w' sh'' w'') : Gets H glob f k sh w sh'' w'' := by
  obtain ⟨n, hn⟩ := h
  refine ⟨n + 1, fun m => ?_⟩
  rw [show n + 1 + m = n + m + 1 by omega, ← hn m]
  simp only [callWork, work_eq, hstep]

theorem Gets.trans (h : Gets H glob f k sh w sh' w') (h' : Gets H glob f k sh' w' sh'' w'') :
    Gets H glob f k sh w sh'' w'' := by
  obtain ⟨n, hn⟩ := h
  obtain ⟨n', hn'⟩ := h'
  exact ⟨n + n', fun m => by rw [Nat.add_assoc, hn, hn']⟩

/-- A worker that gets to its end returns. -/
theorem Gets.returns (h : Gets H glob f k sh w sh' w') (hdone : w'.pc = .done) :
    ∃ n, ∀ fuel, n ≤ fuel → callWork H glob f k fuel sh w = .ok sh' := by
  obtain ⟨n, hn⟩ := h
  refine ⟨n + 1, fun fuel hfuel => ?_⟩
  obtain ⟨m, rfl⟩ : ∃ m, fuel = n + (m + 1) := ⟨fuel - n - 1, by omega⟩
  rw [hn]
  simp only [callWork, work_eq, doWork, hdone]

/-- Three calls that return make one of `callWorks` that does. -/
theorem callWorks_ok {sh₀ sh₁ sh₂ sh₃ : Shared}
    (h₁ : ∃ n, ∀ fuel, n ≤ fuel → callWork H glob f 0 fuel sh₀ (Worker.init f) = .ok sh₁)
    (h₂ : ∃ n, ∀ fuel, n ≤ fuel → callWork H glob f 1 fuel sh₁ (Worker.init f) = .ok sh₂)
    (h₃ : ∃ n, ∀ fuel, n ≤ fuel → callWork H glob f 2 fuel sh₂ (Worker.init f) = .ok sh₃) :
    ∃ n, ∀ fuel, n ≤ fuel → callWorks H glob f fuel sh₀ = .ok sh₃ := by
  obtain ⟨n₁, h₁⟩ := h₁
  obtain ⟨n₂, h₂⟩ := h₂
  obtain ⟨n₃, h₃⟩ := h₃
  refine ⟨max n₁ (max n₂ n₃), fun fuel hfuel => ?_⟩
  rw [callWorks, h₁ fuel (by omega)]
  dsimp only
  rw [h₂ fuel (by omega)]
  exact h₃ fuel (by omega)

/-- A run of the workers that returns, with any fuel from there on. -/
theorem callWorks_mono {n n' : ℕ} (hle : n ≤ n') {sh sh' : Shared}
    (h : callWorks H glob f n sh = .ok sh') : callWorks H glob f n' sh = .ok sh' := by
  unfold callWorks at h ⊢
  cases h₁ : callWork H glob f 0 n sh (Worker.init f) with
  | error e => simp only [h₁, reduceCtorEq] at h
  | ok sh₁ =>
    rw [h₁] at h
    rw [callWork_mono hle h₁]
    dsimp only at h ⊢
    cases h₂ : callWork H glob f 1 n sh₁ (Worker.init f) with
    | error e => simp only [h₂, reduceCtorEq] at h
    | ok sh₂ =>
      rw [h₂] at h
      rw [callWork_mono hle h₂]
      exact callWork_mono hle h

/-! ### One pass of a worker -/

/-- Worker `k` stands at the head of its inner loop, `k` workers having published. -/
structure AtDraw (k : Fin 3) (s : Search) (sh : Shared) (w : Worker) : Prop where
  pc : w.pc = .draw
  rep : w.rep = 0
  search : w.search = s
  outpos : sh.outpos = k

/-- What a worker does to cells of other positions: nothing. -/
def OtherCells (k : Fin 3) (sh sh' : Shared) : Prop :=
  ∀ a j, j ≠ (k : ℕ) → sh'.μ.cells a j = sh.μ.cells a j

variable {seq : ℕ → ℤ} {s s' : Search}

/-- Worker `k` gets where the pass `nx` of the sequential search leads: to its next draw, or to
    the publication of the item accepted. -/
def Arrives (H : CrushHash) (glob : Globals) (f : FirstnInfo) (k : Fin 3) (sh : Shared)
    (w : Worker) : Next Search Verdict → Prop
  | .again s' => ∃ sh' w', Gets H glob f k sh w sh' w' ∧ AtDraw k s' sh' w' ∧ OtherCells k sh sh'
  | .exit (.accept item) => ∃ sh' w', Gets H glob f k sh w sh' w' ∧ w'.pc = .done ∧
      sh'.outpos = k + 1 ∧ sh'.μ.cells f.out k = item ∧ OtherCells k sh sh'
  | .exit .skip => True

theorem Arrives.trans {nx : Next Search Verdict} (hgets : Gets H glob f k sh w sh' w')
    (hcells : OtherCells k sh sh') (h : Arrives H glob f k sh' w' nx) :
    Arrives H glob f k sh w nx := by
  match nx, h with
  | .again s', ⟨sh₁, w₁, hgets', hat, hcells'⟩ =>
    exact ⟨sh₁, w₁, hgets.trans hgets', hat, fun a j hj => (hcells' a j hj).trans (hcells a j hj)⟩
  | .exit (.accept item), ⟨sh₁, w₁, hgets', hdone, hout, hitem, hcells'⟩ =>
    exact ⟨sh₁, w₁, hgets.trans hgets', hdone, hout, hitem,
      fun a j hj => (hcells' a j hj).trans (hcells a j hj)⟩
  | .exit .skip, _ => trivial

theorem Arrives.head {nx : Next Search Verdict}
    (hstep : doWork H glob f k k sh w = some (sh', w')) (hcells : OtherCells k sh sh')
    (h : Arrives H glob f k sh' w' nx) : Arrives H glob f k sh w nx :=
  h.trans (.head hstep (.refl sh' w')) hcells

/-- A rejection, in the worker and in the sequential search. -/
theorem arrives_reject {collide : Bool} (hrep : w.rep = 0) (hsearch : w.search = s)
    (hout : sh.outpos = k) : Arrives H glob f k sh (w.reject f collide) (retry f collide s) := by
  subst hsearch
  unfold retry Worker.reject
  cases w.search.rejected f collide with
  | none => trivial
  | some s' => exact ⟨sh, _, .refl sh _, ⟨rfl, hrep, rfl, hout⟩, fun _ _ _ => rfl⟩

/-- The overload test and what follows it. -/
theorem arrives_test (htype : f.type = 0) (hpc : w.pc = .test) (hrep : w.rep = 0)
    (hsearch : w.search = s) (hout : sh.outpos = k) :
    Arrives H glob f k sh w (if isOut H f.weight glob.weightMax w.item f.x then retry f false s
      else .exit (.accept w.item)) := by
  have hstep : doWork H glob f k k sh w = if isOut H f.weight glob.weightMax w.item f.x
      then some (sh, w.reject f false) else some (sh, { w with pc := .publish }) := by
    simp only [doWork, hpc, htype, beq_self_eq_true, Bool.true_and]
  have hsame : OtherCells k sh sh := fun _ _ _ => rfl
  by_cases hisout : isOut H f.weight glob.weightMax w.item f.x = true
  · rw [if_pos hisout] at hstep ⊢
    exact (arrives_reject hrep hsearch hout).head hstep hsame
  · rw [if_neg hisout] at hstep ⊢
    -- The worker publishes its item.
    refine Arrives.head hstep hsame ?_
    have hpublish : doWork H glob f k k sh { w with pc := .publish }
        = some (⟨sh.outpos + 1, sh.μ.write f.out k w.item⟩, { w with pc := .done }) := rfl
    exact ⟨_, _, .head hpublish (.refl _ _), rfl, by rw [hout], Store.write_cells_self _ _ _ _,
      fun a j hj => Store.write_cells_of_ne _ _ fun h => hj h.2⟩

/-- The collision scan and what follows it. -/
theorem arrives_scan (htype : f.type = 0) (hpc : w.pc = .scan) (hdev : 0 ≤ w.item)
    (hrep : w.rep = 0) (hsearch : w.search = s) (hout : sh.outpos = k) :
    Arrives H glob f k sh w (if collides sh.μ f.out k w.item then retry f true s
      else if isOut H f.weight glob.weightMax w.item f.x then retry f false s
      else .exit (.accept w.item)) := by
  have hsame : OtherCells k sh sh := fun _ _ _ => rfl
  have hstep : doWork H glob f k k sh w = if collides sh.μ f.out k w.item
      then some (sh, w.reject f true)
      else if f.recurseToLeaf then some (sh, { w with pc := .writeOut2 })
      else some (sh, { w with pc := .test }) := by
    simp only [doWork, hpc, if_neg (not_lt.mpr hdev)]
  by_cases hcol : collides sh.μ f.out k w.item = true
  · rw [if_pos hcol] at hstep ⊢
    exact (arrives_reject hrep hsearch hout).head hstep hsame
  · rw [if_neg hcol] at hstep ⊢
    by_cases hrec : f.recurseToLeaf = true
    · -- The device is its own leaf and goes to `out2` first.
      rw [if_pos hrec] at hstep
      refine Arrives.head hstep hsame ?_
      have hwrite : doWork H glob f k k sh { w with pc := .writeOut2 }
          = some ({ sh with μ := sh.μ.write f.out2 k w.item }, { w with pc := .test }) := rfl
      refine Arrives.head hwrite (fun a j hj => Store.write_cells_of_ne _ _ fun h => hj h.2) ?_
      exact arrives_test htype rfl hrep hsearch hout
    · rw [if_neg hrec] at hstep
      exact Arrives.head hstep hsame (arrives_test htype rfl hrep hsearch hout)

/-- The call as the workers take it for devices: with the global `weight_max`. -/
def FirstnInfo.under (f : FirstnInfo) (glob : Globals) : FirstnInfo :=
  { f with weightMax := glob.weightMax }

/-- **One pass**: worker `k` gets where a pass of the search gets that scans `out[0..k)`. -/
theorem pass_worker (hwf : f.map.WellFormed) (htype : f.type = 0) (h : AtDraw k s sh w)
    {nx : Next Search Verdict}
    (hpass : devicePass H (f.under glob) (collides sh.μ f.out k) k 0 k s = .ok nx) :
    Arrives H glob f k sh w nx := by
  obtain ⟨hpc, hrep, rfl, hout⟩ := h
  have hvisit : OtherCells k sh (sh.visit w.search.cur) := fun _ _ _ => rfl
  unfold devicePass at hpass
  -- The worker draws what the sequential search draws.
  have hdraw : drawItem H f w.search.cur (randomFactor w.rep k w.search.ftotal) sh.outpos
      = drawItem H f w.search.cur (randomFactor k 0 w.search.ftotal) k := by
    rw [hrep, hout, randomFactor_worker]
  have hunder : drawItem H (f.under glob) w.search.cur (randomFactor k 0 w.search.ftotal) k
      = drawItem H f w.search.cur (randomFactor k 0 w.search.ftotal) k := rfl
  rw [hunder] at hpass
  cases hd : drawItem H f w.search.cur (randomFactor k 0 w.search.ftotal) k with
  | error e => simp [hd] at hpass
  | ok d =>
    rw [hd] at hdraw hpass
    cases d with
    | empty =>
      cases hpass
      have hstep : doWork H glob f k k sh w = some (sh.visit w.search.cur, w.reject f false) := by
        simp only [doWork, hpc, hdraw]
      have hreject : Arrives H glob f k (sh.visit w.search.cur) (w.reject f false)
          (retry f false w.search) := arrives_reject hrep rfl hout
      exact hreject.head hstep hvisit
    | skip item =>
      cases hpass
      trivial
    | descend item b =>
      cases hpass
      have hstep : doWork H glob f k k sh w = some (sh.visit w.search.cur,
          { w with item := item, search := { w.search with cur := b } }) := by
        simp only [doWork, hpc, hdraw]
      exact Arrives.head hstep hvisit ⟨_, _, .refl _ _, ⟨hpc, hrep, rfl, hout⟩, fun _ _ _ => rfl⟩
    | candidate item =>
      have hdev : 0 ≤ item := OfType.device hwf (htype ▸ (drawItem_candidate hd).2.2.2)
      have hstep : doWork H glob f k k sh w
          = some (sh.visit w.search.cur, { w with pc := .scan, item := item }) := by
        simp only [doWork, hpc, hdraw]
      refine Arrives.head hstep hvisit ?_
      have hscan : Arrives H glob f k (sh.visit w.search.cur) { w with pc := .scan, item := item }
          (if collides sh.μ f.out k item then retry f true w.search
            else if isOut H f.weight glob.weightMax item f.x then retry f false w.search
            else .exit (.accept item)) :=
        arrives_scan htype rfl hdev hrep rfl hout
      have hnx : nx = if collides sh.μ f.out k item then retry f true w.search
          else if isOut H f.weight glob.weightMax item f.x then retry f false w.search
          else .exit (.accept item) := by
        apply Except.ok.inj
        rw [← hpass, apply_ite Except.ok, apply_ite Except.ok]
        rfl
      rw [hnx]
      exact hscan

/-- A pass of the sequential search for slot `k`, when the slots before it hold its items. -/
theorem slotPass_worker (hwf : f.map.WellFormed) (htype : f.type = 0)
    (hmax : glob.weightMax = f.weightMax) (h : AtDraw k s sh w)
    (hcells : ∀ j < (k : ℕ), sh.μ.cells f.out j = seq j) {nx : Next Search Verdict}
    (hpass : slotPass H f seq k s = .ok nx) : Arrives H glob f k sh w nx := by
  apply pass_worker hwf htype h
  have hunder : f.under glob = f := by
    unfold FirstnInfo.under
    rw [hmax]
  have hcol : collides sh.μ f.out k = among seq k := by
    funext item
    rw [collides_eq_among]
    exact among_congr hcells item
  rw [hunder, hcol]
  exact hpass

/-! ### A worker, and all three -/

/-- **A worker finds the item of its slot** when the workers before it have published theirs. -/
theorem callWork_finds (hwf : f.map.WellFormed) (htype : f.type = 0)
    (hmax : glob.weightMax = f.weightMax) (h : AtDraw k s sh w)
    (hcells : ∀ j < (k : ℕ), sh.μ.cells f.out j = seq j) (hfinds : FindsSlot H f seq k s) :
    ∃ sh' w', Gets H glob f k sh w sh' w' ∧ w'.pc = .done ∧ sh'.outpos = k + 1 ∧
      sh'.μ.cells f.out k = seq k ∧ OtherCells k sh sh' := by
  obtain ⟨n, hn⟩ := hfinds
  induction n generalizing s sh w with
  | zero => simp [loop] at hn
  | succ n ih =>
    -- A pass of the search either ends it or is one retry of the worker.
    obtain ⟨m, hm, hb | ⟨s', hb, h'⟩⟩ := loop_ok hn
    · exact slotPass_worker hwf htype hmax h hcells hb
    obtain rfl : n = m := by omega
    obtain ⟨sh', w', hgets, hat, hother⟩ := slotPass_worker hwf htype hmax h hcells hb
    -- A retry leaves the places before `k` as they are.
    have hcells' : ∀ j < (k : ℕ), sh'.μ.cells f.out j = seq j := by
      intro j hj
      rw [hother f.out j (by omega)]
      exact hcells j hj
    obtain ⟨sh'', w'', hgets', hdone, hout, hitem, hother'⟩ := ih hat hcells' h'
    exact ⟨sh'', w'', hgets.trans hgets', hdone, hout, hitem,
      fun a j hj => (hother' a j hj).trans (hother a j hj)⟩

/-- Worker `k`, called when the workers before it have published the items of their slots. -/
theorem callWork_slot (hwf : f.map.WellFormed) (htype : f.type = 0) (hstable : f.stable = true)
    (hmax : glob.weightMax = f.weightMax) (hfinds : FindsSlot H f seq k (Search.start f))
    (hout : sh.outpos = k) (hcells : ∀ j < (k : ℕ), sh.μ.cells f.out j = seq j) :
    ∃ n sh', (∀ fuel, n ≤ fuel → callWork H glob f k fuel sh (Worker.init f) = .ok sh') ∧
      sh'.outpos = k + 1 ∧ ∀ j < (k : ℕ) + 1, sh'.μ.cells f.out j = seq j := by
  have hstart : doWork H glob f k k sh (Worker.init f) = some (sh,
      { Worker.init f with pc := .draw, rep := 0, search := Search.start f }) := by
    simp only [doWork, Worker.init, hstable, if_true]
  have hat : AtDraw k (Search.start f) sh
      { Worker.init f with pc := .draw, rep := 0, search := Search.start f } :=
    ⟨rfl, rfl, rfl, hout⟩
  obtain ⟨sh', w', hgets, hdone, hout', hitem, hother⟩ :=
    callWork_finds hwf htype hmax hat hcells hfinds
  obtain ⟨n, hn⟩ := (hgets.head hstart).returns hdone
  refine ⟨n, sh', hn, hout', fun j hj => ?_⟩
  rcases Nat.lt_succ_iff_lt_or_eq.mp hj with hlt | rfl
  · rw [hother f.out j (by omega)]
    exact hcells j hlt
  · exact hitem

/-- **The workers refine the sequential loop.**  When the sequential search returns 3, the three
    workers called one after the other return, with `outpos` 3 and the sequential items in
    `out`. -/
theorem callWorks_refines (H : CrushHash) (glob : Globals) (f : FirstnInfo) (fuel : ℕ)
    (μ₀ μ₁ μ : Store) (hwf : f.map.WellFormed) (htype : f.type = 0) (hstable : f.stable = true)
    (hnumrep : f.numrep = 3) (houtpos : f.outpos = 0) (hmax : glob.weightMax = f.weightMax)
    (hseq : crushChooseFirstn H fuel f 0 μ₀ = .ok (3, μ₁)) :
    ∃ n sh, (∀ k, n ≤ k → callWorks H glob f k ⟨0, μ⟩ = .ok sh) ∧ sh.outpos = 3 ∧
      ∀ j < 3, sh.μ.cells f.out j = μ₁.cells f.out j := by
  have hfinds := sequential_slots hwf htype hstable hnumrep houtpos hseq
  -- Each call finds the results of the calls before it, and adds its own.
  have hslot : ∀ (k : Fin 3) (sh : Shared), sh.outpos = k →
      (∀ j < (k : ℕ), sh.μ.cells f.out j = μ₁.cells f.out j) →
      ∃ n sh', (∀ fuel, n ≤ fuel → callWork H glob f k fuel sh (Worker.init f) = .ok sh') ∧
        sh'.outpos = k + 1 ∧ ∀ j < (k : ℕ) + 1, sh'.μ.cells f.out j = μ₁.cells f.out j :=
    fun k _ => callWork_slot hwf htype hstable hmax (hfinds k k.isLt)
  obtain ⟨n₁, sh₁, h₁, hout₁, hcells₁⟩ :=
    hslot 0 ⟨0, μ⟩ rfl fun j hj => absurd hj (Nat.not_lt_zero j)
  obtain ⟨n₂, sh₂, h₂, hout₂, hcells₂⟩ := hslot 1 sh₁ hout₁ hcells₁
  obtain ⟨n₃, sh₃, h₃, hout₃, hcells₃⟩ := hslot 2 sh₂ hout₂ hcells₂
  obtain ⟨n, hn⟩ := callWorks_ok ⟨n₁, h₁⟩ ⟨n₂, h₂⟩ ⟨n₃, h₃⟩
  exact ⟨n, sh₃, hn, hout₃, hcells₃⟩

/-- The workers on the small map. -/
theorem callWorks_refines_smallInfo :
    ∃ n sh, (∀ k, n ≤ k → callWorks rjenkins smallGlobals smallInfo k ⟨0, zeroStore⟩ = .ok sh) ∧
      sh.outpos = 3 ∧ ∀ j < 3, sh.μ.cells 1 j = [3, 1, 0].getD j 0 := by
  obtain ⟨μ₁, hseq, hitems⟩ := smallInfo_sequential
  obtain ⟨n, sh, hcalls, hout, hcells⟩ := callWorks_refines rjenkins smallGlobals smallInfo 60
    zeroStore μ₁ zeroStore smallMap_wellFormed rfl rfl rfl rfl rfl hseq
  exact ⟨n, sh, hcalls, hout, fun j hj => (hcells j hj).trans (hitems j hj)⟩

end MyCeph.Crush
