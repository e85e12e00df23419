import MyCeph.Crush.PooledRuns
import MyCeph.Crush.Termination
import MyCeph.Lib.Execution

namespace MyCeph.Crush

open Lib Relation

/-!
# The workers finish

A worker goes round for the reasons for which the sequential search does (`Termination`), and its
leaf search as well, whatever the other workers write in between: `outpos` and the arrays decide
which way a step goes, but each way lowers the rank of the worker (`Lower`).  The workers that
move one at a time therefore stop, and they stop nowhere but behind their publication.

* `workers_finish` — no schedule keeps the three workers busy for ever, none of them faults and
  none is ever stuck;
* `pooled_finishes` — the same of the objects placed in the pool, but for the spin of the main
  thread: an execution that does not end is one in which only that is scheduled from some point
  on, although a task could move.
-/

variable {H : CrushHash} {glob : Globals} {f : FirstnInfo}

/-! ### What goes down -/

/-- Not started, searching, about to publish, through. -/
def Pc.stage : Pc → ℕ
  | .start => 3
  | .draw | .scan | .callLeaf | .leaf _ | .leafReturn _ | .writeOut2 | .test => 2
  | .publish => 1
  | .done | .fault _ => 0

/-- What is left of a pass. -/
def Pc.left : Pc → ℕ
  | .draw => 5
  | .scan => 4
  | .callLeaf => 3
  | .leaf _ => 2
  | .leafReturn _ | .writeOut2 => 1
  | .start | .test | .publish | .done | .fault _ => 0

/-- What is left of a leaf search: its replicas, and the search for the current one. -/
def LeafCall.left (c : LeafCall) : ℕ × ℕ × Search :=
  ((c.info.numrep - c.rep).toNat, if c.search.isNone then 1 else 0,
    c.search.getD (Search.start c.info))

/-- What is left of the leaf search that a worker is in. -/
def Worker.leafLeft (w : Worker) : ℕ × ℕ × Search :=
  match w.pc with
  | .leaf c => c.left
  | _ => (0, 0, w.search)

/-- The rank of a leaf search. -/
def LeafLower (m : CrushMap) : ℕ × ℕ × Search → ℕ × ℕ × Search → Prop :=
  Prod.Lex (· < ·) (Prod.Lex (· < ·) (Closer m))

/-- The rank of a worker. -/
def Worker.rank (w : Worker) : ℕ × Search × ℕ × ℕ × ℕ × Search :=
  (w.pc.stage, w.search, w.pc.left, w.leafLeft)

def Lower (m : CrushMap) :
    ℕ × Search × ℕ × ℕ × ℕ × Search → ℕ × Search × ℕ × ℕ × ℕ × Search → Prop :=
  Prod.Lex (· < ·) (Prod.Lex (Closer m) (Prod.Lex (· < ·) (LeafLower m)))

/-- A worker on an acyclic map cannot go down for ever. -/
theorem lower_wellFounded (hacyclic : f.map.Acyclic) : WellFounded (Lower f.map) := by
  have hcloser := closer_wellFounded hacyclic
  exact wellFounded_lt.prod_lex (hcloser.prod_lex (wellFounded_lt.prod_lex
    (wellFounded_lt.prod_lex (wellFounded_lt.prod_lex hcloser))))

variable {w w' : Worker}

theorem Lower.stage {m : CrushMap} (h : w'.pc.stage < w.pc.stage) : Lower m w'.rank w.rank :=
  Prod.Lex.left _ _ h

theorem Lower.search {m : CrushMap} (hstage : w'.pc.stage = w.pc.stage)
    (h : Closer m w'.search w.search) : Lower m w'.rank w.rank := by
  unfold Worker.rank
  rw [hstage]
  exact Prod.Lex.right _ (Prod.Lex.left _ _ h)

theorem Lower.pass {m : CrushMap} (hstage : w'.pc.stage = w.pc.stage)
    (hsearch : w'.search = w.search) (h : w'.pc.left < w.pc.left) : Lower m w'.rank w.rank := by
  unfold Worker.rank
  rw [hstage, hsearch]
  exact Prod.Lex.right _ (Prod.Lex.right _ (Prod.Lex.left _ _ h))

theorem Lower.leaf {m : CrushMap} {c c' : LeafCall} (hpc : w.pc = .leaf c)
    (h : LeafLower m c'.left c.left) : Lower m { w with pc := .leaf c' }.rank w.rank := by
  unfold Worker.rank Worker.leafLeft
  rw [hpc]
  exact Prod.Lex.right _ (Prod.Lex.right _ (Prod.Lex.right _ h))

/-! ### What a worker needs to go on -/

/-- A call that can be placed: the map is sound, and the counters do not wrap. -/
structure Placeable (f : FirstnInfo) : Prop where
  wf : f.map.WellFormed
  acyclic : f.map.Acyclic
  start : f.map.Has f.bucket
  fits : CountersFit f

/-- A leaf search in progress. -/
structure LeafGoes (f : FirstnInfo) (c : LeafCall) : Prop where
  map : c.info.map = f.map
  flat : c.info.recurseToLeaf = false
  bucket : f.map.Has c.info.bucket
  fits : CountersFit c.info
  search : ∀ s, c.search = some s → Counting c.info f.map.Has s ∧ c.rep < c.info.numrep

/-- The bucket of the item can be read. -/
def Readable (f : FirstnInfo) (item : ℤ) : Prop :=
  ∃ b, f.map.readBucket (-1 - item) = .ok b ∧ f.map.Has b

/-- A worker that can go on, or is through. -/
def Goes (f : FirstnInfo) (w : Worker) : Prop :=
  match w.pc with
  | .start | .publish | .done => True
  | .draw | .leafReturn _ | .writeOut2 | .test => Counting f f.map.Has w.search
  | .scan => Counting f f.map.Has w.search ∧ (w.item < 0 → Readable f w.item)
  | .callLeaf => Counting f f.map.Has w.search ∧ Readable f w.item
  | .leaf c => Counting f f.map.Has w.search ∧ LeafGoes f c
  | .fault _ => False

/-! ### The leaf search -/

/-- A search that looks for no leaves does not call itself. -/
theorem attempt_flat (hflat : f.recurseToLeaf = false) (self self' : Firstn) (parentR rep : ℤ)
    (outpos : ℕ) (count : ℤ) (st : Search × Store) :
    attempt H f self parentR rep outpos count st
      = attempt H f self' parentR rep outpos count st := by
  unfold attempt findLeaf
  rw [hflat]
  rfl

/-- A pass of the leaf search returns. -/
theorem LeafGoes.attempt (h : Placeable f) {c : LeafCall} (hc : LeafGoes f c) {s : Search}
    (hs : c.search = some s) (μ : Store) :
    ∃ nx, attempt H c.info noLeaf c.parentR c.rep c.outpos c.count (s, μ) = .ok nx := by
  have hS : Closed c.info.map f.map.Has := by
    rw [hc.map]
    exact h.wf.closed
  have hleaf : LeavesReturn H c.info f.map.Has := by
    intro hrec
    rw [hc.flat] at hrec
    cases hrec
  obtain ⟨n, nx, hnx⟩ :=
    attempt_returns c.parentR c.rep c.outpos c.count hS hleaf (hc.search s hs).1.cur μ
  refine ⟨nx, ?_⟩
  rw [attempt_flat hc.flat noLeaf (crushChooseFirstn H n)]
  exact hnx n (Nat.le_refl n)

/-- **Step lemma of the leaf search**: it goes on, closer to its end, or returns. -/
theorem LeafGoes.step (h : Placeable f) {c : LeafCall} (hc : LeafGoes f c) (μ : Store) :
    (∃ c' μ', leafStep H c μ = .ok (.again (c', μ')) ∧ LeafGoes f c' ∧
        LeafLower f.map c'.left c.left) ∨
      ∃ p μ', leafStep H c μ = .ok (.exit (p, μ')) := by
  have hS : Closed c.info.map f.map.Has := by
    rw [hc.map]
    exact h.wf.closed
  cases hs : c.search with
  | none =>
    by_cases hguard : c.rep < c.info.numrep ∧ c.count > 0
    · left
      refine ⟨{ c with search := some (Search.start c.info) }, μ, ?_, ?_, ?_⟩
      · unfold leafStep
        rw [hs]
        exact if_pos hguard
      · refine ⟨hc.map, hc.flat, hc.bucket, hc.fits, fun s hs' => ?_⟩
        cases hs'
        exact ⟨Counting.start hS hc.bucket hc.fits, hguard.1⟩
      · unfold LeafCall.left
        rw [hs]
        exact Prod.Lex.right _ (Prod.Lex.left _ _ (by simp))
    · right
      refine ⟨c.outpos, μ, ?_⟩
      unfold leafStep
      rw [hs]
      exact if_neg hguard
  | some s =>
    left
    obtain ⟨nx, hnx⟩ := hc.attempt (H := H) h hs μ
    obtain ⟨hcount, hrep⟩ := hc.search s hs
    rcases nx with ⟨s', μ'⟩ | ⟨v, μ'⟩
    · -- The search goes on.
      obtain ⟨hcount', hcloser⟩ := hcount.step hS hc.bucket hc.fits (attempt_pass hnx)
      rw [hc.map] at hcloser
      refine ⟨{ c with search := some s' }, μ', ?_, ?_, ?_⟩
      · unfold leafStep
        simp only [hs, hnx]
      · refine ⟨hc.map, hc.flat, hc.bucket, hc.fits, fun s hs' => ?_⟩
        cases hs'
        exact ⟨hcount', hrep⟩
      · unfold LeafCall.left
        rw [hs]
        exact Prod.Lex.right _ (Prod.Lex.right _ hcloser)
    · -- The replica is placed or skipped, and the next one comes.
      have hnext : ∀ c' : LeafCall, c'.info = c.info → c'.rep = c.rep + 1 → c'.search = none →
          LeafGoes f c' ∧ LeafLower f.map c'.left c.left := by
        intro c' hinfo hrep' hnone
        refine ⟨⟨hinfo ▸ hc.map, hinfo ▸ hc.flat, hinfo ▸ hc.bucket, hinfo ▸ hc.fits,
          fun s hs' => ?_⟩, ?_⟩
        · rw [hnone] at hs'
          cases hs'
        · unfold LeafCall.left
          apply Prod.Lex.left
          rw [hinfo, hrep']
          omega
      cases v with
      | skip =>
        refine ⟨{ c with rep := c.rep + 1, search := none }, μ', ?_, hnext _ rfl rfl rfl⟩
        unfold leafStep
        simp only [hs, hnx]
      | accept item =>
        refine ⟨{ c with
          rep := c.rep + 1, outpos := c.outpos + 1, count := c.count - 1, search := none },
          μ'.write c.info.out c.outpos item, ?_, hnext _ rfl rfl rfl⟩
        unfold leafStep
        simp only [hs, hnx]

/-! ### The worker -/

theorem Goes.init (f : FirstnInfo) : Goes f (Worker.init f) := trivial

/-- A worker at `reject:`: it draws again, closer to its end, or publishes. -/
theorem Goes.reject (h : Placeable f) (hcount : Counting f f.map.Has w.search)
    (hstage : w.pc.stage = 2) (collide : Bool) :
    Goes f (w.reject f collide) ∧ Lower f.map (w.reject f collide).rank w.rank := by
  unfold Worker.reject
  cases hr : w.search.rejected f collide with
  | none =>
    refine ⟨trivial, Lower.stage ?_⟩
    rw [hstage]
    simp [Pc.stage]
  | some s =>
    obtain ⟨hcount', hcloser⟩ := hcount.rejected h.wf.closed h.start h.fits hr
    exact ⟨hcount', Lower.search hstage.symm hcloser⟩

/-- **Step lemma of a worker.**  Whatever the others have written, a worker that is not through
    takes a step, and each step leaves it closer to its end. -/
theorem Goes.step (H : CrushHash) (glob : Globals) (h : Placeable f) (hw : Goes f w)
    (hdone : w.pc ≠ .done) (parentR : ℤ) (outpos : ℕ) (sh : Shared) :
    ∃ sh' w', doWork H glob f parentR outpos sh w = some (sh', w') ∧ Goes f w' ∧
      Lower f.map w'.rank w.rank := by
  obtain ⟨pc, rep, search, item, skipRep⟩ := w
  unfold Goes at hw
  unfold doWork
  cases pc with
  -- The first step begins the search.
  | start =>
    have hcount : Counting f f.map.Has (Search.start f) :=
      Counting.start h.wf.closed h.start h.fits
    exact ⟨_, _, rfl, hcount, Lower.stage (by simp [Pc.stage])⟩
  | draw =>
    obtain ⟨d, hd⟩ := h.wf.closed.drawItem_returns (H := H) hw.cur
      (randomFactor rep parentR search.ftotal) sh.outpos
    simp only [hd]
    cases d with
    | empty => exact ⟨_, _, rfl, Goes.reject h hw rfl false⟩
    | skip item => exact ⟨_, _, rfl, trivial, Lower.stage (by simp [Pc.stage])⟩
    | descend item b =>
      obtain ⟨hSb, hlink, hneg, hb⟩ := h.wf.closed.descend hw.cur hd
      have hcount : Counting f f.map.Has { search with cur := b } :=
        ⟨hSb, hw.ftotal_le, hw.fits⟩
      refine ⟨_, _, rfl, hcount, Lower.search rfl ?_⟩
      exact Prod.Lex.right _ ⟨hlink, hneg, Option.isSome_iff_exists.mpr ⟨b, hb⟩⟩
    | candidate item =>
      refine ⟨_, _, rfl, ⟨hw, fun hneg => h.wf.closed.read_candidate hw.cur hd hneg⟩,
        Lower.pass rfl rfl (by simp [Pc.left])⟩
  -- A collision goes to `reject:`, and else the leaf search is next, if there is one.
  | scan =>
    obtain ⟨hcount, hread⟩ := hw
    dsimp only
    by_cases hcol : collides sh.μ f.out outpos item = true
    · rw [if_pos hcol]
      exact ⟨_, _, rfl, Goes.reject h hcount rfl true⟩
    rw [if_neg hcol]
    by_cases hrec : f.recurseToLeaf = true
    · rw [if_pos hrec]
      by_cases hneg : item < 0
      · rw [if_pos hneg]
        exact ⟨_, _, rfl, ⟨hcount, hread hneg⟩, Lower.pass rfl rfl (by simp [Pc.left])⟩
      · rw [if_neg hneg]
        exact ⟨_, _, rfl, hcount, Lower.pass rfl rfl (by simp [Pc.left])⟩
    · rw [if_neg hrec]
      exact ⟨_, _, rfl, hcount, Lower.pass rfl rfl (by simp [Pc.left])⟩
  | callLeaf =>
    obtain ⟨hcount, b, hb, hSb⟩ := hw
    simp only [hb]
    have hfits : CountersFit (leafInfo f b sh.outpos f.outSize) := h.fits.leaf b
    refine ⟨_, _, rfl, ⟨hcount, rfl, rfl, hSb, hfits, fun s hs => ?_⟩,
      Lower.pass rfl rfl (by simp [Pc.left])⟩
    cases hs
  | leaf c =>
    obtain ⟨hcount, hc⟩ := hw
    -- The leaf search goes on, or returns to the worker.
    rcases hc.step (H := H) h sh.μ with ⟨c', μ', hstep, hc', hlower⟩ | ⟨p, μ', hstep⟩
    · simp only [hstep]
      exact ⟨_, _, rfl, ⟨hcount, hc'⟩, Lower.leaf (w := ⟨.leaf c, rep, search, item, skipRep⟩) rfl
        hlower⟩
    · simp only [hstep]
      exact ⟨_, _, rfl, hcount, Lower.pass rfl rfl (by simp [Pc.left])⟩
  | leafReturn p =>
    dsimp only
    by_cases hp : p ≤ sh.outpos
    · rw [if_pos hp]
      exact ⟨_, _, rfl, Goes.reject h hw rfl false⟩
    · rw [if_neg hp]
      exact ⟨_, _, rfl, hw, Lower.pass rfl rfl (by simp [Pc.left])⟩
  | writeOut2 => exact ⟨_, _, rfl, hw, Lower.pass rfl rfl (by simp [Pc.left])⟩
  | test =>
    dsimp only
    by_cases hout : (f.type == 0 && isOut H f.weight glob.weightMax item f.x) = true
    · rw [if_pos hout]
      exact ⟨_, _, rfl, Goes.reject h hw rfl false⟩
    · rw [if_neg hout]
      exact ⟨_, _, rfl, trivial, Lower.stage (by simp [Pc.stage])⟩
  | publish => exact ⟨_, _, rfl, trivial, Lower.stage (by simp [Pc.stage])⟩
  | done => exact absurd rfl hdone
  | fault e => exact hw.elim

/-- The same of a step that is taken. -/
theorem Goes.stepped (h : Placeable f) (hw : Goes f w) {parentR : ℤ} {outpos : ℕ}
    {sh sh' : Shared} (hstep : doWork H glob f parentR outpos sh w = some (sh', w')) :
    Goes f w' ∧ Lower f.map w'.rank w.rank := by
  have hdone : w.pc ≠ .done := by
    intro hdone
    have hnot := (doWork_step hstep).not_done
    rw [hdone] at hnot
    cases hnot
  obtain ⟨sh₁, w₁, hstep₁, hgoes, hlower⟩ := hw.step H glob h hdone parentR outpos sh
  rw [hstep] at hstep₁
  cases hstep₁
  exact ⟨hgoes, hlower⟩

/-! ### Three workers -/

/-- The ranks of the workers. -/
def Par.rank (s : Par) : Multiset (ℕ × Search × ℕ × ℕ × ℕ × Search) :=
  (List.ofFn fun k => (s.w k).rank : List _)

/-- When one worker goes down, the three together do. -/
theorem Par.rank_update {m : CrushMap} {s s' : Par} {k : Fin 3}
    (hw : s'.w = Function.update s.w k w) (hlower : Lower m w.rank (s.w k).rank) :
    CutExpand (Lower m) s'.rank s.rank := by
  -- Of the three ranks only that of worker `k` has changed.
  have hset : (List.ofFn fun i => (s'.w i).rank)
      = (List.ofFn fun i => (s.w i).rank).set k w.rank := by
    rw [hw]
    apply List.ext_getElem
    · simp
    · intro i hi _
      rw [List.getElem_set, List.getElem_ofFn, List.getElem_ofFn, Function.update_apply]
      by_cases hik : i = k
      · simp [hik]
      · simp [Fin.ext_iff, hik, Ne.symm hik]
  have hget : (List.ofFn fun i => (s.w i).rank)[(k : ℕ)]? = some (s.w k).rank := by
    rw [List.getElem?_ofFn, dif_pos k.isLt]
  unfold Par.rank
  rw [hset]
  exact cutExpand_set hget hlower

/-- **Run lemma**: every worker can go on or is through. -/
theorem goes_of_run (h : Placeable f) {μ : Store} {tr : List (Par × Fin 3)} {s : Par}
    (hrun : Run (parStep H glob f) (Par.init f μ) tr s) (k : Fin 3) : Goes f (s.w k) := by
  refine hrun.invariant' (fun s => ∀ k, Goes f (s.w k)) (fun _ => Goes.init f)
    (fun s j s' hI hs => ?_) k
  unfold parStep at hs
  rw [work_eq] at hs
  -- The step was one of worker `j`, and the others have kept their state.
  split at hs
  · simp at hs
  · rename_i sh w hstep
    cases hs
    intro i
    dsimp only
    by_cases hij : i = j
    · subst hij
      rw [Function.update_self]
      exact ((hI i).stepped h hstep).1
    · rw [Function.update_of_ne hij]
      exact hI i

/-- **The workers finish.**  On a well-formed acyclic map, and as long as the counters do not wrap,
    no schedule keeps the three workers busy for ever; and when none of them can move, all of
    them have published, so that `outpos` is 3. -/
theorem workers_finish (H : CrushHash) (glob : Globals) (f : FirstnInfo) (μ : Store)
    (hwf : f.map.WellFormed) (hacyclic : f.map.Acyclic) (hstart : f.map.Has f.bucket)
    (hfit : CountersFit f) :
    (∀ st act, ¬ Execution (parStep H glob f) (Par.init f μ) st act) ∧
      ∀ tr s, Run (parStep H glob f) (Par.init f μ) tr s → (∀ k, parStep H glob f s k = none) →
        s.sh.outpos = 3 ∧ ∀ k, (s.w k).pc = .done := by
  have hplace : Placeable f := ⟨hwf, hacyclic, hstart, hfit⟩
  constructor
  · intro st act hexec
    -- No execution goes on for ever: every step takes one rank down.
    refine hexec.none (lower_wellFounded hacyclic).cutExpand Par.rank
      (fun s => ∀ k, Goes f (s.w k)) (fun n => ?_) fun s k s' hs hstep => ?_
    · obtain ⟨tr, hrun⟩ := hexec.run n
      exact goes_of_run hplace hrun
    · unfold parStep at hstep
      rw [work_eq] at hstep
      split at hstep
      · simp at hstep
      · rename_i sh w hwork
        cases hstep
        exact Par.rank_update rfl ((hs k).stepped hplace hwork).2
  · intro tr s hrun hstuck
    -- A worker that is not done could take a step.
    have hdone : ∀ k, (s.w k).pc = .done := by
      intro k
      by_contra hnot
      obtain ⟨sh', w', hstep, -⟩ := (goes_of_run hplace hrun k).step H glob hplace hnot k k s.sh
      have hnone := hstuck k
      unfold parStep at hnone
      rw [work_eq, hstep] at hnone
      cases hnone
    refine ⟨?_, hdone⟩
    rw [outpos_eq_published hrun, Par.published_eq]
    simp [hdone, Pc.isDone]

/-- No counter can wrap on the small map. -/
theorem smallHostsInfo_fits : CountersFit smallHostsInfo := by
  intro i b hb
  obtain ⟨-, rfl⟩ | ⟨-, rfl⟩ | ⟨-, rfl⟩ := smallMap_bucket hb
  all_goals decide

/-- The three workers that look for hosts of the small map, and for a leaf of each. -/
theorem workers_finish_smallHosts :
    ¬ ∃ st act, Execution (parStep rjenkins smallGlobals smallHostsInfo)
      (Par.init smallHostsInfo zeroStore) st act := by
  rintro ⟨st, act, hexec⟩
  exact (workers_finish rjenkins smallGlobals smallHostsInfo zeroStore smallMap_wellFormed
    smallMap_acyclic ⟨0, rfl⟩ smallHostsInfo_fits).1 st act hexec

/-! ### Objects in the pool -/

variable {objectNum : ℕ} {s s' : Pooled} {a : PooledAction} {live : ℕ → Bool}

/-- What is left of the pass for an object. -/
def Phase.left : Phase → ℕ
  | .head => 11
  | .alloc => 10
  | .setOut _ => 9
  | .setOut2 _ => 8
  | .setOutpos => 7
  | .add fn => 6 - fn.slot
  | .spin => 3
  | .free => 2

/-- The rank of a task of the call `f`. -/
def PoolTask.rank (f : FirstnInfo) (t : PoolTask) : ℕ × Search × ℕ × ℕ × ℕ × Search :=
  match t.worker with
  | none => (4, Search.start f, 0, 0, 0, Search.start f)
  | some w => w.rank

/-- What is left of the main thread, then the ranks of the tasks. -/
def Pooled.rank (objectNum : ℕ) (s : Pooled) : ℕ × Multiset (ℕ × Search × ℕ × ℕ × ℕ × Search) :=
  ((objectNum - s.i) * 12 + s.phase.left, (s.tasks.map (PoolTask.rank s.firstn) : List _))

/-- A step of the main thread or of a task. -/
def PooledLower (m : CrushMap) :
    ℕ × Multiset (ℕ × Search × ℕ × ℕ × ℕ × Search) →
    ℕ × Multiset (ℕ × Search × ℕ × ℕ × ℕ × Search) → Prop :=
  Prod.Lex (· < ·) (CutExpand (Lower m))

/-- The buffer in use. -/
def Pooled.buffer (s : Pooled) : Option ℕ :=
  match s.phase with
  | .head | .alloc => none
  | .setOut out | .setOut2 out => some out
  | .setOutpos | .add _ | .spin | .free => some s.firstn.out

/-- What the pooled run needs to go on. -/
structure Pooled.Goes (m : CrushMap) (objectNum : ℕ) (live : ℕ → Bool) (s : Pooled) : Prop where
  map : s.firstn.map = m
  placeable : Placeable s.firstn
  workers : ∀ t ∈ s.tasks, ∀ w, t.worker = some w → Crush.Goes s.firstn w
  bound : s.i ≤ objectNum
  inside : s.phase ≠ .head → s.i < objectNum
  /-- What was free before the first object is free, but for the buffer in use. -/
  free : ∀ addr, live addr = false → s.buffer ≠ some addr → s.live addr = false

/-- A function that has published does not go on. -/
theorem goes_of_isDone {t : PoolTask} (h : t.isDone = true) (hworker : t.worker = some w) :
    Goes f w := by
  unfold PoolTask.isDone at h
  rw [hworker] at h
  unfold Goes
  rw [Pc.isDone_iff.mp h]
  trivial

variable {m : CrushMap}

/-- Step lemma for the main thread. -/
theorem Pooled.Goes.main (h : s.Goes m objectNum live) (hok : s.Ok)
    (hs : MainStep objectNum s s') : s'.Goes m objectNum live := by
  obtain ⟨hmap, hplace, hworkers, hbound, hinside, hfree⟩ := h
  unfold Pooled.buffer at hfree
  -- While the main thread changes `firstn`, all tasks are through.
  have hdone : ∀ {old : Phase}, s.phase = old → old.shared = false → ∀ g, ∀ t ∈ s.tasks, ∀ w,
      t.worker = some w → Crush.Goes g w := by
    intro old hphase hshared g t ht w hw
    rw [← hphase] at hshared
    exact goes_of_isDone (hok.idle hshared t ht) hw
  have hplace' : ∀ x out out2,
      Placeable { s.firstn with x := x, out := out, out2 := out2 } := fun _ _ _ =>
    ⟨hplace.wf, hplace.acyclic, hplace.start, hplace.fits⟩
  have hlt : ∀ {old : Phase}, s.phase = old → old ≠ .head → s.i < objectNum := by
    intro old hphase hne
    exact hinside (hphase ▸ hne)
  cases hs with
  | setX hphase hlt =>
    rw [hphase] at hfree
    exact ⟨hmap, hplace' _ _ _, hdone hphase rfl _, hbound, fun _ => hlt, hfree⟩
  | alloc addr hphase hnew =>
    rw [hphase] at hfree
    refine ⟨hmap, hplace, hworkers, hbound, fun _ => hlt hphase nofun, fun b hb hne => ?_⟩
    have hne' : b ≠ addr := fun heq => hne (congrArg some heq.symm)
    show Function.update s.live addr true b = false
    rw [Function.update_of_ne hne']
    exact hfree b hb nofun
  | setOut out hphase =>
    rw [hphase] at hfree
    exact ⟨hmap, hplace' _ _ _, hdone hphase rfl _, hbound, fun _ => hlt hphase nofun, hfree⟩
  | setOut2 out hphase =>
    have hsetUp := hok.setUp
    unfold Pooled.SetUp at hsetUp
    rw [hphase] at hfree hsetUp
    refine ⟨hmap, hplace' _ _ _, hdone hphase rfl _, hbound, fun _ => hlt hphase nofun,
      fun b hb hne => hfree b hb fun heq => hne ?_⟩
    rw [← heq]
    exact congrArg some hsetUp.2.2
  | setOutpos hphase =>
    rw [hphase] at hfree
    exact ⟨hmap, hplace, hworkers, hbound, fun _ => hlt hphase nofun, hfree⟩
  | add fn hphase =>
    rw [hphase] at hfree
    refine ⟨hmap, hplace, fun t ht w hw => ?_, hbound, fun _ => hlt hphase nofun,
      fun b hb hne => hfree b hb fun heq => hne ?_⟩
    · rcases List.mem_append.mp ht with ht | ht
      · exact hworkers t ht w hw
      · obtain rfl := List.mem_singleton.mp ht
        cases hw
    · rw [← heq]
      cases fn <;> rfl
  | spins hphase hout => exact ⟨hmap, hplace, hworkers, hbound, hinside, hfree⟩
  | leaves hphase hout =>
    rw [hphase] at hfree
    exact ⟨hmap, hplace, hworkers, hbound, fun _ => hlt hphase nofun, hfree⟩
  | free hphase =>
    rw [hphase] at hfree
    have hi := hlt hphase nofun
    refine ⟨hmap, hplace, hworkers, hi, fun hne => absurd rfl hne, fun b hb _ => ?_⟩
    show Function.update s.live s.firstn.out false b = false
    by_cases hb' : b = s.firstn.out
    · rw [hb', Function.update_self]
    · rw [Function.update_of_ne hb']
      exact hfree b hb fun heq => hb' (Option.some.inj heq).symm

/-- **Step lemma of the pooled run.** -/
theorem Pooled.Goes.step (h : s.Goes m objectNum live) (hok : s.Ok)
    (hs : PooledStep H glob objectNum s a s') : s'.Goes m objectNum live := by
  cases hs with
  | main hmain => exact h.main hok hmain
  -- A task that starts gets a fresh worker.
  | start htask hworker =>
    refine ⟨h.map, h.placeable, fun t ht w hw => ?_, h.bound, h.inside, h.free⟩
    rcases List.mem_or_eq_of_mem_set ht with ht | rfl
    · exact h.workers t ht w hw
    · cases hw
      exact Goes.init _
  | work htask hworker hstep =>
    have hgoes := (h.workers _ (List.mem_of_getElem? htask) _ hworker).stepped h.placeable hstep
    refine ⟨h.map, h.placeable, fun t ht w hw => ?_, h.bound, h.inside, h.free⟩
    rcases List.mem_or_eq_of_mem_set ht with ht | rfl
    · exact h.workers t ht w hw
    · cases hw
      exact hgoes.1

/-- The step is a turn of `while(firstn->outpos != 3)`. -/
structure SpinTurn (s : Pooled) (a : PooledAction) (s' : Pooled) : Prop where
  phase : s.phase = .spin
  same : s' = s
  main : ∃ addr, a = .main addr

/-- A step of a task lowers the rank of the tasks. -/
theorem Pooled.rank_set {j : ℕ} {t : PoolTask} (htask : s.tasks[j]? = some t) {sh : Shared}
    {w : Worker} (hlower : Lower m w.rank (t.rank s.firstn)) :
    PooledLower m (Pooled.rank objectNum
      { s with sh := sh, tasks := s.tasks.set j { t with worker := some w } })
      (s.rank objectNum) := by
  apply Prod.Lex.right
  dsimp only
  rw [List.map_set]
  refine cutExpand_set ?_ hlower
  rw [List.getElem?_map, htask]
  rfl

/-- A step of the main thread lowers its rank, or is a turn of the spin. -/
theorem MainStep.rank (h : MainStep objectNum s s') (hgoes : s.Goes m objectNum live) :
    (s.phase = .spin ∧ s' = s) ∨ PooledLower m (s'.rank objectNum) (s.rank objectNum) := by
  cases h with
  | spins hphase hout => exact .inl ⟨hphase, rfl⟩
  -- Only freeing the buffer leads to the next object.
  | free hphase =>
    have hlt := hgoes.inside (by rw [hphase]; exact nofun)
    right
    apply Prod.Lex.left
    simp only [hphase, Phase.left]
    omega
  | add fn hphase =>
    right
    apply Prod.Lex.left
    simp only [hphase]
    cases fn <;> simp [DoWork.next, Phase.left, DoWork.slot]
  | setX hphase | alloc addr hphase | setOut out hphase | setOut2 out hphase | setOutpos hphase
  | leaves hphase =>
    right
    apply Prod.Lex.left
    simp [hphase, Phase.left, DoWork.slot]

/-- **Every step counts**, but for the turns of the spin. -/
theorem PooledStep.rank (hs : PooledStep H glob objectNum s a s')
    (hgoes : s.Goes m objectNum live) :
    SpinTurn s a s' ∨ PooledLower m (s'.rank objectNum) (s.rank objectNum) := by
  cases hs with
  -- A turn of the spin loop is the only step that gets nowhere.
  | @main addr s' hmain =>
    rcases hmain.rank hgoes with ⟨hphase, heq⟩ | hlower
    · exact .inl ⟨hphase, heq, addr, rfl⟩
    · exact .inr hlower
  | start htask hworker =>
    right
    refine Pooled.rank_set htask ?_
    unfold PoolTask.rank
    rw [hworker]
    exact Prod.Lex.left _ _ (by simp [Worker.init, Pc.stage])
  | work htask hworker hstep =>
    right
    refine Pooled.rank_set htask ?_
    have hlower :=
      ((hgoes.workers _ (List.mem_of_getElem? htask) _ hworker).stepped hgoes.placeable hstep).2
    rw [hgoes.map] at hlower
    unfold PoolTask.rank
    rw [hworker]
    exact hlower

/-- **No deadlock**: until all objects are through, some step is possible that is no turn of the
    spin. -/
theorem Pooled.Goes.progress (H : CrushHash) (glob : Globals) (h : s.Goes m objectNum live)
    (hok : s.Ok) (hmem : ∃ addr, addr ≠ nullArr ∧ live addr = false)
    (hnot : ¬ (s.phase = .head ∧ s.i = objectNum)) :
    ∃ a s', pooledStep H glob objectNum s a = some s' ∧ ¬ SpinTurn s a s' := by
  have hmain : ∀ {old : Phase}, s.phase = old → old ≠ .spin → ∀ addr,
      (s.testPthreadPool objectNum addr).isSome = true →
      ∃ a s', pooledStep H glob objectNum s a = some s' ∧ ¬ SpinTurn s a s' := by
    intro old hphase hne addr hsome
    obtain ⟨s', hs⟩ := Option.isSome_iff_exists.mp hsome
    exact ⟨.main addr, s', hs, fun hspin => hne (hphase.symm.trans hspin.phase)⟩
  cases hphase : s.phase with
  | head =>
    have hlt : s.i < objectNum := lt_of_le_of_ne h.bound fun heq => hnot ⟨hphase, heq⟩
    exact hmain hphase (by simp) 0 (by simp [Pooled.testPthreadPool, hphase, hlt])
  | alloc =>
    obtain ⟨addr, hnull, hfree⟩ := hmem
    have hlive : s.live addr = false := h.free addr hfree (by simp [Pooled.buffer, hphase])
    exact hmain hphase (by simp) addr (by simp [Pooled.testPthreadPool, hphase, hnull, hlive])
  | setOut out | setOut2 out | setOutpos | add fn | free =>
    exact hmain hphase (by simp) 0 (by simp [Pooled.testPthreadPool, hphase])
  | spin =>
    by_cases hout : s.sh.outpos = 3
    · refine ⟨.main 0, { s with phase := .free }, ?_, ?_⟩
      · simp [pooledStep, Pooled.testPthreadPool, hphase, hout]
      · intro hspin
        have hfree := congrArg Pooled.phase hspin.same
        rw [hphase] at hfree
        cases hfree
    -- A task that has not published can be started or can move.
    have hcount := hok.count (by rw [hphase]; rfl)
    have hadded : s.phase.added = 3 := by rw [hphase]; rfl
    have hbound := hok.bound
    have hpos : 0 < s.unfinished := by omega
    obtain ⟨t, ht, hopen⟩ := List.countP_pos_iff.mp hpos
    obtain ⟨j, hj⟩ := List.mem_iff_getElem?.mp ht
    have htask : ∀ {a}, (∀ addr, a ≠ .main addr) →
        (pooledStep H glob objectNum s a).isSome = true →
        ∃ a s', pooledStep H glob objectNum s a = some s' ∧ ¬ SpinTurn s a s' := by
      intro a hne hsome
      obtain ⟨s', hs⟩ := Option.isSome_iff_exists.mp hsome
      exact ⟨a, s', hs, fun hspin => hspin.main.elim hne⟩
    cases hworker : t.worker with
    | none =>
      apply htask (a := .start j) (by simp)
      simp only [pooledStep, Pooled.start, hj, hworker, Option.isSome_some]
    | some w =>
      have hnotDone : w.pc ≠ .done := by
        intro hdone
        simp [PoolTask.isDone, hworker, hdone, Pc.isDone] at hopen
      obtain ⟨sh', w', hstep, -⟩ := (h.workers t ht w hworker).step H glob h.placeable hnotDone
        t.fn.slot t.fn.slot s.sh
      apply htask (a := .work j) (by simp)
      simp only [pooledStep, Pooled.work, hj, hworker, DoWork.run_eq, hstep, Option.isSome_some]

theorem Pooled.Goes.init {root : CrushBucket} {reweight : ℤ → UInt32} {weightMax : ℤ}
    (h : Placeable (testInfo m root reweight weightMax 0 nullArr)) (objectNum : ℕ)
    (live : ℕ → Bool) (μ : Store) :
    (Pooled.init m root reweight weightMax live μ).Goes m objectNum live :=
  ⟨rfl, h, fun t ht => absurd ht (init_tasks m root reweight weightMax live μ t),
    Nat.zero_le _, fun hne => absurd rfl hne, fun _ hfree _ => hfree⟩

/-- **The pooled run finishes.**  On a well-formed acyclic map, with counters that do not wrap and
    an address left for the buffers, a run can be continued by a step that is no turn of the spin
    until the last object is through.  Under a schedule that does not end it, all steps from some
    point on are turns of the spin: no task is scheduled any more. -/
theorem pooled_finishes (H : CrushHash) (glob : Globals) (m : CrushMap) (root : CrushBucket)
    (reweight : ℤ → UInt32) (weightMax : ℤ) (objectNum : ℕ) (live : ℕ → Bool) (μ : Store)
    (hwf : m.WellFormed) (hacyclic : m.Acyclic) (hroot : m.Has root)
    (hfit : CountersFit (testInfo m root reweight weightMax 0 nullArr))
    (hmem : ∃ addr, addr ≠ nullArr ∧ live addr = false) :
    (∀ tr s, Run (pooledStep H glob objectNum) (Pooled.init m root reweight weightMax live μ) tr s →
      (s.phase = .head ∧ s.i = objectNum) ∨
        ∃ a s', pooledStep H glob objectNum s a = some s' ∧ ¬ SpinTurn s a s') ∧
      ∀ st act, Execution (pooledStep H glob objectNum)
        (Pooled.init m root reweight weightMax live μ) st act →
        ∃ N, ∀ n, N ≤ n → SpinTurn (st n) (act n) (st (n + 1)) := by
  have hplace : Placeable (testInfo m root reweight weightMax 0 nullArr) :=
    ⟨hwf, hacyclic, hroot, hfit⟩
  have hgoes : ∀ tr s, Run (pooledStep H glob objectNum)
      (Pooled.init m root reweight weightMax live μ) tr s →
      s.Ok ∧ s.Goes m objectNum live := fun tr s hrun =>
    hrun.invariant' (fun s => s.Ok ∧ s.Goes m objectNum live)
      ⟨Pooled.Ok.init m root reweight weightMax live μ, Pooled.Goes.init hplace objectNum live μ⟩
      fun s a s' hI hs => ⟨hI.1.step (pooledStep_step hs), hI.2.step hI.1 (pooledStep_step hs)⟩
  constructor
  · intro tr s hrun
    obtain ⟨hok, hs⟩ := hgoes tr s hrun
    by_cases hend : s.phase = .head ∧ s.i = objectNum
    · exact .inl hend
    · exact .inr (hs.progress H glob hok hmem hend)
  · intro st act hexec
    have hall : ∀ n, (st n).Goes m objectNum live := by
      intro n
      obtain ⟨tr, hrun⟩ := hexec.run n
      exact (hgoes tr _ hrun).2
    have hwell : WellFounded (PooledLower m) := wellFounded_lt.prod_lex
      (lower_wellFounded (f := testInfo m root reweight weightMax 0 nullArr) hacyclic).cutExpand
    obtain ⟨N, hN⟩ := hexec.settles hwell (Pooled.rank objectNum)
      (fun s => s.Goes m objectNum live) hall fun s a s' hs hstep => by
        rcases (pooledStep_step hstep).rank hs with hspin | hlower
        · exact .inl hspin.same
        · exact .inr hlower
    refine ⟨N, fun n hn => ?_⟩
    rcases (pooledStep_step (hexec.step n)).rank (hall n) with hspin | hlower
    · exact hspin
    · -- Nothing changes any more, so no rank goes down.
      rw [hN (n + 1) (by omega), hN n hn] at hlower
      exact absurd hlower (hwell.irrefl.irrefl _)

theorem smallInfo_fits :
    CountersFit (testInfo smallMap smallRoot (fun _ => 0x10000) 4 0 nullArr) := by
  intro i b hb
  obtain ⟨-, rfl⟩ | ⟨-, rfl⟩ | ⟨-, rfl⟩ := smallMap_bucket hb
  all_goals decide

/-- Two objects on the small map: if the experiment does not end, it spins. -/
theorem pooled_finishes_smallMap :
    ¬ ∃ st act, Execution (pooledStep rjenkins smallGlobals 2)
      (Pooled.init smallMap smallRoot (fun _ => 0x10000) 4 (fun _ => false) zeroStore) st act ∧
        ∀ n, ¬ SpinTurn (st n) (act n) (st (n + 1)) := by
  rintro ⟨st, act, hexec, hnever⟩
  obtain ⟨N, hN⟩ := (pooled_finishes rjenkins smallGlobals smallMap smallRoot (fun _ => 0x10000) 4
    2 (fun _ => false) zeroStore smallMap_wellFormed smallMap_acyclic ⟨0, rfl⟩
    smallInfo_fits ⟨1, by decide, rfl⟩).2 st act hexec
  exact hnever N (hN N (le_refl N))

end MyCeph.Crush
