import MyCeph.Experiment.Refines

namespace MyCeph.Experiment

open Lib Crush

/-!
# What the experiment keeps

What is known of the pooled run holds of the experiment with its pool (`bench_safe`): a function
that is being executed belongs to the object of the main thread, the queue is never longer than
three tasks, and nothing is left in the queue or in a function when the main thread frees the
buffer, goes on to the next object, or destroys the pool.
-/

variable {H : CrushHash} {glob : Globals} {objectNum : ℕ} {s s' : Bench} {t : Pooled}
  {a : BenchAction}

/-- The pool is destroyed behind the last object. -/
def Bench.Destroys (objectNum : ℕ) (s : Bench) : Prop :=
  s.pool.owner ≠ .created → (∀ i, s.pool.owner ≠ .creating i) →
    s.main.phase = .head ∧ objectNum ≤ s.main.i

/-- What has not been taken has not been executed. -/
theorem Refines.pending_le (h : Refines s t) : s.pool.pending.length ≤ t.unfinished := by
  have hhistory : s.pool.taken ++ s.pool.pending = s.pool.added := h.pool.fifo.history
  -- What was added is what was taken and what is pending.
  have hlength : s.pool.taken.length + s.pool.pending.length = t.tasks.length := by
    rw [← List.length_append, hhistory, h.added, List.length_map]
  calc s.pool.pending.length = (t.tasks.drop s.pool.taken.length).length := by
        rw [List.length_drop]
        omega
    _ = (t.tasks.drop s.pool.taken.length).countP fun pt => !pt.isDone := by
        rw [eq_comm, List.countP_eq_length]
        intro pt hpt
        -- A task past those taken has no worker, so it is not done.
        obtain ⟨j, hj⟩ := List.mem_iff_getElem?.mp hpt
        rw [List.getElem?_drop] at hj
        simp [PoolTask.isDone, h.pending _ pt hj (Nat.le_add_right _ _)]
    _ ≤ t.unfinished := (List.drop_sublist _ _).countP_le

/-- There are three functions to an object. -/
theorem unfinished_le (h : t.Ok) : t.unfinished ≤ 3 := by
  by_cases hshared : t.phase.shared = true
  · have hcount := h.count hshared
    have hadded : t.phase.added ≤ 3 := by
      unfold Phase.added
      split
      · exact Nat.le_of_lt (DoWork.slot_lt _)
      all_goals omega
    omega
  · rw [Pooled.unfinished_eq_zero (h.idle (Bool.not_eq_true _ ▸ hshared))]
    exact Nat.zero_le _

/-- A worker that is inside of a function executes a task of the pooled run. -/
theorem Refines.executes (h : Refines s t) {i : ℕ} {w : Worker} (hcall : s.call i = some w) :
    ∃ pt ∈ t.tasks, pt.worker = some w ∧ pt.isDone = w.pc.isDone ∧
      s.pool.added[s.taskNo i]? = some (task pt.fn) := by
  cases hq : s.pool.hand i with
  | none =>
    rw [h.idle i hq] at hcall
    cases hcall
  | some q =>
    obtain ⟨pt, hpt, -⟩ := h.carried i q.1 q.2 hq
    have hworker : pt.worker = some w := hpt.worker.trans hcall
    refine ⟨pt, List.mem_of_getElem? hpt.task, hworker, by simp [PoolTask.isDone, hworker], ?_⟩
    rw [h.added, List.getElem?_map, hpt.task]
    rfl

/-- Only the main thread creates and destroys the pool. -/
theorem owner_kept {p p' : Pool.State} {pa : Pool.Action} (hs : Pool.step p pa = some p')
    (hcreate : pa ≠ .create) (hdestroy : ∀ woken, pa ≠ .destroy woken) : p'.owner = p.owner := by
  cases Pool.poolStep_of_step hs with
  | create | created => exact absurd rfl hcreate
  | shutDown | destroys | destroySignals => exact absurd rfl (hdestroy _)
  | @grows liveNum woken m hlive =>
    obtain ⟨n, ids, -, heq⟩ := Pool.addThreads_eq liveNum p.slots 0 p
    rw [heq]
  | _ => rfl

/-- **Step lemma.**  Only the main thread behind the last object destroys the pool. -/
theorem Bench.Destroys.step (h : s.Destroys objectNum)
    (hs : BenchStep H glob objectNum s s') : s'.Destroys objectNum := by
  intro hcreated hcreating
  cases hs with
  | @pool pa pool hwho hstep =>
    -- Only `threadPoolDestroy` leaves `created`, and `main` calls it after its loop.
    by_cases howner : s.pool.owner = .created
    · rcases hwho with rfl | ⟨woken, rfl⟩ | ⟨⟨woken, rfl⟩, hlast⟩
      · cases Pool.poolStep_of_step hstep with
        | create howner' | created howner' =>
          rw [howner'] at howner
          cases howner
      · exact absurd ((owner_kept hstep nofun nofun).trans howner) hcreated
      · exact hlast howner
    · rcases hwho with rfl | ⟨woken, rfl⟩ | ⟨⟨woken, rfl⟩, -⟩
      · cases Pool.poolStep_of_step hstep with
        | create howner' hlt => exact absurd rfl (hcreating _)
        | created howner' hge => exact absurd rfl hcreated
      · have hkept := owner_kept hstep nofun nofun
        exact h howner fun i => hkept ▸ hcreating i
      · cases Pool.poolStep_of_step hstep with
        | shutDown howner' => exact absurd howner' howner
        | destroys o howner' ho | destroySignals o howner' ho hsignal => exact h howner howner'
  | sets howner hphase hstep => exact absurd howner hcreated
  | calls hphase hidle hstep =>
    have hkept := owner_kept hstep nofun nofun
    exact h (hkept ▸ hcreated) fun i => hkept ▸ hcreating i
  | addWaits howner hphase hstep hwaits | adds howner hphase hstep hidle =>
    exact absurd ((owner_kept hstep nofun nofun).trans howner) hcreated
  | queue hhand hstep =>
    have hkept := owner_kept hstep nofun nofun
    exact h (hkept ▸ hcreated) fun i => hkept ▸ hcreating i
  | starts hholds hstep | ends hholds hcall hdone hstep =>
    have hkept := owner_kept hstep nofun nofun
    exact h (hkept ▸ hcreated) fun i => hkept ▸ hcreating i
  | works => exact h hcreated hcreating

/-- **The experiment is safe in its pool.**  In every run, in a pool created with an empty queue:
    `outpos` is at most 3 and so are the tasks in the queue; a function that has not published
    is the one of a task that has been added for the object of the main thread, which has set
    `firstn` up for it and has not freed its buffer; as long as the main thread is not adding or
    spinning the queue is empty and every function has published; and the pool is destroyed behind
    the last object only. -/
theorem bench_safe (H : CrushHash) (glob : Globals) (m : CrushMap) (root : CrushBucket)
    (reweight : ℤ → UInt32) (weightMax : ℤ) (objectNum : ℕ) (live : ℕ → Bool) (μ : Store)
    (ok : Pool.Resources) (mem pool : Pool.ThreadPool) (min max queueSize : ℤ)
    (hcreate : Pool.threadPoolCreate ok mem min max queueSize = some pool)
    (hempty : mem.queueSize = 0) (hcap : 0 < queueSize) (tr : List (Bench × BenchAction))
    (s : Bench) (hrun : Run (benchStep H glob objectNum)
      (Bench.init (Pooled.init m root reweight weightMax live μ) pool) tr s) :
    s.main.sh.outpos ≤ 3 ∧ s.pool.queueSize ≤ 3 ∧
      (∀ i w, s.call i = some w → w.pc.isDone = false → ∃ pt : PoolTask, pt.worker = some w ∧
        s.pool.added[s.taskNo i]? = some (task pt.fn) ∧ s.main.Within pt) ∧
      (s.main.phase.shared = false →
        s.pool.queueSize = 0 ∧ ∀ i w, s.call i = some w → w.pc.isDone = true) ∧
      s.Destroys objectNum := by
  obtain ⟨tr', t, hrun', hR⟩ := hrun.refines Refines (Refines.init _ rfl hcreate hempty hcap)
    fun _ _ _ _ hR hs => hR.step (benchStep_step hs)
  -- The run of the tasks keeps the invariant of `test_pthreadPool`.
  have hok : t.Ok := hrun'.invariant' Pooled.Ok (Pooled.Ok.init m root reweight weightMax live μ)
    fun s a s' hI hs => hI.step (pooledStep_step hs)
  -- A task in the queue is an unfinished one, and there are three at most.
  have hsize : s.pool.queueSize ≤ t.unfinished := by
    rw [← Pool.ThreadPool.pending_length hR.pool.ring]
    exact_mod_cast hR.pending_le
  have hthree := unfinished_le hok
  refine ⟨?_, by omega, fun i w hcall hnot => ?_, fun hshared => ⟨?_, fun i w hcall => ?_⟩, ?_⟩
  · rw [hR.main]
    exact hok.bound
  · obtain ⟨pt, hmem, hworker, hdone, hadded⟩ := hR.executes hcall
    obtain ⟨hobject, hphase, hx, hout, hout2, hlive, hleaf⟩ := hok.within hmem (hdone.trans hnot)
    refine ⟨pt, hworker, hadded, ?_⟩
    rw [hR.main]
    exact ⟨hobject, hphase, hx, hout, hout2, hlive, hleaf⟩
  · rw [hR.main] at hshared
    have hnone := Pooled.unfinished_eq_zero (hok.idle hshared)
    have hnonneg := hR.pool.ring.size_nonneg
    omega
  · rw [hR.main] at hshared
    obtain ⟨pt, hmem, -, hdone, -⟩ := hR.executes hcall
    rw [← hdone]
    exact hok.idle hshared pt hmem
  · exact hrun.invariant' (Bench.Destroys objectNum) (fun _ hcreating => absurd rfl (hcreating 0))
      fun s a s' hI hs => hI.step (benchStep_step hs)

/-- The pass for an object with one worker, up to `delete`. -/
theorem bench_safe_onePass : ∃ tr s, Run (benchStep rjenkins smallGlobals 1) smallBench tr s ∧
    s.main.sh.outpos = 3 ∧ s.pool.queueSize = 0 ∧ (s.call 0).isSome = true ∧
      ∀ i w, s.call i = some w → w.pc.isDone = true := by
  obtain ⟨⟨tr, s⟩, hfollow, hres⟩ := Option.map_eq_some_iff.mp
    (show (follow (benchStep rjenkins smallGlobals 1) onePass [] smallBench).map
      (fun r => (r.2.main.phase, r.2.main.sh.outpos, (r.2.call 0).isSome))
        = some (.free, 3, true) by decide +kernel)
  obtain ⟨hphase, hout, hcall⟩ : s.main.phase = .free ∧ s.main.sh.outpos = 3 ∧
      (s.call 0).isSome = true := by
    simpa using hres
  have hrun := Run.start.of_follow hfollow
  obtain ⟨-, -, -, hthrough, -⟩ := bench_safe rjenkins smallGlobals smallMap smallRoot
    (fun _ => 0x10000) 4 1 (fun _ => false) zeroStore ⟨true, true, true⟩ (Pool.smallPool 0 0 0)
    (Pool.smallPool 1 1 10) 1 1 10 (Pool.threadPoolCreate_smallPool 1 1 10) rfl (by decide) tr s
    hrun
  obtain ⟨hqueue, hdone⟩ := hthrough (by rw [hphase]; rfl)
  exact ⟨tr, s, hrun, hout, hqueue, hcall, hdone⟩

end MyCeph.Experiment
