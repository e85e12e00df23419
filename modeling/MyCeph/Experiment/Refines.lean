import MyCeph.Experiment.Threads

namespace MyCeph.Experiment

open Lib Crush

/-!
# The pool keeps its word

The pooled run starts each task that has been added once, at any time and in any order, and does
not say how.  The experiment with its pool refines it (`bench_refines`): the tasks of the pooled
run are those added to the queue, one is started when the worker that has taken it calls its
function, and all else that the threads of the pool do is not seen.
-/

variable {H : CrushHash} {glob : Globals} {objectNum : ℕ} {s s' : Bench} {t t' : Pooled}

/-! ### The pool -/

/-- The task that a producer is about to add. -/
def adds : Pool.Producer → Option Pool.Task
  | .idle => none
  | .atLock q | .waiting q | .signalled q => some q

/-- The only producer is in `threadPoolAdd` as the phase says. -/
def Adding (phase : Phase) (producers : List Pool.Producer) : Prop :=
  ∃ p, producers = [p] ∧ ∀ q, adds p = some q → ∃ fn, phase = .add fn ∧ task fn = q

/-- What holds of the pool when the main thread is in `phase`. -/
structure PoolOk (phase : Phase) (p : Pool.State) : Prop where
  ring : p.RingOk
  fifo : p.fifo.Exact p.queueCapacity
  adding : Adding phase p.producers
  opened : p.shutDown = true → p.owner ≠ .created ∧ ∀ i, p.owner ≠ .creating i

variable {phase phase' : Phase} {p p' : Pool.State} {pa : Pool.Action}

theorem adds_wake {q q' : Pool.Producer} (h : q.wake = some q') : adds q' = adds q := by
  unfold Pool.Producer.wake at h
  split at h
  · cases h
    rfl
  · cases h

theorem Adding.signal {producers producers' : List Pool.Producer} (h : Adding phase producers)
    (hsignal : Signalled Pool.Producer.wake producers producers') : Adding phase producers' := by
  obtain ⟨q, rfl, hq⟩ := h
  cases hsignal with
  | lost _ => exact ⟨q, rfl, hq⟩
  | @woken i q' q'' hget hwake =>
    rw [List.getElem?_singleton] at hget
    split at hget
    · cases hget
      rename_i hi
      subst hi
      exact ⟨q'', rfl, adds_wake hwake ▸ hq⟩
    · cases hget

/-- Elsewhere the producer is idle. -/
theorem Adding.idle {producers : List Pool.Producer} (h : Adding phase producers)
    (hphase : ∀ fn, phase ≠ .add fn) (phase' : Phase) : Adding phase' producers := by
  obtain ⟨q, rfl, hq⟩ := h
  refine ⟨q, rfl, fun q' hq' => ?_⟩
  obtain ⟨fn, heq, -⟩ := hq q' hq'
  exact absurd heq (hphase fn)

/-- `threadPoolDestroy` has been called. -/
theorem destroy_owner {woken : Option ℕ} (h : Pool.step p (.destroy woken) = some p') :
    p'.owner ≠ .created ∧ ∀ i, p'.owner ≠ .creating i := by
  unfold Pool.step at h
  split at h
  · cases h
  dsimp only at h
  unfold Pool.State.threadPoolDestroy at h
  -- The owner is at `threadPoolDestroy` or past it after each of its steps.
  split at h
  · cases h
    exact ⟨by simp, by simp⟩
  · split at h
    · cases h
      exact ⟨by simp, by simp⟩
    · cases h
  · split at h
    · cases h
      exact ⟨by simp, by simp⟩
    · cases h
      exact ⟨by simp, by simp⟩
  · obtain ⟨workers, -, rfl⟩ := Option.map_eq_some_iff.mp h
    exact ⟨by simp, by simp⟩
  · cases h

/-- A step of a thread other than the producer. -/
theorem PoolOk.step (h : PoolOk phase p) (hs : Pool.step p pa = some p')
    (hcall : ∀ j q, pa ≠ .call j q) (hproducer : ∀ j woken, pa ≠ .producer j woken) :
    PoolOk phase p' := by
  have hpool := Pool.poolStep_of_step hs
  obtain ⟨hring, hcap, hfifo⟩ := Pool.queue_step h.ring hpool
  -- The ring and the order of the tasks are kept by every step of the pool.
  have hexact : p'.fifo.Exact p'.queueCapacity := hcap ▸ h.fifo.step hfifo
  cases hpool with
  | call howner hpc => exact absurd rfl (hcall _ _)
  | addWaits | addRefused | add => exact absurd rfl (hproducer _ _)
  | take henters hsome hopen hsignal =>
    exact ⟨hring, hexact, h.adding.signal hsignal, h.opened⟩
  -- A pool that is shut down is no longer being created.
  | create howner hlt | created howner hge =>
    refine ⟨hring, hexact, h.adding, fun hshut => ?_⟩
    exact absurd howner ((h.opened hshut).2 _)
  | @grows liveNum woken m hlive =>
    obtain ⟨n, ids, -, heq⟩ := Pool.addThreads_eq liveNum p.slots 0 p
    refine ⟨hring, hexact, ?_, ?_⟩
    · show Adding phase (Pool.State.addThreads liveNum p.slots 0 p).producers
      rw [heq]
      exact h.adding
    · show (Pool.State.addThreads liveNum p.slots 0 p).shutDown = true → _
      rw [heq]
      exact h.opened
  | shutDown | destroys | destroySignals =>
    exact ⟨hring, hexact, h.adding, fun _ => destroy_owner hs⟩
  | _ => exact ⟨hring, hexact, h.adding, h.opened⟩

/-! ### The relation -/

/-- Worker `i` has the task `pt` of the pooled run in hand. -/
structure Carries (s : Bench) (t : Pooled) (i : ℕ) (pt : PoolTask) : Prop where
  task : t.tasks[s.taskNo i]? = some pt
  taken : s.taskNo i < s.pool.taken.length
  worker : pt.worker = s.call i

/-- The relation of the experiment to the pooled run. -/
structure Refines (s : Bench) (t : Pooled) : Prop where
  main : s.main = { t with tasks := [] }
  pool : PoolOk t.phase s.pool
  added : s.pool.added = t.tasks.map fun pt => task pt.fn
  /-- A task in the queue has not been started. -/
  pending : ∀ j pt, t.tasks[j]? = some pt → s.pool.taken.length ≤ j → pt.worker = none
  carried : ∀ i q called, s.pool.hand i = some (q, called) →
    ∃ pt, Carries s t i pt ∧ task pt.fn = q ∧ (s.call i).isSome = called
  idle : ∀ i, s.pool.hand i = none → s.call i = none
  distinct : ∀ i i', s.pool.hand i ≠ none → s.pool.hand i' ≠ none →
    s.taskNo i = s.taskNo i' → i = i'

/-- The pool moves on and nothing is seen of it. -/
theorem Refines.keeps (h : Refines s t) {pool : Pool.State} (hpool : PoolOk t.phase pool)
    (hhand : pool.hand = s.pool.hand) (hadded : pool.added = s.pool.added)
    (htaken : pool.taken = s.pool.taken) : Refines { s with pool := pool } t := by
  refine ⟨h.main, hpool, hadded.trans h.added, ?_, ?_, ?_, ?_⟩
  · intro j pt hpt hj
    exact h.pending j pt hpt (htaken ▸ hj)
  · intro i q called hq
    obtain ⟨pt, ⟨htask, hlt, hworker⟩, hcarried⟩ := h.carried i q called (hhand ▸ hq)
    exact ⟨pt, ⟨htask, htaken ▸ hlt, hworker⟩, hcarried⟩
  · intro i hi
    exact h.idle i (hhand ▸ hi)
  · intro i i' hi hi'
    exact h.distinct i i' (hhand ▸ hi) (hhand ▸ hi')

/-! ### The main thread -/

/-- The main thread does not look at the tasks. -/
theorem testPthreadPool_tasks {main : Pooled} {addr : ℕ} (hphase : ∀ fn, t.phase ≠ .add fn)
    (h : Pooled.testPthreadPool objectNum { t with tasks := [] } addr = some main) :
    main.tasks = [] ∧ t.testPthreadPool objectNum addr = some { main with tasks := t.tasks } := by
  unfold Pooled.testPthreadPool at h ⊢
  dsimp only at h
  split at h
  · split at h
    · rename_i hlt
      cases h
      rw [if_pos hlt]
      exact ⟨rfl, rfl⟩
    · cases h
  · split at h
    · cases h
    · rename_i hnew
      cases h
      rw [if_neg hnew]
      exact ⟨rfl, rfl⟩
  · cases h
    exact ⟨rfl, rfl⟩
  · cases h
    exact ⟨rfl, rfl⟩
  · cases h
    exact ⟨rfl, rfl⟩
  · rename_i fn heq
    exact absurd heq (hphase fn)
  · split at h
    · rename_i hout
      cases h
      rw [if_pos hout]
      exact ⟨rfl, rfl⟩
    · rename_i hout
      cases h
      rw [if_neg hout]
      exact ⟨rfl, rfl⟩
  · cases h
    exact ⟨rfl, rfl⟩

/-- A step of the main thread between its calls of `threadPoolAdd`. -/
theorem Refines.sets (h : Refines s t) {main : Pooled} {addr : ℕ}
    (hphase : ∀ fn, s.main.phase ≠ .add fn)
    (hstep : s.main.testPthreadPool objectNum addr = some main) :
    ∃ b t', pooledStep H glob objectNum t b = some t' ∧ Refines { s with main := main } t' := by
  rw [h.main] at hphase hstep
  obtain ⟨hempty, hstep'⟩ := testPthreadPool_tasks (t := t) hphase hstep
  refine ⟨.main addr, _, hstep', ?_, ?_, h.added, h.pending, ?_, h.idle, h.distinct⟩
  · show main = { main with tasks := [] }
    rw [← hempty]
  · exact ⟨h.pool.ring, h.pool.fifo, h.pool.adding.idle hphase _, h.pool.opened⟩
  · intro i q called hq
    obtain ⟨pt, ⟨htask, hlt, hworker⟩, hcarried⟩ := h.carried i q called hq
    exact ⟨pt, ⟨htask, hlt, hworker⟩, hcarried⟩

/-- `threadPoolAdd` is called. -/
theorem PoolOk.calls {fn : DoWork} (h : PoolOk phase p) (hphase : phase = .add fn)
    (hstep : Pool.step p (.call 0 (task fn)) = some p') :
    PoolOk phase p' ∧ p'.hand = p.hand ∧ p'.added = p.added ∧ p'.taken = p.taken := by
  obtain ⟨q, hq, -⟩ := h.adding
  cases Pool.poolStep_of_step hstep with
  | call howner hpc =>
    refine ⟨⟨h.ring, h.fifo, ⟨.atLock (task fn), ?_, ?_⟩, h.opened⟩, rfl, rfl, rfl⟩
    · show p.producers.set 0 _ = _
      rw [hq]
      rfl
    · intro q' hq'
      cases hq'
      exact ⟨fn, hphase, rfl⟩

/-- In `threadPoolAdd` the main thread waits, or it adds its task and is through, as long as the
    pool is not shut down. -/
theorem PoolOk.producer {fn : DoWork} {woken : Option ℕ} (h : PoolOk phase p)
    (howner : p.owner = .created) (hphase : phase = .add fn)
    (hstep : Pool.step p (.producer 0 woken) = some p') :
    p'.hand = p.hand ∧ p'.taken = p.taken ∧
      (p'.producers[0]? ≠ some .idle ∧ PoolOk phase p' ∧ p'.added = p.added ∨
        p'.producers[0]? = some .idle ∧ (∀ phase', PoolOk phase' p') ∧
          p'.added = p.added ++ [task fn]) := by
  have hpool := Pool.poolStep_of_step hstep
  obtain ⟨hring, hcap, hfifo⟩ := Pool.queue_step h.ring hpool
  have hexact : p'.fifo.Exact p'.queueCapacity := hcap ▸ h.fifo.step hfifo
  obtain ⟨q, hq, hadds⟩ := h.adding
  -- The task that `main` adds is the one of its phase.
  have htask : ∀ {q'}, p.producers[0]? = some (.atLock q') ∨
      p.producers[0]? = some (.signalled q') → q' = task fn := by
    intro q' hpc
    have hq' : adds q = some q' := by
      rw [hq] at hpc
      rcases hpc with hpc | hpc
      · cases hpc
        rfl
      · cases hpc
        rfl
    obtain ⟨fn', hfn', rfl⟩ := hadds q' hq'
    rw [hphase] at hfn'
    cases hfn'
    rfl
  -- `main` is the only producer.
  have hset : ∀ q', p.producers.set 0 q' = [q'] := by
    intro q'
    rw [hq]
    rfl
  cases hpool with
  | @addWaits j q' woken hpc hfull hopen =>
    obtain rfl := htask hpc
    refine ⟨rfl, rfl, .inl ⟨?_, ⟨hring, hexact, ⟨_, hset _, ?_⟩, h.opened⟩, rfl⟩⟩
    · dsimp only
      rw [hset]
      nofun
    · intro q' hq'
      cases hq'
      exact ⟨fn, hphase, rfl⟩
  | addRefused hpc hshut => exact absurd howner (h.opened hshut).1
  | @add j q' woken workers hpc hroom hopen hsignal =>
    obtain rfl := htask hpc
    refine ⟨Pool.hand_signal hsignal, rfl, .inr ⟨?_, fun phase' => ?_, rfl⟩⟩
    · dsimp only
      rw [hset]
      rfl
    · exact ⟨hring, hexact, ⟨.idle, hset _, nofun⟩, h.opened⟩

/-- `threadPoolAdd` queues the task. -/
theorem Refines.adds (h : Refines s t) {fn : DoWork} {woken : Option ℕ} {pool : Pool.State}
    (howner : s.pool.owner = .created) (hphase : s.main.phase = .add fn)
    (hstep : Pool.step s.pool (.producer 0 woken) = some pool)
    (hidle : pool.producers[0]? = some .idle) :
    ∃ b t', pooledStep H glob objectNum t b = some t' ∧
      Refines { s with pool := pool, main := { s.main with phase := fn.next } } t' := by
  have hphase' : t.phase = .add fn := by
    rw [h.main] at hphase
    exact hphase
  obtain ⟨hhand, htaken, ⟨hwaits, -⟩ | ⟨-, hpool, hadded⟩⟩ :=
    h.pool.producer howner hphase' hstep
  · exact absurd hidle hwaits
  have hmain : t.testPthreadPool objectNum 0
      = some { t with tasks := t.tasks ++ [t.newTask fn], phase := fn.next } := by
    unfold Pooled.testPthreadPool
    rw [hphase']
  -- The tasks that were there keep their numbers.
  have hold : ∀ {j : ℕ} {pt : PoolTask}, t.tasks[j]? = some pt →
      (t.tasks ++ [t.newTask fn])[j]? = some pt := by
    intro j pt hpt
    rw [List.getElem?_append_left (List.getElem?_eq_some_iff.mp hpt).1, hpt]
  refine ⟨.main 0, _, hmain, ?_, hpool _, ?_, ?_, ?_, ?_, ?_⟩
  · show { s.main with phase := fn.next } = _
    rw [h.main]
  · show pool.added = _
    rw [hadded, h.added, List.map_append]
    rfl
  · intro j pt hpt hj
    -- The task not taken yet is an old one, or the new one at the end.
    rcases Nat.lt_or_ge j t.tasks.length with hlt | hge
    · dsimp only at hpt hj
      rw [List.getElem?_append_left hlt] at hpt
      exact h.pending j pt hpt (htaken ▸ hj)
    · dsimp only at hpt
      rw [List.getElem?_append_right hge, List.getElem?_singleton] at hpt
      split at hpt
      · cases hpt
        rfl
      · cases hpt
  · intro i q called hq
    obtain ⟨pt, ⟨htask, hlt, hworker⟩, hcarried⟩ := h.carried i q called (hhand ▸ hq)
    exact ⟨pt, ⟨hold htask, htaken ▸ hlt, hworker⟩, hcarried⟩
  · intro i hi
    exact h.idle i (hhand ▸ hi)
  · intro i i' hi hi'
    exact h.distinct i i' (hhand ▸ hi) (hhand ▸ hi')

/-! ### The workers -/

/-- The first task in the queue is the first one of the pooled run that has not been taken. -/
theorem Refines.front (h : Refines s t) (hsome : s.pool.queueSize ≠ 0) :
    ∃ pt, t.tasks[s.pool.taken.length]? = some pt ∧ task pt.fn = s.pool.front := by
  have hadded : s.pool.added[s.pool.taken.length]? = some s.pool.front := by
    have hhistory : s.pool.taken ++ s.pool.pending = s.pool.added := h.pool.fifo.history
    rw [← hhistory, (h.pool.ring.drop hsome).2, List.getElem?_append_right (le_refl _),
      Nat.sub_self]
    rfl
  rw [h.added, List.getElem?_map] at hadded
  exact Option.map_eq_some_iff.mp hadded

/-- The numbers of empty hands do not matter. -/
theorem Refines.renumber (h : Refines s t) (no : ℕ → ℕ)
    (hno : ∀ i, s.pool.hand i ≠ none → no i = s.taskNo i) :
    Refines { s with taskNo := no } t := by
  refine ⟨h.main, h.pool, h.added, h.pending, ?_, h.idle, ?_⟩
  · intro i q called hq
    obtain ⟨pt, ⟨htask, hlt, hworker⟩, hcarried⟩ := h.carried i q called hq
    have heq : no i = s.taskNo i := hno i (Option.ne_none_iff_exists'.mpr ⟨_, hq⟩)
    refine ⟨pt, ⟨?_, ?_, hworker⟩, hcarried⟩
    · show t.tasks[no i]? = some pt
      rw [heq, htask]
    · show no i < s.pool.taken.length
      rw [heq]
      exact hlt
  · intro i i' hi hi' heq
    apply h.distinct i i' hi hi'
    rw [← hno i hi, ← hno i' hi']
    exact heq

/-- Worker `i` takes a task from the queue. -/
theorem Refines.takes (h : Refines s t) {i : ℕ} {pool : Pool.State} (hpool : PoolOk t.phase pool)
    (hno : s.taskNo i = s.pool.taken.length) (hempty : s.pool.hand i = none)
    (hsome : s.pool.queueSize ≠ 0)
    (hhand : pool.hand = Function.update s.pool.hand i (some (s.pool.front, false)))
    (hadded : pool.added = s.pool.added) (htaken : pool.taken = s.pool.taken ++ [s.pool.front]) :
    Refines { s with pool := pool } t := by
  have hlen : pool.taken.length = s.pool.taken.length + 1 := by
    rw [htaken, List.length_append, List.length_singleton]
  -- Every task in a worker's hands has been taken earlier, and has a smaller number.
  have hlater : ∀ i', s.pool.hand i' ≠ none → s.taskNo i' < s.pool.taken.length := by
    intro i' hi'
    obtain ⟨⟨q, called⟩, hq⟩ := Option.ne_none_iff_exists'.mp hi'
    obtain ⟨pt, hcarries, -⟩ := h.carried i' q called hq
    exact hcarries.taken
  refine ⟨h.main, hpool, hadded.trans h.added, ?_, ?_, ?_, ?_⟩
  · intro j pt hpt hj
    dsimp only at hj
    exact h.pending j pt hpt (by omega)
  · intro i' q called hq
    dsimp only at hq
    rw [hhand, Function.update_apply] at hq
    split at hq
    · rename_i hi
      subst hi
      cases hq
      -- The worker that takes: the task is the front of the queue, and nobody has begun it.
      obtain ⟨pt, hpt, htask⟩ := h.front hsome
      have hnone := h.pending _ pt hpt (le_refl _)
      refine ⟨pt, ⟨hno ▸ hpt, ?_, ?_⟩, htask, ?_⟩
      · show s.taskNo i' < pool.taken.length
        omega
      · exact hnone.trans (h.idle i' hempty).symm
      · show (s.call i').isSome = false
        rw [h.idle i' hempty]
        rfl
    · obtain ⟨pt, ⟨htask, hlt, hworker⟩, hcarried⟩ := h.carried i' q called hq
      refine ⟨pt, ⟨htask, ?_, hworker⟩, hcarried⟩
      show s.taskNo i' < pool.taken.length
      omega
  · intro i' hi'
    dsimp only at hi'
    rw [hhand, Function.update_apply] at hi'
    split at hi'
    · cases hi'
    · exact h.idle i' hi'
  · intro i₁ i₂ h₁ h₂ heq
    dsimp only at h₁ h₂ heq
    rw [hhand, Function.update_apply] at h₁ h₂
    -- Two workers with one number: the new number differs from all the earlier ones.
    split at h₁
    · rename_i hi₁
      split at h₂
      · rename_i hi₂
        rw [hi₁, hi₂]
      · have hlt := hlater i₂ h₂
        rw [hi₁] at heq
        omega
    · split at h₂
      · rename_i hi₂
        have hlt := hlater i₁ h₁
        rw [hi₂] at heq
        omega
      · exact h.distinct i₁ i₂ h₁ h₂ heq

/-- A worker at the queue takes the next task, or none. -/
theorem Refines.queue (h : Refines s t) {i : ℕ} {woken : Option ℕ} {pool : Pool.State}
    (hhand : s.pool.hand i = none) (hstep : Pool.step s.pool (.worker i woken) = some pool) :
    Refines { s with
      pool := pool, taskNo := Function.update s.taskNo i s.pool.taken.length } t := by
  have hpool := h.pool.step hstep nofun nofun
  have hrenumber := h.renumber (Function.update s.taskNo i s.pool.taken.length) fun i' hi' => by
    apply Function.update_of_ne
    rintro rfl
    exact hi' hhand
  cases Pool.handStep_of_step (Pool.poolStep_of_step hstep) with
  | keeps hhand' hadded htaken => exact hrenumber.keeps hpool hhand' hadded htaken
  | takes hempty hsome hhand' hadded htaken =>
    exact hrenumber.takes hpool (Function.update_self _ _ _) hempty hsome hhand' hadded htaken
  | starts hholds | ends hholds =>
    rw [Pool.hand_eq hholds] at hhand
    cases hhand

/-- Worker `i` moves on in the function of its task, or calls it. -/
theorem Refines.moves (h : Refines s t) {i : ℕ} {q : Pool.Task} {called : Bool}
    {pool : Pool.State} {pt : PoolTask} (sh : Shared) (w : Worker) (hpool : PoolOk t.phase pool)
    (hq : s.pool.hand i = some (q, called)) (hpt : Carries s t i pt) (htask : task pt.fn = q)
    (hhand : pool.hand = Function.update s.pool.hand i (some (q, true)))
    (hadded : pool.added = s.pool.added) (htaken : pool.taken = s.pool.taken) :
    Refines { s with
        main := { s.main with sh := sh }, pool := pool
        call := Function.update s.call i (some w) }
      { t with sh := sh, tasks := t.tasks.set (s.taskNo i) { pt with worker := some w } } := by
  obtain ⟨hlt, hget⟩ := List.getElem?_eq_some_iff.mp hpt.task
  -- The worker holds its task before and after, and the others hold what they held.
  have hsome : ∀ i', pool.hand i' = none ↔ s.pool.hand i' = none := by
    intro i'
    rw [hhand, Function.update_apply]
    split
    · rename_i hi
      rw [hi, hq]
      simp
    · rfl
  refine ⟨?_, hpool, ?_, ?_, ?_, ?_, ?_⟩
  · show { s.main with sh := sh } = _
    rw [h.main]
  · -- Writing the worker's state into its task does not change the task's function.
    have hself : t.tasks.set (s.taskNo i) pt = t.tasks := by
      rw [← hget]
      exact List.set_getElem_self hlt
    show pool.added = _
    rw [hadded, h.added, List.map_set]
    conv_lhs => rw [← hself, List.map_set]
  · intro j pt' hpt' hj
    dsimp only at hpt' hj
    rw [htaken] at hj
    have htaken' := hpt.taken
    rw [List.getElem?_set_ne (by omega)] at hpt'
    exact h.pending j pt' hpt' hj
  · intro i' q' called' hq'
    dsimp only at hq'
    -- The worker that moves carries its new state; another one has another task.
    by_cases hi : i' = i
    · subst hi
      rw [hhand, Function.update_self] at hq'
      cases hq'
      refine ⟨{ pt with worker := some w }, ⟨?_, htaken ▸ hpt.taken, ?_⟩, htask, ?_⟩
      · dsimp only
        rw [List.getElem?_set_self hlt]
      · dsimp only
        rw [Function.update_self]
      · dsimp only
        rw [Function.update_self]
        rfl
    · rw [hhand, Function.update_of_ne hi] at hq'
      obtain ⟨pt', ⟨htask', hlt', hworker'⟩, hcarried'⟩ := h.carried i' q' called' hq'
      have hne : s.taskNo i ≠ s.taskNo i' := by
        intro heq
        apply hi
        apply h.distinct i' i _ _ heq.symm
        · rw [hq']
          simp
        · rw [hq]
          simp
      refine ⟨pt', ⟨?_, htaken ▸ hlt', ?_⟩, ?_⟩
      · dsimp only
        rw [List.getElem?_set_ne hne]
        exact htask'
      · dsimp only
        rw [Function.update_of_ne hi]
        exact hworker'
      · dsimp only
        rw [Function.update_of_ne hi]
        exact hcarried'
  · intro i' hi'
    have hi := (hsome i').mp hi'
    dsimp only
    rw [Function.update_of_ne (by rintro rfl; rw [hq] at hi; cases hi)]
    exact h.idle i' hi
  · intro i₁ i₂ h₁ h₂
    exact h.distinct i₁ i₂ ((hsome i₁).not.mp h₁) ((hsome i₂).not.mp h₂)

/-- Worker `i` is through with its task. -/
theorem Refines.ends (h : Refines s t) {i : ℕ} {pool : Pool.State} (hpool : PoolOk t.phase pool)
    (hhand : pool.hand = Function.update s.pool.hand i none) (hadded : pool.added = s.pool.added)
    (htaken : pool.taken = s.pool.taken) :
    Refines { s with pool := pool, call := Function.update s.call i none } t := by
  -- After the task the worker holds nothing, so each holder is another worker.
  have hne : ∀ i', pool.hand i' ≠ none → i' ≠ i := by
    rintro i' hi' rfl
    rw [hhand, Function.update_self] at hi'
    exact hi' rfl
  refine ⟨h.main, hpool, hadded.trans h.added, ?_, ?_, ?_, ?_⟩
  · intro j pt hpt hj
    exact h.pending j pt hpt (htaken ▸ hj)
  · intro i' q called hq
    dsimp only at hq
    have hi : i' ≠ i := hne i' (Option.ne_none_iff_exists'.mpr ⟨_, hq⟩)
    rw [hhand, Function.update_of_ne hi] at hq
    obtain ⟨pt, ⟨htask, hlt, hworker⟩, hcarried⟩ := h.carried i' q called hq
    refine ⟨pt, ⟨htask, htaken ▸ hlt, ?_⟩, ?_⟩
    · dsimp only
      rw [Function.update_of_ne hi]
      exact hworker
    · dsimp only
      rw [Function.update_of_ne hi]
      exact hcarried
  · intro i' hi'
    dsimp only at hi' ⊢
    rw [hhand, Function.update_apply] at hi'
    rw [Function.update_apply]
    split at hi'
    · rename_i hi
      rw [if_pos hi]
    · rename_i hi
      rw [if_neg hi]
      exact h.idle i' hi'
  · intro i₁ i₂ h₁ h₂
    have hi₁ := hne i₁ h₁
    have hi₂ := hne i₂ h₂
    dsimp only at h₁ h₂
    rw [hhand, Function.update_of_ne hi₁] at h₁
    rw [hhand, Function.update_of_ne hi₂] at h₂
    exact h.distinct i₁ i₂ h₁ h₂

/-! ### Runs -/

/-- **Step lemma**: a step of the experiment is not seen, or it is one of the pooled run. -/
theorem Refines.step (h : Refines s t) (hs : BenchStep H glob objectNum s s') :
    Refines s' t ∨ ∃ b t', pooledStep H glob objectNum t b = some t' ∧ Refines s' t' := by
  have hphase : ∀ {phase}, s.main.phase = phase → t.phase = phase := by
    intro phase heq
    rw [h.main] at heq
    exact heq
  -- The pool's own steps are silent; those of `main` and of `doWork` have their like in `t`.
  cases hs with
  | @pool pa pool hwho hstep =>
    have hpool := h.pool.step hstep (by rintro j q rfl; simp at hwho)
      (by rintro j woken rfl; simp at hwho)
    cases Pool.handStep_of_step (Pool.poolStep_of_step hstep) with
    | keeps hhand hadded htaken => exact .inl (h.keeps hpool hhand hadded htaken)
    | adds | takes | starts | ends => simp at hwho
  | sets howner hadd hstep => exact .inr (h.sets hadd hstep)
  | calls hadd hidle hstep =>
    obtain ⟨hpool, hhand, hadded, htaken⟩ := h.pool.calls (hphase hadd) hstep
    exact .inl (h.keeps hpool hhand hadded htaken)
  | addWaits howner hadd hstep hwaits =>
    obtain ⟨hhand, htaken, ⟨-, hpool, hadded⟩ | ⟨hidle, -⟩⟩ :=
      h.pool.producer howner (hphase hadd) hstep
    · exact .inl (h.keeps hpool hhand hadded htaken)
    · exact absurd hidle hwaits
  | adds howner hadd hstep hidle => exact .inr (h.adds howner hadd hstep hidle)
  | queue hhand hstep => exact .inl (h.queue hhand hstep)
  | @starts i q woken pool hholds hstep =>
    have hq := Pool.hand_eq hholds
    obtain ⟨pt, hpt, htask, hcalled⟩ := h.carried i q false hq
    have hnone : pt.worker = none := by
      rw [hpt.worker]
      simpa using hcalled
    obtain ⟨hhand, hadded, htaken⟩ := Pool.hand_starts hholds hstep
    refine .inr ⟨.start (s.taskNo i), _, ?_, h.moves s.main.sh (Worker.init s.main.firstn)
      (h.pool.step hstep nofun nofun) hq hpt htask hhand hadded htaken⟩
    simp only [pooledStep, Pooled.start, hpt.task, hnone, h.main]
  | @works i q fn w w' sh hruns hcall hfunction hstep =>
    have hq := Pool.hand_eq hruns
    obtain ⟨pt, hpt, rfl, hcalled⟩ := h.carried i q true hq
    rw [function_task] at hfunction
    cases hfunction
    have hworker : pt.worker = some w := hpt.worker.trans hcall
    refine .inr ⟨.work (s.taskNo i), _, ?_, h.moves sh w' h.pool hq hpt rfl
      (Function.update_eq_self_iff.mpr hq.symm).symm rfl rfl⟩
    rw [h.main] at hstep
    simp only [pooledStep, Pooled.work, hpt.task, hworker, hstep]
  | @ends i q w woken pool hruns hcall hdone hstep =>
    obtain ⟨hhand, hadded, htaken⟩ := Pool.hand_ends hruns hstep
    exact .inl (h.ends (h.pool.step hstep nofun nofun) hhand hadded htaken)

/-- A created pool with an empty queue. -/
theorem Refines.init (main : Pooled) (hnone : main.tasks = []) {ok : Pool.Resources}
    {mem pool : Pool.ThreadPool} {min max queueSize : ℤ}
    (hcreate : Pool.threadPoolCreate ok mem min max queueSize = some pool)
    (hempty : mem.queueSize = 0) (hcap : 0 < queueSize) : Refines (Bench.init main pool) main := by
  have hpool := Pool.threadPoolCreate_some hcreate
  have hstart : (Pool.State.start pool 1).RingOk ∧
      (Pool.State.start pool 1).fifo.Exact (Pool.State.start pool 1).queueCapacity := by
    subst hpool
    exact Pool.queue_start hempty (le_refl 0) hcap rfl rfl rfl
  have hopen : pool.shutDown = false := by rw [hpool]
  refine ⟨?_, ⟨hstart.1, hstart.2, ⟨.idle, rfl, nofun⟩, fun hshut => ?_⟩, ?_, ?_, ?_,
    fun _ _ => rfl, ?_⟩
  · show main = { main with tasks := [] }
    rw [← hnone]
  · exact absurd hshut (by rw [show (Bench.init main pool).pool.shutDown = false from hopen]; simp)
  · rw [hnone]
    rfl
  · intro j pt hpt
    rw [hnone] at hpt
    cases hpt
  · intro i q called hq
    cases hq
  · intro i i' hi
    exact absurd rfl hi

/-- **The experiment with its pool refines the pooled run.**  Whatever the sizes of the pool, every
    run of the experiment in a pool that has been created with an empty queue is one of the pooled
    run, with the same main thread, the tasks in the order of their addition, and the functions
    where they stand. -/
theorem bench_refines (H : CrushHash) (glob : Globals) (m : CrushMap) (root : CrushBucket)
    (reweight : ℤ → UInt32) (weightMax : ℤ) (objectNum : ℕ) (live : ℕ → Bool) (μ : Store)
    (ok : Pool.Resources) (mem pool : Pool.ThreadPool) (min max queueSize : ℤ)
    (hcreate : Pool.threadPoolCreate ok mem min max queueSize = some pool)
    (hempty : mem.queueSize = 0) (hcap : 0 < queueSize) (tr : List (Bench × BenchAction))
    (s : Bench) (hrun : Run (benchStep H glob objectNum)
      (Bench.init (Pooled.init m root reweight weightMax live μ) pool) tr s) :
    ∃ tr' t, Run (pooledStep H glob objectNum)
      (Pooled.init m root reweight weightMax live μ) tr' t ∧ Refines s t :=
  hrun.refines Refines (Refines.init _ rfl hcreate hempty hcap)
    fun _ _ _ _ hR hs => hR.step (benchStep_step hs)

/-- The small map, and one worker. -/
def smallBench : Bench :=
  Bench.init (Pooled.init smallMap smallRoot (fun _ => 0x10000) 4 (fun _ => false) zeroStore)
    (Pool.smallPool 1 1 10)

/-- The pass for an object up to `delete`: the worker sleeps until the first function is added, and
    executes the three one after the other. -/
def onePass : List BenchAction :=
  let main := BenchAction.main 1 none
  let worker := BenchAction.worker 0 none
  List.flatten
    [[main, main, worker, main, main, main, main, main, main, .main 1 (some 0), worker, worker],
      List.replicate 7 worker, [main, main, main, main, main, worker, worker, worker],
      List.replicate 10 worker, [worker, worker, worker], List.replicate 13 worker, [main]]

/-- The pass for an object with one worker, seen as a pooled run. -/
theorem bench_refines_onePass : ∃ tr s, Run (benchStep rjenkins smallGlobals 1) smallBench tr s ∧
    s.main.phase = .free ∧ ∃ tr' t, Run (pooledStep rjenkins smallGlobals 1)
      (Pooled.init smallMap smallRoot (fun _ => 0x10000) 4 (fun _ => false) zeroStore) tr' t ∧
        Refines s t := by
  obtain ⟨⟨tr, s⟩, hfollow, hphase⟩ := Option.map_eq_some_iff.mp
    (show (follow (benchStep rjenkins smallGlobals 1) onePass [] smallBench).map
      (fun r => r.2.main.phase) = some .free by decide +kernel)
  have hrun := Run.start.of_follow hfollow
  exact ⟨tr, s, hrun, hphase, bench_refines rjenkins smallGlobals smallMap smallRoot
    (fun _ => 0x10000) 4 1 (fun _ => false) zeroStore ⟨true, true, true⟩ (Pool.smallPool 0 0 0)
    (Pool.smallPool 1 1 10) 1 1 10 (Pool.threadPoolCreate_smallPool 1 1 10) rfl (by decide) tr s
    hrun⟩

end MyCeph.Experiment
