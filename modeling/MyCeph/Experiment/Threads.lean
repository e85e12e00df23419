import MyCeph.Crush.PooledRuns
import MyCeph.Pool.Hands

namespace MyCeph.Experiment

open Lib Crush

/-!
# The experiment with its pool

`test_pthreadPool` in full: the thread that creates the pool, places the objects one after the
other and destroys the pool, and the threads of the pool, which execute the three functions.  Its
parts are those of the two models: the main thread between its calls into the pool is that of
`Pooled`, whose own list of tasks stays empty here, a function of a task is `doWork`, and a call
into the pool goes through the critical sections of `Pool.step`.

The pool has one producer, the main thread, which also owns it.
-/

/-! ### Tasks -/

/-- What is queued by `threadPoolAdd(threadpool, fn, (void *)firstn)`: there is one `firstn`, and a
    function goes by its number. -/
def task (fn : DoWork) : Pool.Task := ⟨fn.slot, 0⟩

/-- The function of a task. -/
def function (task : Pool.Task) : Option DoWork :=
  match task.function with
  | 0 => some .doWork1
  | 1 => some .doWork2
  | 2 => some .doWork3
  | _ => none

theorem function_task (fn : DoWork) : function (task fn) = some fn := by
  cases fn <;> rfl

/-! ### State -/

/-- The main thread, the pool, and for each worker of the pool the function that it is inside of,
    with the number of the task it has taken last, which no thread notes. -/
structure Bench where
  main : Pooled
  pool : Pool.State
  call : ℕ → Option Worker
  taskNo : ℕ → ℕ

/-- Before the threads of the pool are created. -/
def Bench.init (main : Pooled) (pool : Pool.ThreadPool) : Bench where
  main := main
  pool := Pool.State.start pool 1
  call := fun _ => none
  taskNo := fun _ => 0

/-! ### Steps -/

/-- The next step of the main thread in `threadPoolAdd`.  It goes on when it is through with it. -/
def Bench.threadPoolAdd (s : Bench) (fn : DoWork) (woken : Option ℕ) : Option Bench :=
  match s.pool.producers[0]? with
  | some Pool.Producer.idle =>
    (Pool.step s.pool (.call 0 (task fn))).map fun pool => { s with pool := pool }
  | _ =>
    (Pool.step s.pool (.producer 0 woken)).map fun pool =>
      match pool.producers[0]? with
      | some Pool.Producer.idle =>
        { s with pool := pool, main := { s.main with phase := fn.next } }
      | _ => { s with pool := pool }

/-- The next step of the main thread. -/
def Bench.testPthreadPool (objectNum : ℕ) (s : Bench) (addr : ℕ) (woken : Option ℕ) :
    Option Bench :=
  match s.pool.owner with
  | .creating _ => (Pool.step s.pool .create).map fun pool => { s with pool := pool }
  | .created =>
    match s.main.phase with
    | .add fn => s.threadPoolAdd fn woken
    | .head =>
      if s.main.i < objectNum then
        (s.main.testPthreadPool objectNum addr).map fun main => { s with main := main }
      else (Pool.step s.pool (.destroy woken)).map fun pool => { s with pool := pool }
    | _ => (s.main.testPthreadPool objectNum addr).map fun main => { s with main := main }
  | _ => (Pool.step s.pool (.destroy woken)).map fun pool => { s with pool := pool }

/-- The next step of worker `i` of the pool. -/
def Bench.worker (H : CrushHash) (glob : Globals) (s : Bench) (i : ℕ) (woken : Option ℕ) :
    Option Bench :=
  match s.pool.workers[i]?, s.call i with
  | some (.running task), some w =>
    if w.pc.isDone then
      (Pool.step s.pool (.worker i woken)).map fun pool =>
        { s with pool := pool, call := Function.update s.call i none }
    else
      match function task with
      | none => none
      | some fn =>
        (fn.run H glob s.main.firstn s.main.sh w).map fun r =>
          { s with main := { s.main with sh := r.1 }, call := Function.update s.call i (some r.2) }
  -- Behind `busyNum++` the function is called.
  | some (.holds _), _ =>
    (Pool.step s.pool (.worker i woken)).map fun pool =>
      { s with pool := pool, call := Function.update s.call i (some (Worker.init s.main.firstn)) }
  | some (.running _), none => none
  | _, _ =>
    (Pool.step s.pool (.worker i woken)).map fun pool =>
      { s with pool := pool, taskNo := Function.update s.taskNo i s.pool.taken.length }

/-- Who takes the next step.  `addr` is what `new` returns to the main thread. -/
inductive BenchAction where
  | main (addr : ℕ) (woken : Option ℕ)
  | worker (i : ℕ) (woken : Option ℕ)
  | manager (woken : Option ℕ)
  deriving DecidableEq

/-- A step of the experiment. -/
def benchStep (H : CrushHash) (glob : Globals) (objectNum : ℕ) (s : Bench) :
    BenchAction → Option Bench
  | .main addr woken => s.testPthreadPool objectNum addr woken
  | .worker i woken => s.worker H glob i woken
  | .manager woken => (Pool.step s.pool (.manager woken)).map fun pool => { s with pool := pool }

/-! ### What a step can do -/

variable {H : CrushHash} {glob : Globals} {objectNum : ℕ} {s s' : Bench} {a : BenchAction}

/-- The outcomes of a step. -/
inductive BenchStep (H : CrushHash) (glob : Globals) (objectNum : ℕ) (s : Bench) :
    Bench → Prop where
  /-- A thread of the pool, or the main thread that creates or destroys it. -/
  | pool {pa : Pool.Action} {pool : Pool.State}
      (hwho : pa = .create ∨ (∃ woken, pa = .manager woken) ∨
        (∃ woken, pa = .destroy woken) ∧
          (s.pool.owner = .created → s.main.phase = .head ∧ objectNum ≤ s.main.i))
      (hstep : Pool.step s.pool pa = some pool) :
      BenchStep H glob objectNum s { s with pool := pool }
  | sets {addr : ℕ} {main : Pooled} (howner : s.pool.owner = .created)
      (hphase : ∀ fn, s.main.phase ≠ .add fn)
      (hstep : s.main.testPthreadPool objectNum addr = some main) :
      BenchStep H glob objectNum s { s with main := main }
  | calls {fn : DoWork} {pool : Pool.State} (hphase : s.main.phase = .add fn)
      (hidle : s.pool.producers[0]? = some .idle)
      (hstep : Pool.step s.pool (.call 0 (task fn)) = some pool) :
      BenchStep H glob objectNum s { s with pool := pool }
  | addWaits {fn : DoWork} {woken : Option ℕ} {pool : Pool.State}
      (howner : s.pool.owner = .created) (hphase : s.main.phase = .add fn)
      (hstep : Pool.step s.pool (.producer 0 woken) = some pool)
      (hwaits : pool.producers[0]? ≠ some .idle) :
      BenchStep H glob objectNum s { s with pool := pool }
  | adds {fn : DoWork} {woken : Option ℕ} {pool : Pool.State}
      (howner : s.pool.owner = .created) (hphase : s.main.phase = .add fn)
      (hstep : Pool.step s.pool (.producer 0 woken) = some pool)
      (hidle : pool.producers[0]? = some .idle) :
      BenchStep H glob objectNum s
        { s with pool := pool, main := { s.main with phase := fn.next } }
  | queue {i : ℕ} {woken : Option ℕ} {pool : Pool.State} (hhand : s.pool.hand i = none)
      (hstep : Pool.step s.pool (.worker i woken) = some pool) :
      BenchStep H glob objectNum s
        { s with pool := pool, taskNo := Function.update s.taskNo i s.pool.taken.length }
  | starts {i : ℕ} {task : Pool.Task} {woken : Option ℕ} {pool : Pool.State}
      (hholds : s.pool.workers[i]? = some (.holds task))
      (hstep : Pool.step s.pool (.worker i woken) = some pool) :
      BenchStep H glob objectNum s
        { s with pool := pool, call := Function.update s.call i (some (Worker.init s.main.firstn)) }
  | works {i : ℕ} {task : Pool.Task} {fn : DoWork} {w w' : Worker} {sh : Shared}
      (hruns : s.pool.workers[i]? = some (.running task)) (hcall : s.call i = some w)
      (hfunction : function task = some fn)
      (hstep : fn.run H glob s.main.firstn s.main.sh w = some (sh, w')) :
      BenchStep H glob objectNum s
        { s with main := { s.main with sh := sh }, call := Function.update s.call i (some w') }
  | ends {i : ℕ} {task : Pool.Task} {w : Worker} {woken : Option ℕ} {pool : Pool.State}
      (hruns : s.pool.workers[i]? = some (.running task)) (hcall : s.call i = some w)
      (hdone : w.pc.isDone = true) (hstep : Pool.step s.pool (.worker i woken) = some pool) :
      BenchStep H glob objectNum s { s with pool := pool, call := Function.update s.call i none }

/-- What a step of `threadPoolAdd` can do. -/
theorem threadPoolAdd_step {fn : DoWork} {woken : Option ℕ} (howner : s.pool.owner = .created)
    (hphase : s.main.phase = .add fn) (h : s.threadPoolAdd fn woken = some s') :
    BenchStep H glob objectNum s s' := by
  unfold Bench.threadPoolAdd at h
  split at h
  · rename_i hidle
    obtain ⟨pool, hstep, rfl⟩ := Option.map_eq_some_iff.mp h
    exact .calls hphase hidle hstep
  · obtain ⟨pool, hstep, rfl⟩ := Option.map_eq_some_iff.mp h
    split
    · rename_i hidle
      exact .adds howner hphase hstep hidle
    · rename_i hwaits
      exact .addWaits howner hphase hstep hwaits

/-- What a step of the main thread can do. -/
theorem testPthreadPool_step {addr : ℕ} {woken : Option ℕ}
    (h : s.testPthreadPool objectNum addr woken = some s') : BenchStep H glob objectNum s s' := by
  unfold Bench.testPthreadPool at h
  split at h
  · obtain ⟨pool, hstep, rfl⟩ := Option.map_eq_some_iff.mp h
    exact .pool (.inl rfl) hstep
  · rename_i howner
    split at h
    · rename_i fn hphase
      exact threadPoolAdd_step howner hphase h
    · rename_i hphase
      split at h
      · obtain ⟨main, hstep, rfl⟩ := Option.map_eq_some_iff.mp h
        exact .sets howner (by simp [hphase]) hstep
      · rename_i hlast
        obtain ⟨pool, hstep, rfl⟩ := Option.map_eq_some_iff.mp h
        exact .pool (.inr (.inr ⟨⟨woken, rfl⟩, fun _ => ⟨hphase, not_lt.mp hlast⟩⟩)) hstep
    · rename_i hphase _
      obtain ⟨main, hstep, rfl⟩ := Option.map_eq_some_iff.mp h
      exact .sets howner hphase hstep
  · rename_i hcreated
    obtain ⟨pool, hstep, rfl⟩ := Option.map_eq_some_iff.mp h
    exact .pool (.inr (.inr ⟨⟨woken, rfl⟩, fun howner => absurd howner hcreated⟩)) hstep

/-- What a step of a worker can do: in the pool, or in the function that it executes. -/
theorem worker_step {i : ℕ} {woken : Option ℕ} (h : s.worker H glob i woken = some s') :
    BenchStep H glob objectNum s s' := by
  unfold Bench.worker at h
  split at h
  · rename_i task w hruns hcall
    split at h
    · rename_i hdone
      obtain ⟨pool, hstep, rfl⟩ := Option.map_eq_some_iff.mp h
      exact .ends hruns hcall hdone hstep
    · split at h
      · cases h
      · rename_i fn hfunction
        obtain ⟨⟨sh, w'⟩, hstep, rfl⟩ := Option.map_eq_some_iff.mp h
        exact .works hruns hcall hfunction hstep
  · rename_i task _ hholds
    obtain ⟨pool, hstep, rfl⟩ := Option.map_eq_some_iff.mp h
    exact .starts hholds hstep
  · cases h
  · rename_i hholds hruns hidle
    obtain ⟨pool, hstep, rfl⟩ := Option.map_eq_some_iff.mp h
    -- What remains is a worker without a task in its hands.
    refine .queue ?_ hstep
    cases hpc : s.pool.workers[i]? with
    | none => rw [Pool.State.hand, hpc, Option.bind_none]
    | some worker =>
      rw [Pool.hand_eq hpc]
      cases worker with
      | holds task => exact absurd hpc (hholds task)
      | running task =>
        cases hcall : s.call i with
        | none => exact absurd hcall (hidle task hpc)
        | some w => exact absurd hcall (hruns task w hpc)
      | _ => rfl

/-- **All that one step can do.** -/
theorem benchStep_step (h : benchStep H glob objectNum s a = some s') :
    BenchStep H glob objectNum s s' := by
  cases a with
  | main addr woken => exact testPthreadPool_step h
  | worker i woken => exact worker_step h
  | manager woken =>
    obtain ⟨pool, hstep, rfl⟩ := Option.map_eq_some_iff.mp h
    exact .pool (.inr (.inl ⟨woken, rfl⟩)) hstep

end MyCeph.Experiment
