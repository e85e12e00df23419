import Mathlib.Data.Int.Notation
import Mathlib.Data.Nat.Notation
import MyCeph.Lib.CondVar
import MyCeph.Lib.Ring
import MyCeph.Lib.System

namespace MyCeph.Pool

open Lib

/-!
# The thread pool

The pool of `threadpool.c` with its threads: the workers, the producers that call
`threadPoolAdd`, the manager, and the thread that creates and destroys the pool.  Each
critical section, up to the wait or the unlock that ends it, is one step with the signal
it sends; what is done without the lock (the manager's signals, the slot cleared in
`threadExit`, `threadPoolDestroy`) is a step of its own.  Steps interleave freely (`step`).

`pthread_create` is taken to succeed: it stores the new thread's id, which is its number
in the list of workers plus one, so that 0 stays the mark of a free slot.  A signal wakes
at most one waiter, and nothing else wakes one.
-/

/-! ### State -/

/-- `struct Task`: the addresses of a function and of its argument. -/
structure Task where
  function : ℕ
  arg : ℕ
  deriving DecidableEq

/-- `struct ThreadPool`, without the mutexes, the condition variables and `managerID`. -/
structure ThreadPool where
  taskQ : ℤ → Task
  queueCapacity : ℤ
  queueSize : ℤ
  queueFront : ℤ
  queueRear : ℤ
  threadIDs : ℕ → ℕ
  minNum : ℤ
  maxNum : ℤ
  busyNum : ℤ
  liveNum : ℤ
  exitNum : ℤ
  shutDown : Bool

/-- Where a worker stands. -/
inductive Worker where
  /-- At the head of its loop, before it takes `mutexPool`. -/
  | atLock
  /-- In `pthread_cond_wait` on `notEmpty`. -/
  | waiting
  /-- Woken from there, before it has `mutexPool` back. -/
  | signalled
  /-- Has taken a task, before `busyNum++`. -/
  | holds (task : Task)
  | running (task : Task)
  /-- In `threadExit`, before it clears its slot. -/
  | exiting
  | dead
  deriving DecidableEq

/-- Where a producer stands. -/
inductive Producer where
  | idle
  /-- In `threadPoolAdd`, before it takes `mutexPool`. -/
  | atLock (task : Task)
  /-- In `pthread_cond_wait` on `notFull`. -/
  | waiting (task : Task)
  | signalled (task : Task)
  deriving DecidableEq

/-- Where the manager stands, with its local variables. -/
inductive Manager where
  /-- At the test of `shutDown`. -/
  | top
  | sleeping
  /-- Before it reads `busyNum`. -/
  | sizes (queueSize liveNum : ℤ)
  /-- Before the part that adds threads. -/
  | adding (queueSize liveNum busyNum : ℤ)
  /-- Before the part that removes threads. -/
  | removing (liveNum busyNum : ℤ)
  /-- With `n` signals still to send. -/
  | signals (n : ℕ)
  | done
  deriving DecidableEq

/-- Where the thread that owns the pool stands. -/
inductive Owner where
  /-- In `threadPoolCreate`, before it creates worker `i`. -/
  | creating (i : ℕ)
  /-- Between `threadPoolCreate` and `threadPoolDestroy`. -/
  | created
  /-- In `pthread_join` for the manager. -/
  | joining
  /-- At the test of the loop of `threadPoolDestroy`. -/
  | signals (i : ℕ)
  /-- Before signal `i` of that loop. -/
  | signalling (i : ℕ)
  /-- Behind the calls of `free`. -/
  | freed
  deriving DecidableEq

/-- The pool and its threads, with the tasks added and the tasks taken so far. -/
structure State extends ThreadPool where
  workers : List Worker
  producers : List Producer
  manager : Manager
  owner : Owner
  added : List Task
  taken : List Task

/-! ### `threadPoolCreate` -/

/-- Which of the calls that `threadPoolCreate` checks succeed. -/
structure Resources where
  pool : Bool
  threadIDs : Bool
  /-- The two mutexes and the two condition variables. -/
  locks : Bool

/-- `threadPoolCreate` up to the creation of threads, over the memory `mem` that `malloc`
    returns.  The code assigns `queueRear` twice and `queueSize` not at all, and does not
    check the allocation of `taskQ`, which is taken to succeed. -/
def threadPoolCreate (ok : Resources) (mem : ThreadPool) (min max queueSize : ℤ) :
    Option ThreadPool :=
  if !ok.pool then none
  else if !ok.threadIDs then none
  else if !ok.locks then none
  else some { mem with
    threadIDs := fun i => if (i : ℤ) < max then 0 else mem.threadIDs i
    minNum := min
    maxNum := max
    busyNum := 0
    liveNum := min
    exitNum := 0
    queueCapacity := queueSize
    queueFront := 0
    queueRear := 0
    shutDown := false }

/-- What a creation that succeeds makes of the memory. -/
theorem threadPoolCreate_some {ok : Resources} {mem pool : ThreadPool} {min max queueSize : ℤ}
    (h : threadPoolCreate ok mem min max queueSize = some pool) :
    pool = { mem with
      threadIDs := fun i => if (i : ℤ) < max then 0 else mem.threadIDs i
      minNum := min
      maxNum := max
      busyNum := 0
      liveNum := min
      exitNum := 0
      queueCapacity := queueSize
      queueFront := 0
      queueRear := 0
      shutDown := false } := by
  unfold threadPoolCreate at h
  split at h
  · simp at h
  split at h
  · simp at h
  split at h
  · simp at h
  exact (Option.some.inj h).symm

/-- A pool created over zeroed memory. -/
def smallPool (min max queueSize : ℤ) : ThreadPool where
  taskQ := fun _ => ⟨0, 0⟩
  queueCapacity := queueSize
  queueSize := 0
  queueFront := 0
  queueRear := 0
  threadIDs := fun _ => 0
  minNum := min
  maxNum := max
  busyNum := 0
  liveNum := min
  exitNum := 0
  shutDown := false

/-- On zeroed memory with all resources the small pool is created. -/
theorem threadPoolCreate_smallPool (min max queueSize : ℤ) :
    threadPoolCreate ⟨true, true, true⟩ (smallPool 0 0 0) min max queueSize
      = some (smallPool min max queueSize) := by
  simp [threadPoolCreate, smallPool]

/-- The pool with `n` producers, when the manager has been created and the workers have not. -/
def State.start (pool : ThreadPool) (n : ℕ) : State where
  toThreadPool := pool
  workers := []
  producers := List.replicate n .idle
  manager := .top
  owner := .creating 0
  added := []
  taken := []

/-- `pthread_create(&pool->threadIDs[i], NULL, worker, pool)`. -/
def State.createWorker (s : State) (i : ℕ) : State :=
  { s with
    threadIDs := Function.update s.threadIDs i (s.workers.length + 1)
    workers := s.workers ++ [.atLock] }

/-! ### `threadPoolAdd` -/

/-- A signal on `notFull` reaches a producer. -/
def Producer.wake : Producer → Option Producer
  | .waiting task => some (.signalled task)
  | _ => none

/-- A signal on `notEmpty` reaches a worker. -/
def Worker.wake : Worker → Option Worker
  | .waiting => some .signalled
  | _ => none

/-- The task is stored at the rear of the queue. -/
def ThreadPool.store (p : ThreadPool) (task : Task) : ThreadPool :=
  { p with
    taskQ := ringStore p.taskQ p.queueRear task
    queueRear := (p.queueRear + 1).tmod p.queueCapacity
    queueSize := p.queueSize + 1 }

/-- Producer `j` has `mutexPool` and is at the test of its waiting loop. -/
def State.add (s : State) (j : ℕ) (task : Task) (woken : Option ℕ) : Option State :=
  if s.queueSize = s.queueCapacity ∧ s.shutDown = false then
    some { s with producers := s.producers.set j (.waiting task) }
  else if s.shutDown then
    some { s with producers := s.producers.set j .idle }
  else
    (signal Worker.wake s.workers woken).map fun workers => { s with
      toThreadPool := s.store task
      workers := workers
      producers := s.producers.set j .idle
      added := s.added ++ [task] }

/-- The next step of producer `j`. -/
def State.threadPoolAdd (s : State) (j : ℕ) (woken : Option ℕ) : Option State :=
  match s.producers[j]? with
  | some (.atLock task) | some (.signalled task) => s.add j task woken
  | _ => none

/-! ### `worker` -/

/-- The task at the front of the queue. -/
def ThreadPool.front (p : ThreadPool) : Task := p.taskQ p.queueFront

/-- The front of the queue moves on. -/
def ThreadPool.drop (p : ThreadPool) : ThreadPool :=
  { p with
    queueFront := (p.queueFront + 1).tmod p.queueCapacity
    queueSize := p.queueSize - 1 }

/-- Worker `i` has `mutexPool` and is at the test of its waiting loop. -/
def State.take (s : State) (i : ℕ) (woken : Option ℕ) : Option State :=
  if s.queueSize = 0 ∧ s.shutDown = false then
    some { s with workers := s.workers.set i .waiting }
  else if s.shutDown then
    some { s with workers := s.workers.set i .exiting }
  else
    (signal Producer.wake s.producers woken).map fun producers => { s with
      toThreadPool := s.drop
      workers := s.workers.set i (.holds s.front)
      producers := producers
      taken := s.taken ++ [s.front] }

/-- Worker `i` returns from `pthread_cond_wait`: it leaves if it is asked to and may, and goes
    on to the test of the waiting loop otherwise. -/
def State.wakeUp (s : State) (i : ℕ) (woken : Option ℕ) : Option State :=
  if s.exitNum > 0 then
    -- The queue is not looked at before the worker leaves.
    if s.liveNum > s.minNum then
      some { s with
        exitNum := s.exitNum - 1
        liveNum := s.liveNum - 1
        workers := s.workers.set i .exiting }
    else State.take { s with exitNum := s.exitNum - 1 } i woken
  else s.take i woken

/-- The slots of `threadIDs`. -/
def ThreadPool.slots (p : ThreadPool) : List ℕ := List.range p.maxNum.toNat

/-- The table behind `threadExit` in the thread with id `tid`: the first slot with this id is
    cleared. -/
def ThreadPool.clearSlot (p : ThreadPool) (tid : ℕ) : ℕ → ℕ :=
  match p.slots.find? fun i => p.threadIDs i == tid with
  | some i => Function.update p.threadIDs i 0
  | none => p.threadIDs

/-- The next step of worker `i`. -/
def State.worker (s : State) (i : ℕ) (woken : Option ℕ) : Option State :=
  match s.workers[i]? with
  | some .atLock => s.take i woken
  | some .signalled => s.wakeUp i woken
  | some (.holds task) =>
    some { s with busyNum := s.busyNum + 1, workers := s.workers.set i (.running task) }
  | some (.running _) =>
    some { s with busyNum := s.busyNum - 1, workers := s.workers.set i .atLock }
  | some .exiting =>
    -- `threadExit` goes through the table without a lock; no other thread writes this id.
    some { s with threadIDs := s.clearSlot (i + 1), workers := s.workers.set i .dead }
  | _ => none

/-! ### `manager` -/

def NUMBER : ℕ := 2

/-- The loop that adds threads: `counter` so far, the table slots still to visit, and the
    manager's own `liveNum`, which the loop does not change. -/
def State.addThreads (liveNum : ℤ) : List ℕ → ℕ → State → State
  | [], _, s => s
  | i :: slots, counter, s =>
    if counter < NUMBER ∧ liveNum < s.maxNum then
      if s.threadIDs i = 0 then
        addThreads liveNum slots (counter + 1)
          { s.createWorker i with liveNum := s.liveNum + 1 }
      else addThreads liveNum slots counter s
    else s

/-- The next step of the manager. -/
def State.manage (s : State) (woken : Option ℕ) : Option State :=
  match s.manager with
  | .top => some { s with manager := if s.shutDown then .done else .sleeping }
  -- From here on the manager works with copies of the counters, which go stale.
  | .sleeping => some { s with manager := .sizes s.queueSize s.liveNum }
  | .sizes queueSize liveNum => some { s with manager := .adding queueSize liveNum s.busyNum }
  | .adding queueSize liveNum busyNum =>
    if queueSize ≥ 1 ∧ liveNum < s.maxNum then
      some { State.addThreads liveNum s.slots 0 s with manager := .removing liveNum busyNum }
    else some { s with manager := .removing liveNum busyNum }
  | .removing liveNum busyNum =>
    if busyNum * 2 < liveNum ∧ liveNum > s.minNum then
      some { s with exitNum := NUMBER, manager := .signals NUMBER }
    else some { s with manager := .top }
  | .signals 0 => some { s with manager := .top }
  -- `mutexPool` is free again: the signals are steps of their own.
  | .signals (n + 1) =>
    (signal Worker.wake s.workers woken).map fun workers =>
      { s with workers := workers, manager := .signals n }
  | .done => none

/-! ### The thread that owns the pool -/

/-- The next step of `threadPoolCreate`. -/
def State.create (s : State) : Option State :=
  match s.owner with
  | .creating i =>
    if (i : ℤ) < s.minNum then some { s.createWorker i with owner := .creating (i + 1) }
    else some { s with owner := .created }
  | _ => none

/-- The next step of `threadPoolDestroy`, which starts with its call. -/
def State.threadPoolDestroy (s : State) (woken : Option ℕ) : Option State :=
  match s.owner with
  -- The flag is set without `mutexPool`.
  | .created => some { s with shutDown := true, owner := .joining }
  | .joining => if s.manager = .done then some { s with owner := .signals 0 } else none
  | .signals i =>
    if (i : ℤ) < s.liveNum then some { s with owner := .signalling i }
    else some { s with owner := .freed }
  | .signalling i =>
    (signal Worker.wake s.workers woken).map fun workers =>
      { s with workers := workers, owner := .signals (i + 1) }
  | _ => none

/-! ### Steps -/

/-- Who takes the next step.  `woken` is the thread that the step's signal wakes, if it sends
    one. -/
inductive Action where
  | create
  /-- Producer `j` calls `threadPoolAdd`. -/
  | call (j : ℕ) (task : Task)
  | producer (j : ℕ) (woken : Option ℕ)
  | worker (i : ℕ) (woken : Option ℕ)
  | manager (woken : Option ℕ)
  | destroy (woken : Option ℕ)
  deriving DecidableEq

/-- A step of the pool.  Nothing is said about threads that are left when the memory is freed. -/
def step (s : State) (a : Action) : Option State :=
  if s.owner = .freed then none
  else match a with
    | .create => s.create
    | .call j task =>
      -- The pool is passed to producers when `threadPoolCreate` returns it.
      match s.owner, s.producers[j]? with
      | .creating _, _ => none
      | _, some .idle => some { s with producers := s.producers.set j (.atLock task) }
      | _, _ => none
    | .producer j woken => s.threadPoolAdd j woken
    | .worker i woken => s.worker i woken
    | .manager woken => s.manage woken
    | .destroy woken => s.threadPoolDestroy woken

end MyCeph.Pool
