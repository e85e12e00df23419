import MyCeph.Pool.Queue

namespace MyCeph.Pool

open Lib

/-!
# The queue of a new pool

`threadPoolCreate` assigns `queueRear` twice and `queueSize` not at all, so that the new queue
is as long as the memory from `malloc` happens to say.  It is an exact queue if that is 0.  If
it is not, the first worker takes a task that nobody has added (`create_exact_iff`).
-/

/-- The counters are those of a ring buffer that holds the tasks added and not yet taken, and
    only tasks that were added are taken. -/
structure ExactQueue (s : State) : Prop where
  ring : s.RingOk
  history : s.taken ++ s.pending = s.added
  taken : ∀ task ∈ s.taken, task ∈ s.added

variable {ok : Resources} {mem pool : ThreadPool} {min max queueSize : ℤ}

/-- Over memory with a 0 for `queueSize`, the queue is exact in every run. -/
theorem exactQueue_run (hcreate : threadPoolCreate ok mem min max queueSize = some pool)
    (hcap : 1 ≤ queueSize) (hmem : mem.queueSize = 0) {n : ℕ} {tr : List (State × Action)}
    {s : State} (hrun : Run step (State.start pool n) tr s) : ExactQueue s := by
  obtain ⟨hsize, hfront, hrear, hcapacity⟩ : pool.queueSize = 0 ∧ pool.queueFront = 0 ∧
      pool.queueRear = 0 ∧ pool.queueCapacity = queueSize := by
    rw [threadPoolCreate_some hcreate]
    exact ⟨hmem, rfl, rfl, rfl⟩
  have hlo : 0 ≤ pool.queueFront := by omega
  have hhi : pool.queueFront < pool.queueCapacity := by omega
  obtain ⟨hring₀, hexact₀⟩ : (State.start pool n).RingOk ∧
      (State.start pool n).fifo.Exact pool.queueCapacity :=
    queue_start hsize hlo hhi (hrear.trans hfront.symm) rfl rfl
  obtain ⟨hring, hexact⟩ := queue_run hring₀ hexact₀ hrun
  have hhistory : s.taken ++ s.pending = s.added := hexact.history
  refine ⟨hring, hhistory, fun task htask => ?_⟩
  rw [← hhistory]
  exact List.mem_append_left _ htask

/-- Over other memory, the first worker takes a task when there is none. -/
theorem stray_task (hcreate : threadPoolCreate ok mem min max queueSize = some pool)
    (hmin : 1 ≤ min) (hmem : mem.queueSize ≠ 0) :
    ∃ tr s, Run step (State.start pool 0) tr s ∧ s.taken = [mem.taskQ 0] ∧ s.added = [] := by
  obtain ⟨hsize, hfront, hminNum, hshut⟩ : pool.queueSize = mem.queueSize ∧
      pool.front = mem.taskQ 0 ∧ pool.minNum = min ∧ pool.shutDown = false := by
    rw [threadPoolCreate_some hcreate]
    exact ⟨rfl, rfl, rfl, rfl⟩
  have hlt : ((0 : ℕ) : ℤ) < pool.minNum := by omega
  -- One worker is created, and finds a queue that seems to hold tasks.
  let s₁ : State := { (State.start pool 0).createWorker 0 with owner := .creating 1 }
  have hwait : ¬ (s₁.queueSize = 0 ∧ s₁.shutDown = false) := fun h => hmem (hsize ▸ h.1)
  have hopen : ¬ s₁.shutDown = true := by
    rw [show s₁.shutDown = false from hshut]
    decide
  have hcreated : step (State.start pool 0) .create = some s₁ := if_pos hlt
  have htaken : step s₁ (.worker 0 none) = some { s₁ with
      toThreadPool := s₁.drop
      workers := [.holds s₁.front]
      taken := [s₁.front] } := by
    show State.take s₁ 0 none = _
    unfold State.take
    rw [if_neg hwait, if_neg hopen]
    rfl
  refine ⟨_, _, (Run.start.step hcreated).step htaken, ?_, rfl⟩
  show [s₁.front] = _
  rw [← hfront]
  rfl

/-- **When a new pool runs what was submitted and nothing else**: if and only if the memory from
    `malloc` has a 0 for `queueSize`.  Otherwise some run takes a task that was not added. -/
theorem create_exact_iff (ok : Resources) (mem pool : ThreadPool) (min max queueSize : ℤ)
    (hcreate : threadPoolCreate ok mem min max queueSize = some pool) (hmin : 1 ≤ min)
    (hcap : 1 ≤ queueSize) :
    ((∀ n tr s, Run step (State.start pool n) tr s → ExactQueue s) ↔ mem.queueSize = 0) ∧
      ((∀ n tr s, Run step (State.start pool n) tr s → ∀ task ∈ s.taken, task ∈ s.added) ↔
        mem.queueSize = 0) := by
  have honly : (∀ n tr s, Run step (State.start pool n) tr s → ∀ task ∈ s.taken, task ∈ s.added) →
      mem.queueSize = 0 := by
    intro hall
    by_contra hmem
    obtain ⟨tr, s, hrun, htaken, hadded⟩ := stray_task hcreate hmin hmem
    have hmem' := hall 0 tr s hrun (mem.taskQ 0) (by rw [htaken]; exact List.mem_singleton_self _)
    rw [hadded] at hmem'
    cases hmem'
  refine ⟨⟨fun hall => honly fun n tr s hrun => (hall n tr s hrun).taken, fun hmem n tr s hrun =>
    exactQueue_run hcreate hcap hmem hrun⟩, ⟨honly, fun hmem n tr s hrun =>
    (exactQueue_run hcreate hcap hmem hrun).taken⟩⟩

/-- On zeroed memory the ring is exact after the first task. -/
theorem create_exact_iff_smallPool : ∃ tr s, Run step (State.start (smallPool 1 1 2) 1) tr s ∧
    s.added = [⟨1, 1⟩] ∧ ExactQueue s := by
  have hrun : Run step (State.start (smallPool 1 1 2) 1) _ _ :=
    Run.of_follow .start
      (show follow step [.create, .create, .call 0 ⟨1, 1⟩, .producer 0 none] [] _ = some (_, _)
        from rfl)
  have hexact := (create_exact_iff ⟨true, true, true⟩ (smallPool 0 0 0) (smallPool 1 1 2) 1 1 2
    (threadPoolCreate_smallPool 1 1 2) (by decide) (by decide)).1.mpr rfl _ _ _ hrun
  exact ⟨_, _, hrun, rfl, hexact⟩

/-- Memory in which `queueSize` is 1 and slot 0 of the queue holds two stale addresses. -/
def staleMemory : ThreadPool :=
  { smallPool 0 0 0 with taskQ := fun _ => ⟨57005, 48879⟩, queueSize := 1 }

/-- **A task nobody added.**  Over this memory the first worker takes the stale addresses. -/
theorem stale_task_taken : ∃ pool tr s,
    threadPoolCreate ⟨true, true, true⟩ staleMemory 1 1 2 = some pool ∧
      Run step (State.start pool 0) tr s ∧ s.taken = [⟨57005, 48879⟩] ∧ s.added = [] ∧
      ¬ ExactQueue s := by
  have hrun : Run step (State.start ⟨fun _ => ⟨57005, 48879⟩, 2, 1, 0, 0,
      fun i => if (i : ℤ) < 1 then 0 else 0, 1, 1, 0, 1, 0, false⟩ 0) _ _ :=
    Run.of_follow .start
      (show follow step [.create, .worker 0 none] [] _ = some (_, _) from rfl)
  refine ⟨_, _, _, rfl, hrun, rfl, rfl, fun hexact => ?_⟩
  have hadded := hexact.taken ⟨57005, 48879⟩ (List.mem_singleton_self _)
  cases hadded

end MyCeph.Pool
