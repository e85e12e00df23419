import MyCeph.Lib.Fifo
import MyCeph.Pool.Steps

namespace MyCeph.Pool

open Lib

/-!
# The task queue

The ring buffer of the pool stands for a bounded queue of tasks.  `RingOk` is its
representation invariant; `queue_step` shows that every step of the pool, whichever
thread takes it, keeps the invariant and is a step of the queue (`Fifo.Step`): an addition
by a producer, a removal by a worker, or nothing.  Hence `queue_exact`: in every run the
tasks taken and those pending are the tasks added, in their order.
-/

/-! ### The ring buffer -/

/-- The tasks in the queue, the next one first. -/
def ThreadPool.pending (p : ThreadPool) : List Task :=
  ringList p.taskQ p.queueCapacity p.queueFront p.queueSize.toNat

/-- The slot of the pending task number `i`. -/
def ThreadPool.slot (p : ThreadPool) (i : ℕ) : ℤ := ringSlot p.queueCapacity p.queueFront i

/-- The counters describe a ring buffer. -/
structure ThreadPool.RingOk (p : ThreadPool) : Prop where
  front_nonneg : 0 ≤ p.queueFront
  front_lt : p.queueFront < p.queueCapacity
  size_nonneg : 0 ≤ p.queueSize
  size_le : p.queueSize ≤ p.queueCapacity
  rear_eq : p.queueRear = (p.queueFront + p.queueSize) % p.queueCapacity

variable {p : ThreadPool}

/-- As many tasks are pending as `queueSize` says. -/
theorem ThreadPool.pending_length (h : p.RingOk) : (p.pending.length : ℤ) = p.queueSize := by
  unfold ThreadPool.pending
  rw [ringList_length]
  exact Int.toNat_of_nonneg h.size_nonneg

/-- `queueRear` is the slot behind the last task. -/
theorem ThreadPool.RingOk.rear_slot (h : p.RingOk) : p.queueRear = p.slot p.queueSize.toNat := by
  show p.queueRear = (p.queueFront + p.queueSize.toNat) % p.queueCapacity
  rw [Int.toNat_of_nonneg h.size_nonneg]
  exact h.rear_eq

/-- Unless the queue is full, no task is pending in the slot of `queueRear`. -/
theorem ThreadPool.RingOk.rear_free (h : p.RingOk) (hroom : p.queueSize ≠ p.queueCapacity)
    {i : ℕ} (hi : i < p.queueSize.toNat) : p.slot i ≠ p.queueRear := by
  have hle := h.size_le
  rw [h.rear_slot]
  intro heq
  have := ringSlot_inj (by omega) (by omega) heq
  omega

/-- The `%` of C counts a slot on. -/
theorem tmod_next {k : ℤ} (hk : 0 ≤ k) (cap : ℤ) : (k + 1).tmod cap = (k + 1) % cap :=
  Int.tmod_eq_emod_of_nonneg (by omega)

/-- Storing a task behind the last one. -/
theorem ThreadPool.RingOk.store (h : p.RingOk) (hroom : p.queueSize ≠ p.queueCapacity)
    (task : Task) : (p.store task).RingOk ∧ (p.store task).pending = p.pending ++ [task] := by
  obtain ⟨hlo, hhi, hnn, hle, hr⟩ := id h
  -- On nonnegative numbers the `%` of C is the modulus.
  have hnonneg : 0 ≤ p.queueRear := by
    rw [hr]
    exact Int.emod_nonneg _ (by omega)
  constructor
  · refine ⟨hlo, hhi, ?_, ?_, ?_⟩
    · show 0 ≤ p.queueSize + 1
      omega
    · show p.queueSize + 1 ≤ p.queueCapacity
      omega
    · show (p.queueRear + 1).tmod p.queueCapacity
        = (p.queueFront + (p.queueSize + 1)) % p.queueCapacity
      rw [tmod_next hnonneg, hr, Int.emod_add_emod, Int.add_assoc]
  · have hn : (p.queueSize + 1).toNat = p.queueSize.toNat + 1 := by omega
    show ringList (ringStore p.taskQ p.queueRear task) p.queueCapacity p.queueFront
      (p.queueSize + 1).toNat = p.pending ++ [task]
    rw [hn, h.rear_slot]
    apply ringList_push
    omega

/-- Counting the first task off. -/
theorem ThreadPool.RingOk.drop (h : p.RingOk) (hsome : p.queueSize ≠ 0) :
    p.drop.RingOk ∧ p.pending = p.front :: p.drop.pending := by
  obtain ⟨hlo, hhi, hnn, hle, hr⟩ := id h
  have hfront : p.drop.queueFront = (p.queueFront + 1) % p.queueCapacity := tmod_next hlo _
  constructor
  · refine ⟨?_, ?_, ?_, ?_, ?_⟩
    · rw [hfront]
      exact Int.emod_nonneg _ (by omega)
    · rw [hfront]
      exact Int.emod_lt_of_pos _ (by omega)
    · show 0 ≤ p.queueSize - 1
      omega
    · show p.queueSize - 1 ≤ p.queueCapacity
      omega
    · rw [hfront]
      show p.queueRear = ((p.queueFront + 1) % p.queueCapacity + (p.queueSize - 1))
        % p.queueCapacity
      rw [hr, Int.emod_add_emod]
      congr 1
      omega
  · have hn : p.queueSize.toNat = (p.queueSize - 1).toNat + 1 := by omega
    unfold ThreadPool.pending
    rw [hn, hfront]
    exact ringList_pop _ _ hlo hhi

/-! ### Steps -/

/-- The queue that the pool stands for. -/
def State.fifo (s : State) : Fifo Task := ⟨s.added, s.pending, s.taken⟩

variable {s s' s₀ : State} {a : Action} {tr : List (State × Action)}

/-- The invariant only looks at the queue. -/
theorem ThreadPool.RingOk.exitNum (h : p.RingOk) (e : ℤ) : { p with exitNum := e }.RingOk :=
  ⟨h.1, h.2, h.3, h.4, h.5⟩

/-- **Step lemma of the queue.** -/
theorem queue_step (h : s.RingOk) (hs : PoolStep s a s') :
    s'.RingOk ∧ s'.queueCapacity = s.queueCapacity ∧
      Fifo.Step s.queueCapacity s.fifo s'.fifo := by
  -- Only `add` and `take` touch the ring.
  cases hs with
  | @add j task woken workers hpc hroom hopen hsignal =>
    obtain ⟨hring, hpending⟩ := h.store hroom task
    have hlen := ThreadPool.pending_length h
    have hle := h.size_le
    refine ⟨hring, rfl, ?_⟩
    unfold State.fifo
    rw [hpending]
    exact .add task (by show (s.pending.length : ℤ) < s.queueCapacity; omega)
  | @take i e woken producers henters hsome hopen hsignal =>
    obtain ⟨hring, hpending⟩ := h.drop hsome
    exact ⟨hring.exitNum e, rfl, .take s.front _ hpending⟩
  | @grows liveNum woken m hlive =>
    obtain ⟨n, ids, -, heq⟩ := addThreads_eq liveNum s.slots 0 s
    rw [heq]
    exact ⟨⟨h.1, h.2, h.3, h.4, h.5⟩, rfl, .idle⟩
  | _ => exact ⟨⟨h.1, h.2, h.3, h.4, h.5⟩, rfl, .idle⟩

/-- No step writes to a slot in which a task is pending. -/
theorem slot_kept (h : s.RingOk) (hs : PoolStep s a s') {i : ℕ} (hi : i < s.queueSize.toNat) :
    s'.taskQ (s.slot i) = s.taskQ (s.slot i) := by
  cases hs with
  | add hpc hroom hopen hsignal => exact if_neg (h.rear_free hroom hi)
  | @grows liveNum woken m hlive =>
    obtain ⟨n, ids, -, heq⟩ := addThreads_eq liveNum s.slots 0 s
    rw [heq]
  | _ => rfl

/-! ### Runs -/

/-- The counters and the history of the queue in every run. -/
theorem queue_run (hring : s₀.RingOk) (hexact : s₀.fifo.Exact s₀.queueCapacity)
    (hrun : Run step s₀ tr s) : s.RingOk ∧ s.fifo.Exact s.queueCapacity := by
  refine hrun.invariant' (fun s => s.RingOk ∧ s.fifo.Exact s.queueCapacity) ⟨hring, hexact⟩ ?_
  rintro s a s' ⟨hring, hexact⟩ hs
  obtain ⟨hring', hcap, hfifo⟩ := queue_step hring (poolStep_of_step hs)
  rw [hcap]
  exact ⟨hring', hexact.step hfifo⟩

/-- An empty queue, before any addition. -/
theorem queue_start (hempty : s₀.queueSize = 0) (hlo : 0 ≤ s₀.queueFront)
    (hhi : s₀.queueFront < s₀.queueCapacity) (hrear : s₀.queueRear = s₀.queueFront)
    (hadded : s₀.added = []) (htaken : s₀.taken = []) :
    s₀.RingOk ∧ s₀.fifo.Exact s₀.queueCapacity := by
  have hpending : s₀.pending = [] := by
    unfold ThreadPool.pending
    rw [hempty]
    rfl
  constructor
  · refine ⟨hlo, hhi, by omega, by omega, ?_⟩
    rw [hempty, Int.add_zero, hrear]
    exact (Int.emod_eq_of_lt hlo hhi).symm
  · constructor
    · show (s₀.pending.length : ℤ) ≤ s₀.queueCapacity
      rw [hpending]
      show (0 : ℤ) ≤ s₀.queueCapacity
      omega
    · show s₀.taken ++ s₀.pending = s₀.added
      rw [htaken, hpending, hadded]
      rfl

/-- **The task queue is an exact FIFO.**  In every run from a pool with an empty queue, the
    counters stay in range, no step writes to the slot of a pending task, and the tasks taken
    followed by the pending ones are the tasks added. -/
theorem queue_exact (s₀ s : State) (tr : List (State × Action)) (hempty : s₀.queueSize = 0)
    (hlo : 0 ≤ s₀.queueFront) (hhi : s₀.queueFront < s₀.queueCapacity)
    (hrear : s₀.queueRear = s₀.queueFront) (hadded : s₀.added = []) (htaken : s₀.taken = [])
    (hrun : Run step s₀ tr s) :
    0 ≤ s.queueSize ∧ s.queueSize ≤ s.queueCapacity ∧
      s.queueRear = (s.queueFront + s.queueSize) % s.queueCapacity ∧
      s.taken ++ s.pending = s.added ∧
      (s.queueSize ≠ s.queueCapacity → ∀ i < s.queueSize.toNat, s.slot i ≠ s.queueRear) ∧
      ∀ a s', step s a = some s' →
        ∀ i < s.queueSize.toNat, s'.taskQ (s.slot i) = s.taskQ (s.slot i) := by
  obtain ⟨hring₀, hexact₀⟩ := queue_start hempty hlo hhi hrear hadded htaken
  obtain ⟨hring, hexact⟩ := queue_run hring₀ hexact₀ hrun
  refine ⟨hring.size_nonneg, hring.size_le, hring.rear_eq, hexact.history, ?_, ?_⟩
  · intro hroom i hi
    exact hring.rear_free hroom hi
  · intro a s' hs i hi
    exact slot_kept hring (poolStep_of_step hs) hi

/-- One worker, two producers and room for two tasks.  The second producer has to wait, and its
    task goes to the slot of the first one. -/
def wrapAround : List Action :=
  [.create, .create, .call 0 ⟨1, 1⟩, .producer 0 none, .call 0 ⟨2, 2⟩, .producer 0 none,
    .call 1 ⟨3, 3⟩, .producer 1 none, .worker 0 (some 1), .producer 1 none, .worker 0 none,
    .worker 0 none, .worker 0 none]

/-- Three tasks through a ring of two. -/
theorem queue_exact_wrapAround : ∃ tr s,
    Run step (State.start (smallPool 1 1 2) 2) tr s ∧ s.added = [⟨1, 1⟩, ⟨2, 2⟩, ⟨3, 3⟩] ∧
      s.taken = [⟨1, 1⟩, ⟨2, 2⟩] ∧ s.queueFront = 0 ∧ s.queueRear = 1 ∧
      s.taken ++ s.pending = s.added := by
  obtain ⟨⟨tr, s⟩, hfollow, hres⟩ := Option.map_eq_some_iff.mp
    (show (follow step wrapAround [] (State.start (smallPool 1 1 2) 2)).map
      (fun r => (r.2.added, r.2.taken, r.2.queueFront, r.2.queueRear))
        = some ([⟨1, 1⟩, ⟨2, 2⟩, ⟨3, 3⟩], [⟨1, 1⟩, ⟨2, 2⟩], 0, 1) by decide +kernel)
  obtain ⟨hadded, htaken, hfront, hrear⟩ : s.added = [⟨1, 1⟩, ⟨2, 2⟩, ⟨3, 3⟩] ∧
      s.taken = [⟨1, 1⟩, ⟨2, 2⟩] ∧ s.queueFront = 0 ∧ s.queueRear = 1 := by
    simpa using hres
  have hrun := Run.start.of_follow hfollow
  obtain ⟨-, -, -, hhistory, -⟩ :=
    queue_exact (State.start (smallPool 1 1 2) 2) s tr rfl (by decide) (by decide) rfl rfl rfl hrun
  exact ⟨tr, s, hrun, hadded, htaken, hfront, hrear, hhistory⟩

end MyCeph.Pool
