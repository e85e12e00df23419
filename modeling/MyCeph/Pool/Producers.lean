import MyCeph.Pool.Wakeup

namespace MyCeph.Pool

open Lib

/-!
# Producers and counters

* `producers_served` — every free place in the queue is matched by a producer that has been
  woken, as long as one sleeps: `notFull` loses no signal that matters;
* `busyNum_run` — the two getters: `busyNum` counts the workers inside a task, and does not
  exceed `liveNum`.
-/

variable {s s' : State} {a : Action} {tr : List (State × Action)}

/-! ### Producers -/

/-- The producer is blocked on `notFull`. -/
def Producer.asleep : Producer → Bool
  | .waiting _ => true
  | _ => false

/-- The producer has been woken from there. -/
def Producer.called : Producer → Bool
  | .signalled _ => true
  | _ => false

/-- While a producer sleeps, each free place has a producer on its way to it. -/
def Served (s : State) : Prop :=
  0 < s.producers.countP Producer.asleep →
    s.queueCapacity - s.queueSize ≤ s.producers.countP Producer.called

/-- A producer inside `threadPoolAdd` leaves: it was not asleep. -/
theorem Served.inside {j : ℕ} {task : Task}
    (hpc : s.producers[j]? = some (.atLock task) ∨ s.producers[j]? = some (.signalled task)) :
    (s.producers.set j .idle).countP Producer.asleep = s.producers.countP Producer.asleep ∧
      s.producers.countP Producer.called
        ≤ (s.producers.set j .idle).countP Producer.called + 1 := by
  rcases hpc with hpc | hpc
  · have hsame : (s.producers.set j .idle).countP Producer.called
        = s.producers.countP Producer.called := countP_set_eq hpc rfl
    exact ⟨countP_set_eq hpc rfl, by omega⟩
  · refine ⟨countP_set_eq hpc rfl, ?_⟩
    have hset := countP_set_add Producer.called .idle hpc
    simp only [Producer.called, if_true, Bool.false_eq_true, if_false] at hset
    omega

/-- The signal of a worker that takes a task wakes a producer, if one sleeps. -/
theorem Served.signal {producers : List Producer} (h : Served s)
    (hsignal : Signalled Producer.wake s.producers producers)
    (hasleep : 0 < producers.countP Producer.asleep) :
    s.queueCapacity - s.queueSize + 1 ≤ producers.countP Producer.called := by
  cases hsignal with
  -- A producer is asleep, so the signal cannot be lost.
  | lost hnone =>
    obtain ⟨p, hp, hpa⟩ := List.countP_pos_iff.mp hasleep
    have hwake := hnone p hp
    cases p with
    | waiting task => cases hwake
    | _ => cases hpa
  | @woken i p p' hp hw =>
    cases p with
    | waiting task =>
      cases hw
      have hset := countP_set_add Producer.called (.signalled task) hp
      have hold := countP_set_add Producer.asleep (.signalled task) hp
      simp only [Producer.called, Producer.asleep, if_true, Bool.false_eq_true,
        if_false] at hset hold
      have hserved := h (by omega)
      omega
    | _ => cases hw

/-- **Step lemma.** -/
theorem Served.step (h : Served s) (hopen : s.shutDown = false) (hs : PoolStep s a s') :
    Served s' := by
  cases hs with
  | @call j task howner hpc =>
    intro hasleep
    have hsleep : (s.producers.set j (.atLock task)).countP Producer.asleep
        = s.producers.countP Producer.asleep := countP_set_eq hpc rfl
    have hcalled : (s.producers.set j (.atLock task)).countP Producer.called
        = s.producers.countP Producer.called := countP_set_eq hpc rfl
    dsimp only at hasleep ⊢
    rw [hsleep] at hasleep
    rw [hcalled]
    exact h hasleep
  -- A producer falls asleep on a full queue only, where nothing is asked for.
  | addWaits hpc hfull hopen =>
    intro _
    show s.queueCapacity - s.queueSize ≤ _
    omega
  | addRefused hpc hshut => simp [hopen] at hshut
  | add hpc hroom hopen hsignal =>
    intro hasleep
    obtain ⟨hsame, hcalled⟩ := Served.inside hpc
    dsimp only at hasleep ⊢
    rw [hsame] at hasleep
    have hserved := h hasleep
    show s.queueCapacity - (s.queueSize + 1) ≤ _
    omega
  -- A worker that takes a task signals for the place it makes.
  | take henters hsome hopen hsignal =>
    intro hasleep
    have hserved := h.signal hsignal hasleep
    show s.queueCapacity - (s.queueSize - 1) ≤ _
    dsimp only
    omega
  | @grows liveNum woken m hroom =>
    obtain ⟨n, ids, -, heq⟩ := addThreads_eq liveNum s.slots 0 s
    rw [heq]
    exact h
  | _ => exact h

/-- **No producer is stranded.**  In every run of a created pool, before `shutDown` is set, while
    a producer is blocked on `notFull` the free places in the queue are at most as many as the
    producers that have been woken and not run yet. -/
theorem producers_served (pool : ThreadPool) (n : ℕ) (tr : List (State × Action)) (s : State)
    (hrun : Run step (State.start pool n) tr s) (hopen : s.shutDown = false)
    (hasleep : ∃ p ∈ s.producers, p.asleep = true) :
    s.queueCapacity - s.queueSize ≤ s.producers.countP Producer.called := by
  have hstart : Served (State.start pool n) := by
    intro hpos
    obtain ⟨p, hp, hpa⟩ := List.countP_pos_iff.mp hpos
    rw [List.eq_of_mem_replicate hp] at hpa
    cases hpa
  have hserved := hrun.invariant Served (fun s _ => s.shutDown = false) hstart
    (fun s a s' hI hG hs => hI.step hG (poolStep_of_step hs)) (run_open hrun hopen)
  exact hserved (List.countP_pos_iff.mpr hasleep)

/-- One worker, room for one task and three producers, two of which have to wait. -/
def crowdedPool : List Action :=
  [.create, .create, .call 0 ⟨1, 1⟩, .producer 0 none, .call 1 ⟨2, 2⟩, .producer 1 none,
    .call 2 ⟨3, 3⟩, .producer 2 none, .worker 0 (some 1)]

/-- Of two waiting producers one has been woken by the take. -/
theorem producers_served_crowdedPool : ∃ tr s,
    Run step (State.start (smallPool 1 1 1) 3) tr s ∧
      s.producers = [.idle, .signalled ⟨2, 2⟩, .waiting ⟨3, 3⟩] ∧
      s.queueCapacity - s.queueSize ≤ s.producers.countP Producer.called := by
  obtain ⟨⟨tr, s⟩, hfollow, hres⟩ := Option.map_eq_some_iff.mp
    (show (follow step crowdedPool [] (State.start (smallPool 1 1 1) 3)).map
      (fun r => (r.2.shutDown, r.2.producers))
        = some (false, [.idle, .signalled ⟨2, 2⟩, .waiting ⟨3, 3⟩]) by decide +kernel)
  obtain ⟨hopen, hproducers⟩ : s.shutDown = false ∧
      s.producers = [.idle, .signalled ⟨2, 2⟩, .waiting ⟨3, 3⟩] := by
    simpa using hres
  have hrun := Run.start.of_follow hfollow
  exact ⟨tr, s, hrun, hproducers, producers_served _ 3 tr s hrun hopen
    ⟨.waiting ⟨3, 3⟩, by rw [hproducers]; decide, rfl⟩⟩

/-! ### The getters -/

/-- `threadPoolBusyNum`. -/
def threadPoolBusyNum (s : State) : ℤ := s.busyNum

/-- `threadPoolAliveNum`. -/
def threadPoolAliveNum (s : State) : ℤ := s.liveNum

/-- The worker has raised `busyNum` and not lowered it yet. -/
def Worker.busy : Worker → Bool
  | .running _ => true
  | _ => false

theorem Worker.wake_busy (w w' : Worker) (h : w.wake = some w') : w'.busy = w.busy := by
  obtain ⟨rfl, rfl⟩ := Worker.wake_eq_some h
  rfl

/-- A thread that enters its loop is not inside a task. -/
theorem Enters.not_busy {i : ℕ} {e : ℤ} (h : Enters s i e) :
    ∃ w, s.workers[i]? = some w ∧ w.busy = false := by
  cases h with
  | locks hpc => exact ⟨_, hpc, rfl⟩
  | notAsked hpc _ => exact ⟨_, hpc, rfl⟩
  | stays hpc _ _ => exact ⟨_, hpc, rfl⟩

/-- `busyNum` counts the workers inside a task. -/
def Counted (s : State) : Prop := s.busyNum = s.workers.countP Worker.busy

/-- A worker that is not inside a task before and after its step. -/
theorem Counted.move (h : Counted s) {i : ℕ} {w w' : Worker} (hpc : s.workers[i]? = some w)
    (hbusy : w'.busy = w.busy) : s.busyNum = (s.workers.set i w').countP Worker.busy := by
  rw [countP_set_eq hpc hbusy]
  exact h

theorem Counted.signal (h : Counted s) {workers : List Worker}
    (hsignal : Signalled Worker.wake s.workers workers) :
    s.busyNum = workers.countP Worker.busy := by
  rw [hsignal.countP_eq Worker.busy Worker.wake_busy]
  exact h

/-- **Step lemma.** -/
theorem Counted.step (h : Counted s) (hs : PoolStep s a s') : Counted s' := by
  -- `busyNum` moves with `starts` and `ends`; elsewhere no worker becomes busy or idle.
  cases hs with
  | create howner hlt =>
    show s.busyNum = ((s.workers ++ [Worker.atLock]).countP Worker.busy : ℕ)
    rw [List.countP_append]
    exact h
  | add hpc hroom hopen hsignal => exact h.signal hsignal
  | takeWaits henters hempty hopen =>
    obtain ⟨w, hpc, hw⟩ := henters.not_busy
    exact h.move hpc hw.symm
  | takeQuits henters hshut =>
    obtain ⟨w, hpc, hw⟩ := henters.not_busy
    exact h.move hpc hw.symm
  | take henters hsome hopen hsignal =>
    obtain ⟨w, hpc, hw⟩ := henters.not_busy
    exact h.move hpc hw.symm
  | leave hpc hexit hlive => exact h.move hpc rfl
  | @starts i task woken hpc =>
    have hset := countP_set_add Worker.busy (.running task) hpc
    simp only [Worker.busy, if_true, Bool.false_eq_true, if_false] at hset
    have hold : s.busyNum = s.workers.countP Worker.busy := h
    show s.busyNum + 1 = ((s.workers.set i (.running task)).countP Worker.busy : ℕ)
    omega
  | @ends i task woken hpc =>
    have hset := countP_set_add Worker.busy .atLock hpc
    simp only [Worker.busy, if_true, Bool.false_eq_true, if_false] at hset
    have hold : s.busyNum = s.workers.countP Worker.busy := h
    show s.busyNum - 1 = ((s.workers.set i .atLock).countP Worker.busy : ℕ)
    omega
  | threadExit hpc => exact h.move hpc rfl
  | @grows liveNum woken m hroom =>
    obtain ⟨n, ids, -, heq⟩ := addThreads_eq liveNum s.slots 0 s
    rw [heq]
    show s.busyNum = ((s.workers ++ List.replicate n Worker.atLock).countP Worker.busy : ℕ)
    rw [List.countP_append, List.countP_replicate]
    exact h
  | managerSignals m hsignal => exact h.signal hsignal
  | destroySignals o howner ho hsignal => exact h.signal hsignal
  | _ => exact h

/-- A worker inside a task is live. -/
theorem countP_busy_le (ws : List Worker) : ws.countP Worker.busy ≤ ws.countP Worker.live := by
  apply List.countP_mono_left
  intro w _ hw
  cases w with
  | running task => rfl
  | _ => cases hw

/-- **The getters.**  In every run of a created pool with an empty queue, before `shutDown` is set,
    `threadPoolBusyNum` returns the number of workers inside a task, which is at most what
    `threadPoolAliveNum` returns. -/
theorem busyNum_run (ok : Resources) (mem pool : ThreadPool) (min max queueSize : ℤ) (n : ℕ)
    (tr : List (State × Action)) (s : State)
    (hcreate : threadPoolCreate ok mem min max queueSize = some pool) (hmin : 1 ≤ min)
    (hempty : pool.queueSize = 0) (hrun : Run step (State.start pool n) tr s)
    (hopen : s.shutDown = false) :
    threadPoolBusyNum s = s.workers.countP Worker.busy ∧
      threadPoolBusyNum s ≤ threadPoolAliveNum s := by
  have hstart : Counted (State.start pool n) := by
    rw [threadPoolCreate_some hcreate]
    rfl
  have hcounted : Counted s :=
    hrun.invariant' Counted hstart fun s a s' hI hs => hI.step (poolStep_of_step hs)
  have hacc : Accounted s :=
    hrun.invariant Accounted (fun s _ => s.shutDown = false) (Accounted.start n hcreate hmin hempty)
      (fun s a s' hI hG hs => hI.step hG (poolStep_of_step hs)) (run_open hrun hopen)
  have hle := countP_busy_le s.workers
  have hlive := hacc.live_eq
  have hbusy : s.busyNum = s.workers.countP Worker.busy := hcounted
  refine ⟨hbusy, ?_⟩
  show s.busyNum ≤ s.liveNum
  omega

/-- One worker inside a task. -/
theorem busyNum_run_oneTask : ∃ tr s, Run step (State.start (smallPool 1 2 2) 1) tr s ∧
    threadPoolBusyNum s = 1 ∧ threadPoolBusyNum s ≤ threadPoolAliveNum s := by
  obtain ⟨⟨tr, s⟩, hfollow, hres⟩ := Option.map_eq_some_iff.mp
    (show (follow step [.create, .create, .call 0 ⟨1, 1⟩, .producer 0 none, .worker 0 none,
        .worker 0 none] [] (State.start (smallPool 1 2 2) 1)).map
      (fun r => (r.2.shutDown, r.2.workers)) = some (false, [.running ⟨1, 1⟩]) by decide +kernel)
  obtain ⟨hopen, hworkers⟩ : s.shutDown = false ∧ s.workers = [.running ⟨1, 1⟩] := by
    simpa using hres
  have hrun := Run.start.of_follow hfollow
  obtain ⟨hbusy, hle⟩ := busyNum_run ⟨true, true, true⟩ (smallPool 0 0 0) (smallPool 1 2 2) 1 2 2 1
    tr s (threadPoolCreate_smallPool 1 2 2) (by decide) rfl hrun hopen
  rw [hworkers] at hbusy
  exact ⟨tr, s, hrun, hbusy, hle⟩

end MyCeph.Pool
