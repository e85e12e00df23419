import MyCeph.Pool.Steps

namespace MyCeph.Pool

open Lib

/-!
# Does the pool sleep on pending work?

A state is *attended* if, when tasks are pending, some live worker does not wait on
`notEmpty`.  `Accounted` says that `liveNum` counts the live workers, of which there are at
least `minNum`; so the signal of an addition always finds a worker or is not needed.

The same condition variable also carries the request to leave: a worker that an addition
has woken leaves when `exitNum` is positive and more than `minNum` workers are live, without
a look at the queue.  If it was the last one awake (`lastLeaves`), the task is pending and
everyone sleeps.  `attended_iff`: a run is attended throughout exactly if no step of it is of
this kind.
-/

/-! ### Live workers -/

/-- The worker counts in `liveNum`. -/
def Worker.live : Worker → Bool
  | .exiting | .dead => false
  | _ => true

/-- The worker is live and not blocked on `notEmpty`: it runs a task, has been signalled, or is
    on its way to look at the queue. -/
def Worker.awake : Worker → Bool
  | .waiting | .exiting | .dead => false
  | _ => true

/-- The workers that `threadPoolCreate` has counted and not created yet. -/
def State.toCreate (s : State) : ℕ :=
  match s.owner with
  | .creating i => (s.minNum - i).toNat
  | _ => 0

/-- `liveNum` counts the live workers, and no task is added before `threadPoolCreate` returns. -/
structure Accounted (s : State) : Prop where
  min_pos : 1 ≤ s.minNum
  min_le : s.minNum ≤ s.liveNum
  live_eq : s.liveNum = s.workers.countP Worker.live + s.toCreate
  early : ∀ i, s.owner = .creating i → s.queueSize = 0 ∧ ∀ p ∈ s.producers, p = .idle

variable {s s' : State} {a : Action} {tr : List (State × Action)}

/-- Behind `threadPoolCreate` no thread is missing. -/
theorem State.toCreate_eq_zero (h : ∀ i, s.owner ≠ .creating i) : s.toCreate = 0 := by
  unfold State.toCreate
  split
  · rename_i i howner
    exact absurd howner (h i)
  · rfl

/-- A signal wakes waiting workers only. -/
theorem Worker.wake_eq_some {w w' : Worker} (h : w.wake = some w') :
    w = .waiting ∧ w' = .signalled := by
  cases w <;> simp_all [Worker.wake]

theorem Worker.wake_live (w w' : Worker) (h : w.wake = some w') : w'.live = w.live := by
  obtain ⟨rfl, rfl⟩ := Worker.wake_eq_some h
  rfl

theorem Worker.wake_awake (w w' : Worker) (h : w.wake = some w') : w'.awake = true := by
  obtain ⟨rfl, rfl⟩ := Worker.wake_eq_some h
  rfl

/-- A live worker that no signal can reach is awake. -/
theorem Worker.awake_of_live (w : Worker) (hlive : w.live = true) (hwake : w.wake = none) :
    w.awake = true := by
  cases w <;> simp_all [Worker.live, Worker.wake, Worker.awake]

/-- A worker at the test of its waiting loop is live and awake. -/
theorem Enters.worker {i : ℕ} {e : ℤ} (h : Enters s i e) :
    ∃ w, s.workers[i]? = some w ∧ w.live = true ∧ w.awake = true := by
  cases h with
  | locks hpc => exact ⟨_, hpc, rfl, rfl⟩
  | notAsked hpc _ => exact ⟨_, hpc, rfl, rfl⟩
  | stays hpc _ _ => exact ⟨_, hpc, rfl, rfl⟩

/-! ### Accounting -/

/-- A producer inside `threadPoolAdd` shows that the pool has been created. -/
theorem Accounted.not_creating (h : Accounted s) {j : ℕ} {p : Producer}
    (hpc : s.producers[j]? = some p) (hp : p ≠ .idle) : ∀ i, s.owner ≠ .creating i := by
  intro i howner
  exact hp ((h.early i howner).2 p (List.mem_of_getElem? hpc))

/-- There are no producers before the pool has been created. -/
theorem Accounted.inside (h : Accounted s) {j : ℕ} {task : Task}
    (hpc : s.producers[j]? = some (.atLock task) ∨ s.producers[j]? = some (.signalled task)) :
    ∀ i, s.owner ≠ .creating i := by
  rcases hpc with hpc | hpc
  · exact h.not_creating hpc (by simp)
  · exact h.not_creating hpc (by simp)

/-- A pool that has been created has a live worker. -/
theorem Accounted.live_pos (h : Accounted s) (howner : ∀ i, s.owner ≠ .creating i) :
    0 < s.workers.countP Worker.live := by
  obtain ⟨hpos, hmin, hlive, -⟩ := h
  rw [State.toCreate_eq_zero howner] at hlive
  omega

/-- A worker that stays live changes nothing in the accounting. -/
theorem Accounted.move (h : Accounted s) {i : ℕ} {w w' : Worker} (hpc : s.workers[i]? = some w)
    (hlive : w'.live = w.live) :
    s.liveNum = (s.workers.set i w').countP Worker.live + s.toCreate := by
  rw [countP_set_eq hpc hlive]
  exact h.live_eq

/-- A signal wakes no one up for good, as far as `liveNum` goes. -/
theorem Accounted.signal (h : Accounted s) {workers : List Worker}
    (hsignal : Signalled Worker.wake s.workers workers) :
    s.liveNum = workers.countP Worker.live + s.toCreate := by
  rw [hsignal.countP_eq Worker.live Worker.wake_live]
  exact h.live_eq

/-- **Step lemma of the accounting.** -/
theorem Accounted.step (h : Accounted s) (hopen : s.shutDown = false) (hs : PoolStep s a s') :
    Accounted s' := by
  obtain ⟨hpos, hmin, hlive, hearly⟩ := id h
  -- A worker still to be created is counted in `liveNum` from the start, so creation moves nothing.
  cases hs with
  | @create i howner hlt =>
    refine ⟨hpos, hmin, ?_, fun k _ => hearly i howner⟩
    have hold : s.toCreate = (s.minNum - i).toNat := by simp only [State.toCreate, howner]
    have hnew : (s.workers ++ [Worker.atLock]).countP Worker.live
        = s.workers.countP Worker.live + 1 := by simp [Worker.live]
    show s.liveNum = (s.workers ++ [Worker.atLock]).countP Worker.live
      + (s.minNum - (i + 1 : ℕ)).toNat
    omega
  | @created i howner hge =>
    refine ⟨hpos, hmin, ?_, fun k hk => by cases hk⟩
    have hold : s.toCreate = (s.minNum - i).toNat := by simp only [State.toCreate, howner]
    show s.liveNum = s.workers.countP Worker.live + (0 : ℕ)
    omega
  | call howner hpc => exact ⟨hpos, hmin, hlive, fun i hi => absurd hi (howner i)⟩
  | addWaits hpc hfull hopen => exact ⟨hpos, hmin, hlive, fun i hi => absurd hi (h.inside hpc i)⟩
  | addRefused hpc hshut => exact ⟨hpos, hmin, hlive, fun i hi => absurd hi (h.inside hpc i)⟩
  | add hpc hroom hopen hsignal =>
    exact ⟨hpos, hmin, h.signal hsignal, fun i hi => absurd hi (h.inside hpc i)⟩
  | takeWaits henters hempty hopen =>
    obtain ⟨w, hpc, hw, -⟩ := henters.worker
    exact ⟨hpos, hmin, h.move hpc hw.symm, hearly⟩
  | takeQuits henters hshut => simp [hopen] at hshut
  | take henters hsome hopen hsignal =>
    obtain ⟨w, hpc, hw, -⟩ := henters.worker
    exact ⟨hpos, hmin, h.move hpc hw.symm, fun i hi => absurd (hearly i hi).1 hsome⟩
  -- A worker leaves only while more than `minNum` are alive.
  | @leave i woken hpc hexit hmore =>
    have hset := countP_set_add Worker.live .exiting hpc
    simp only [Worker.live, Bool.false_eq_true, if_false, if_true] at hset
    refine ⟨hpos, ?_, ?_, hearly⟩
    · show s.minNum ≤ s.liveNum - 1
      omega
    · show s.liveNum - 1 = (s.workers.set i .exiting).countP Worker.live + s.toCreate
      omega
  | starts hpc => exact ⟨hpos, hmin, h.move hpc rfl, hearly⟩
  | ends hpc => exact ⟨hpos, hmin, h.move hpc rfl, hearly⟩
  | threadExit hpc => exact ⟨hpos, hmin, h.move hpc rfl, hearly⟩
  | manages m => exact ⟨hpos, hmin, hlive, hearly⟩
  | @grows liveNum woken m hroom =>
    obtain ⟨n, ids, -, heq⟩ := addThreads_eq liveNum s.slots 0 s
    have hnew : (s.workers ++ List.replicate n Worker.atLock).countP Worker.live
        = s.workers.countP Worker.live + n := by
      simp [List.countP_replicate, Worker.live]
    rw [heq]
    refine ⟨hpos, ?_, ?_, hearly⟩
    · show s.minNum ≤ s.liveNum + n
      omega
    · show s.liveNum + n
        = (s.workers ++ List.replicate n Worker.atLock).countP Worker.live + s.toCreate
      omega
  | shrinks => exact ⟨hpos, hmin, hlive, hearly⟩
  | managerSignals m hsignal => exact ⟨hpos, hmin, h.signal hsignal, hearly⟩
  | shutDown howner =>
    have hzero := State.toCreate_eq_zero (s := s) (by simp [howner])
    rw [hzero] at hlive
    exact ⟨hpos, hmin, hlive, fun i hi => by cases hi⟩
  | destroys o howner ho =>
    rw [State.toCreate_eq_zero howner] at hlive
    refine ⟨hpos, hmin, ?_, fun i hi => absurd hi (ho i)⟩
    rw [State.toCreate_eq_zero ho]
    exact hlive
  | destroySignals o howner ho hsignal =>
    have hlive' := h.signal hsignal
    rw [State.toCreate_eq_zero howner] at hlive'
    refine ⟨hpos, hmin, ?_, fun i hi => absurd hi (ho i)⟩
    rw [State.toCreate_eq_zero ho]
    exact hlive'

/-- The pool that `threadPoolCreate` returns, if its queue is empty. -/
theorem Accounted.start {ok : Resources} {mem pool : ThreadPool} {min max queueSize : ℤ} (n : ℕ)
    (hcreate : threadPoolCreate ok mem min max queueSize = some pool) (hmin : 1 ≤ min)
    (hempty : pool.queueSize = 0) : Accounted (State.start pool n) := by
  obtain ⟨hminNum, hliveNum⟩ : pool.minNum = min ∧ pool.liveNum = min := by
    rw [threadPoolCreate_some hcreate]
    exact ⟨rfl, rfl⟩
  refine ⟨?_, ?_, ?_, fun i _ => ⟨hempty, ?_⟩⟩
  · show 1 ≤ pool.minNum
    omega
  · show pool.minNum ≤ pool.liveNum
    omega
  · show pool.liveNum = (0 : ℕ) + (pool.minNum - (0 : ℕ)).toNat
    omega
  · intro p hp
    exact List.eq_of_mem_replicate hp

/-! ### Attended states -/

/-- When tasks are pending, some live worker is not blocked on `notEmpty`. -/
def State.Attended (s : State) : Prop := 0 < s.queueSize → ∃ w ∈ s.workers, w.awake = true

/-- The step is that of a worker that leaves through `exitNum` although tasks are pending and
    no other worker is awake. -/
def State.lastLeaves (s : State) : Action → Bool
  | .worker i _ =>
    s.workers[i]? == some .signalled && decide (0 < s.exitNum) && decide (s.minNum < s.liveNum) &&
      decide (0 < s.queueSize) && s.workers.countP Worker.awake == 1
  | _ => false

/-- The pool is attended, in numbers. -/
theorem State.attended_iff :
    s.Attended ↔ (0 < s.queueSize → 0 < s.workers.countP Worker.awake) := by
  unfold State.Attended
  rw [List.countP_pos_iff]

/-- A worker moves on and stays awake. -/
theorem attended_set {i : ℕ} {w w' : Worker} (hpc : s.workers[i]? = some w)
    (hawake : w'.awake = true) : 0 < (s.workers.set i w').countP Worker.awake := by
  obtain ⟨hi, -⟩ := List.getElem?_eq_some_iff.mp hpc
  exact List.countP_pos_iff.mpr ⟨w', List.mem_set hi _, hawake⟩

/-- New workers are awake, and the others stay as they are. -/
theorem attended_append (n : ℕ) (h : 0 < s.workers.countP Worker.awake) :
    0 < (s.workers ++ List.replicate n Worker.atLock).countP Worker.awake := by
  rw [List.countP_append]
  omega

/-- **Step lemma.**  Every step but that of `lastLeaves` keeps the pool attended. -/
theorem State.Attended.step (h : s.Attended) (hI : Accounted s) (hopen : s.shutDown = false)
    (hs : PoolStep s a s') (hgood : s.lastLeaves a = false) : s'.Attended := by
  rw [State.attended_iff] at h ⊢
  intro hsize
  cases hs with
  | create howner hlt =>
    have hempty := (hI.early _ howner).1
    have hsize' : 0 < s.queueSize := hsize
    omega
  | add hpc hroom hopen hsignal =>
    -- Either the signal has woken a worker, or none waits and a live one is awake.
    exact hsignal.exists_awake Worker.live Worker.awake Worker.awake_of_live Worker.wake_awake
      (hI.live_pos (hI.inside hpc))
  | takeWaits henters hempty hopen =>
    have hsize' : 0 < s.queueSize := hsize
    omega
  | takeQuits henters hshut => simp [hopen] at hshut
  | take henters hsome hopen hsignal =>
    obtain ⟨w, hpc, -, -⟩ := henters.worker
    exact attended_set hpc rfl
  | @leave i woken hpc hexit hmore =>
    have hset := countP_set_add Worker.awake .exiting hpc
    simp only [Worker.awake, Bool.false_eq_true, if_false, if_true] at hset
    have hnot : s.workers.countP Worker.awake ≠ 1 := by
      have hsize' : 0 < s.queueSize := hsize
      simpa [State.lastLeaves, hpc, hexit, hmore, hsize'] using hgood
    show 0 < (s.workers.set i .exiting).countP Worker.awake
    omega
  | starts hpc => exact attended_set hpc rfl
  | ends hpc => exact attended_set hpc rfl
  | @threadExit i woken hpc =>
    have hsame : (s.workers.set i .dead).countP Worker.awake = s.workers.countP Worker.awake :=
      countP_set_eq hpc rfl
    show 0 < (s.workers.set i .dead).countP Worker.awake
    rw [hsame]
    exact h hsize
  | @grows liveNum woken m hroom =>
    obtain ⟨n, ids, -, heq⟩ := addThreads_eq liveNum s.slots 0 s
    rw [heq] at hsize ⊢
    exact attended_append n (h hsize)
  | managerSignals m hsignal =>
    have hle := hsignal.countP_le Worker.awake Worker.wake_awake
    exact Nat.lt_of_lt_of_le (h hsize) hle
  | destroySignals o howner ho hsignal =>
    have hle := hsignal.countP_le Worker.awake Worker.wake_awake
    exact Nat.lt_of_lt_of_le (h hsize) hle
  | _ => exact h hsize

/-- When the last worker awake leaves, the pool sleeps on its tasks. -/
theorem not_attended_of_lastLeaves (hs : PoolStep s a s') (hbad : s.lastLeaves a = true) :
    ¬ s'.Attended := by
  obtain ⟨i, woken, rfl⟩ : ∃ i woken, a = .worker i woken := by
    unfold State.lastLeaves at hbad
    split at hbad
    · exact ⟨_, _, rfl⟩
    · simp at hbad
  obtain ⟨⟨⟨⟨hpc, hexit⟩, hmore⟩, hsize⟩, hone⟩ : (((s.workers[i]? = some .signalled ∧
      0 < s.exitNum) ∧ s.minNum < s.liveNum) ∧ 0 < s.queueSize) ∧
      s.workers.countP Worker.awake = 1 := by
    simpa [State.lastLeaves] using hbad
  rw [State.attended_iff]
  cases hs with
  | leave hpc' hexit' hmore' =>
    have hset := countP_set_add Worker.awake .exiting hpc
    simp only [Worker.awake, Bool.false_eq_true, if_false, if_true] at hset
    intro hpos
    have hpos' : 0 < (s.workers.set i .exiting).countP Worker.awake := hpos hsize
    omega
  | takeWaits henters | takeQuits henters | take henters =>
    -- A worker that is asked to leave and may does not reach the test of its loop.
    cases henters <;> simp_all
  | starts hpc' | ends hpc' | threadExit hpc' =>
    rw [hpc] at hpc'
    cases hpc'

/-! ### Runs -/

/-- `shutDown` is never cleared. -/
theorem open_before (hs : PoolStep s a s') (h : s'.shutDown = false) : s.shutDown = false := by
  cases hs with
  | @grows liveNum woken m hroom =>
    obtain ⟨n, ids, -, heq⟩ := addThreads_eq liveNum s.slots 0 s
    rw [heq] at h
    exact h
  | shutDown howner => cases h
  | _ => exact h

/-- A run at whose end `shutDown` is not set has not seen it set. -/
theorem run_open {s₀ : State} (hrun : Run step s₀ tr s) (hopen : s.shutDown = false) :
    ∀ p ∈ tr, p.1.shutDown = false :=
  hrun.earlier (fun s => s.shutDown = false)
    (fun _ _ _ hs => open_before (poolStep_of_step hs)) hopen

/-- **Exactly when the pool sleeps on pending work.**  In a run of a created pool with an empty
    queue, before `shutDown` is set, every state is attended if and only if no step of the
    run is that of the last awake worker leaving pending tasks behind. -/
theorem attended_run_iff (ok : Resources) (mem pool : ThreadPool) (min max queueSize : ℤ) (n : ℕ)
    (tr : List (State × Action)) (s : State)
    (hcreate : threadPoolCreate ok mem min max queueSize = some pool) (hmin : 1 ≤ min)
    (hempty : pool.queueSize = 0) (hrun : Run step (State.start pool n) tr s)
    (hopen : s.shutDown = false) :
    ((∀ p ∈ tr, p.1.Attended) ∧ s.Attended) ↔ ∀ p ∈ tr, p.1.lastLeaves p.2 = false := by
  have hstart : (State.start pool n).Attended := by
    intro hsize
    have hsize' : 0 < pool.queueSize := hsize
    omega
  -- A step breaks it exactly where the last awake worker leaves.
  have hexact := hrun.always_iff Accounted State.Attended (fun s _ => s.shutDown = false)
    (fun s a => s.lastLeaves a = true) (Accounted.start n hcreate hmin hempty) hstart
    (fun s a s' hI hG hs => hI.step hG (poolStep_of_step hs))
    (fun s a s' hI hG hs hP => by
      have hs' := poolStep_of_step hs
      constructor
      · intro hP' hbad
        exact not_attended_of_lastLeaves hs' hbad hP'
      · intro hgood
        exact hP.step hI hG hs' (Bool.not_eq_true _ ▸ hgood))
    (run_open hrun hopen)
  simpa using hexact

/-- One worker and one task, which the worker has been woken for. -/
def oneTask : List Action :=
  [.create, .create, .worker 0 none, .call 0 ⟨1, 1⟩, .producer 0 (some 0)]

/-- A task has been added, and a worker is awake. -/
theorem attended_run_iff_oneTask : ∃ tr s, Run step (State.start (smallPool 1 2 2) 1) tr s ∧
    0 < s.queueSize ∧ ∃ w ∈ s.workers, w.awake = true := by
  obtain ⟨⟨tr, s⟩, hfollow, hres⟩ := Option.map_eq_some_iff.mp
    (show (follow step oneTask [] (State.start (smallPool 1 2 2) 1)).map
      (fun r => (r.2.shutDown, r.2.queueSize, r.1.all fun p => !p.1.lastLeaves p.2))
        = some (false, 1, true) by decide +kernel)
  obtain ⟨hopen, hsize, hsteps⟩ : s.shutDown = false ∧ s.queueSize = 1 ∧
      ∀ p ∈ tr, p.1.lastLeaves p.2 = false := by
    simpa using hres
  have hrun := Run.start.of_follow hfollow
  have hpos : 0 < s.queueSize := by omega
  have hall := (attended_run_iff ⟨true, true, true⟩ (smallPool 0 0 0) (smallPool 1 2 2) 1 2 2 1 tr s
    (threadPoolCreate_smallPool 1 2 2) (by omega) rfl hrun hopen).mpr hsteps
  exact ⟨tr, s, hrun, hpos, hall.2 hpos⟩

/-- A pool that has grown to two workers.  Both hold a task that `busyNum` does not count yet
    when the manager asks two workers to leave, so that its signals are lost.  Both workers
    finish and wait, and the next task wakes one of them. -/
def strayExit : List Action :=
  [.create, .create, .call 0 ⟨1, 1⟩, .producer 0 none] ++ List.replicate 5 (.manager none) ++
    [.call 0 ⟨2, 2⟩, .producer 0 none, .worker 0 none, .worker 1 none] ++
    List.replicate 8 (.manager none) ++ List.replicate 3 (.worker 0 none) ++
    List.replicate 3 (.worker 1 none) ++
    [.call 0 ⟨3, 3⟩, .producer 0 (some 0), .worker 0 none]

/-- **The pool can sleep on pending work.**  The worker woken for the task leaves, the other one
    keeps waiting, and the manager has sent its signals. -/
theorem sleeps_on_task : ∃ tr s, Run step (State.start (smallPool 1 2 2) 1) tr s ∧
    s.shutDown = false ∧ s.manager = .top ∧ s.workers = [.exiting, .waiting] ∧ ¬ s.Attended := by
  obtain ⟨⟨tr, s⟩, hfollow, hres⟩ := Option.map_eq_some_iff.mp
    (show (follow step strayExit [] (State.start (smallPool 1 2 2) 1)).map
      (fun r => (r.2.shutDown, r.2.queueSize, r.2.manager, r.2.workers))
        = some (false, 1, .top, [.exiting, .waiting]) by decide +kernel)
  obtain ⟨hopen, hsize, hmanager, hworkers⟩ : s.shutDown = false ∧ s.queueSize = 1 ∧
      s.manager = .top ∧ s.workers = [.exiting, .waiting] := by
    simpa using hres
  refine ⟨tr, s, Run.start.of_follow hfollow, hopen, hmanager, hworkers, ?_⟩
  -- The queue holds a task, and neither worker is awake for it.
  intro hattended
  have hawake := hattended (by omega)
  rw [hworkers] at hawake
  revert hawake
  decide

end MyCeph.Pool
