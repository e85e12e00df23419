import MyCeph.Pool.State

namespace MyCeph.Pool

open Lib

/-!
# What a step of the pool can do

`PoolStep` lists the outcomes of a step with their conditions, and `ManagerStep` those of the
manager with where it comes from; `poolStep_of_step` and `managerStep_of_manage` are the
only places where the code is taken apart.  The loop that adds threads is summed up by
`addThreads_eq`: it adds at most `NUMBER` workers, and one to `liveNum` for each.
-/

/-- Worker `i` reaches the test of its waiting loop when `exitNum` is `e`. -/
inductive Enters (s : State) (i : ℕ) : ℤ → Prop where
  | locks (hpc : s.workers[i]? = some .atLock) : Enters s i s.exitNum
  | notAsked (hpc : s.workers[i]? = some .signalled) (hexit : ¬ 0 < s.exitNum) :
      Enters s i s.exitNum
  | stays (hpc : s.workers[i]? = some .signalled) (hexit : 0 < s.exitNum)
      (hlive : ¬ s.minNum < s.liveNum) : Enters s i (s.exitNum - 1)

/-- The outcomes of a step. -/
inductive PoolStep (s : State) : Action → State → Prop where
  | create {i : ℕ} (howner : s.owner = .creating i) (hlt : (i : ℤ) < s.minNum) :
      PoolStep s .create { s.createWorker i with owner := .creating (i + 1) }
  | created {i : ℕ} (howner : s.owner = .creating i) (hge : ¬ (i : ℤ) < s.minNum) :
      PoolStep s .create { s with owner := .created }
  | call {j : ℕ} {task : Task} (howner : ∀ i, s.owner ≠ .creating i)
      (hpc : s.producers[j]? = some .idle) :
      PoolStep s (.call j task) { s with producers := s.producers.set j (.atLock task) }
  | addWaits {j : ℕ} {task : Task} {woken : Option ℕ}
      (hpc : s.producers[j]? = some (.atLock task) ∨ s.producers[j]? = some (.signalled task))
      (hfull : s.queueSize = s.queueCapacity) (hopen : s.shutDown = false) :
      PoolStep s (.producer j woken) { s with producers := s.producers.set j (.waiting task) }
  | addRefused {j : ℕ} {task : Task} {woken : Option ℕ}
      (hpc : s.producers[j]? = some (.atLock task) ∨ s.producers[j]? = some (.signalled task))
      (hshut : s.shutDown = true) :
      PoolStep s (.producer j woken) { s with producers := s.producers.set j .idle }
  | add {j : ℕ} {task : Task} {woken : Option ℕ} {workers : List Worker}
      (hpc : s.producers[j]? = some (.atLock task) ∨ s.producers[j]? = some (.signalled task))
      (hroom : s.queueSize ≠ s.queueCapacity) (hopen : s.shutDown = false)
      (hsignal : Signalled Worker.wake s.workers workers) :
      PoolStep s (.producer j woken) { s with
        toThreadPool := s.store task
        workers := workers
        producers := s.producers.set j .idle
        added := s.added ++ [task] }
  | takeWaits {i : ℕ} {e : ℤ} {woken : Option ℕ} (henters : Enters s i e)
      (hempty : s.queueSize = 0) (hopen : s.shutDown = false) :
      PoolStep s (.worker i woken) { s with
        exitNum := e
        workers := s.workers.set i .waiting }
  | takeQuits {i : ℕ} {e : ℤ} {woken : Option ℕ} (henters : Enters s i e)
      (hshut : s.shutDown = true) :
      PoolStep s (.worker i woken) { s with
        exitNum := e
        workers := s.workers.set i .exiting }
  | take {i : ℕ} {e : ℤ} {woken : Option ℕ} {producers : List Producer}
      (henters : Enters s i e) (hsome : s.queueSize ≠ 0) (hopen : s.shutDown = false)
      (hsignal : Signalled Producer.wake s.producers producers) :
      PoolStep s (.worker i woken) { s with
        toThreadPool := { s.drop with exitNum := e }
        workers := s.workers.set i (.holds s.front)
        producers := producers
        taken := s.taken ++ [s.front] }
  | leave {i : ℕ} {woken : Option ℕ} (hpc : s.workers[i]? = some .signalled)
      (hexit : 0 < s.exitNum) (hlive : s.minNum < s.liveNum) :
      PoolStep s (.worker i woken) { s with
        exitNum := s.exitNum - 1
        liveNum := s.liveNum - 1
        workers := s.workers.set i .exiting }
  | starts {i : ℕ} {task : Task} {woken : Option ℕ} (hpc : s.workers[i]? = some (.holds task)) :
      PoolStep s (.worker i woken) { s with
        busyNum := s.busyNum + 1
        workers := s.workers.set i (.running task) }
  | ends {i : ℕ} {task : Task} {woken : Option ℕ} (hpc : s.workers[i]? = some (.running task)) :
      PoolStep s (.worker i woken) { s with
        busyNum := s.busyNum - 1
        workers := s.workers.set i .atLock }
  | threadExit {i : ℕ} {woken : Option ℕ} (hpc : s.workers[i]? = some .exiting) :
      PoolStep s (.worker i woken) { s with
        threadIDs := s.clearSlot (i + 1)
        workers := s.workers.set i .dead }
  | manages {woken : Option ℕ} (m : Manager) :
      PoolStep s (.manager woken) { s with manager := m }
  | grows {liveNum : ℤ} {woken : Option ℕ} (m : Manager) (hlive : liveNum < s.maxNum) :
      PoolStep s (.manager woken) { State.addThreads liveNum s.slots 0 s with manager := m }
  | shrinks {woken : Option ℕ} :
      PoolStep s (.manager woken) { s with exitNum := NUMBER, manager := .signals NUMBER }
  | managerSignals {woken : Option ℕ} {workers : List Worker} (m : Manager)
      (hsignal : Signalled Worker.wake s.workers workers) :
      PoolStep s (.manager woken) { s with workers := workers, manager := m }
  | shutDown {woken : Option ℕ} (howner : s.owner = .created) :
      PoolStep s (.destroy woken) { s with shutDown := true, owner := .joining }
  | destroys {woken : Option ℕ} (o : Owner) (howner : ∀ i, s.owner ≠ .creating i)
      (ho : ∀ i, o ≠ .creating i) : PoolStep s (.destroy woken) { s with owner := o }
  | destroySignals {woken : Option ℕ} {workers : List Worker} (o : Owner)
      (howner : ∀ i, s.owner ≠ .creating i) (ho : ∀ i, o ≠ .creating i)
      (hsignal : Signalled Worker.wake s.workers workers) :
      PoolStep s (.destroy woken) { s with workers := workers, owner := o }

variable {s s' : State} {a : Action}

/-! ### The outcomes of each thread's steps -/

/-- What a step of `threadPoolCreate` can do. -/
theorem create_step (h : s.create = some s') : PoolStep s .create s' := by
  unfold State.create at h
  split at h
  · rename_i i howner
    split at h
    · rename_i hlt
      obtain rfl := Option.some.inj h
      exact .create howner hlt
    · rename_i hge
      obtain rfl := Option.some.inj h
      exact .created howner hge
  · simp at h

/-- What a step of `threadPoolAdd` can do. -/
theorem add_step {j : ℕ} {woken : Option ℕ} (h : s.threadPoolAdd j woken = some s') :
    PoolStep s (.producer j woken) s' := by
  have hadd : ∃ task, (s.producers[j]? = some (.atLock task) ∨
      s.producers[j]? = some (.signalled task)) ∧ s.add j task woken = some s' := by
    unfold State.threadPoolAdd at h
    split at h
    · rename_i task hpc
      exact ⟨task, .inl hpc, h⟩
    · rename_i task hpc
      exact ⟨task, .inr hpc, h⟩
    · simp at h
  obtain ⟨task, hpc, h⟩ := hadd
  unfold State.add at h
  split at h
  · rename_i hwait
    obtain rfl := Option.some.inj h
    exact .addWaits hpc hwait.1 hwait.2
  rename_i hwait
  split at h
  · rename_i hshut
    obtain rfl := Option.some.inj h
    exact .addRefused hpc hshut
  · rename_i hopen
    rw [Bool.not_eq_true] at hopen
    obtain ⟨workers, hsignal, rfl⟩ := Option.map_eq_some_iff.mp h
    exact .add hpc (fun hfull => hwait ⟨hfull, hopen⟩) hopen (signalled_of_signal hsignal)

/-- The test of the waiting loop and what follows it. -/
theorem take_step {i : ℕ} {e : ℤ} {woken : Option ℕ} (henters : Enters s i e)
    (h : State.take { s with exitNum := e } i woken = some s') :
    PoolStep s (.worker i woken) s' := by
  unfold State.take at h
  split at h
  · rename_i hwait
    obtain rfl := Option.some.inj h
    exact .takeWaits henters hwait.1 hwait.2
  rename_i hwait
  split at h
  · rename_i hshut
    obtain rfl := Option.some.inj h
    exact .takeQuits henters hshut
  · rename_i hopen
    rw [Bool.not_eq_true] at hopen
    obtain ⟨producers, hsignal, rfl⟩ := Option.map_eq_some_iff.mp h
    exact .take henters (fun hempty => hwait ⟨hempty, hopen⟩) hopen (signalled_of_signal hsignal)

/-- What a step of `worker` can do. -/
theorem worker_step {i : ℕ} {woken : Option ℕ} (h : s.worker i woken = some s') :
    PoolStep s (.worker i woken) s' := by
  unfold State.worker at h
  split at h
  · rename_i hpc
    exact take_step (.locks hpc) h
  · rename_i hpc
    unfold State.wakeUp at h
    split at h
    · rename_i hexit
      split at h
      · rename_i hlive
        obtain rfl := Option.some.inj h
        exact .leave hpc hexit hlive
      · rename_i hlive
        exact take_step (.stays hpc hexit hlive) h
    · rename_i hexit
      exact take_step (.notAsked hpc hexit) h
  · rename_i hpc
    obtain rfl := Option.some.inj h
    exact .starts hpc
  · rename_i hpc
    obtain rfl := Option.some.inj h
    exact .ends hpc
  · rename_i hpc
    obtain rfl := Option.some.inj h
    exact .threadExit hpc
  · simp at h

/-- The outcomes of a step of the manager, with where it comes from. -/
inductive ManagerStep (s : State) : State → Prop where
  | ends (hm : s.manager = .top) (hshut : s.shutDown = true) :
      ManagerStep s { s with manager := .done }
  | sleeps (hm : s.manager = .top) (hopen : s.shutDown = false) :
      ManagerStep s { s with manager := .sleeping }
  | readsSizes (hm : s.manager = .sleeping) :
      ManagerStep s { s with manager := .sizes s.queueSize s.liveNum }
  | readsBusy {queueSize liveNum : ℤ} (hm : s.manager = .sizes queueSize liveNum) :
      ManagerStep s { s with manager := .adding queueSize liveNum s.busyNum }
  | grows {queueSize liveNum busyNum : ℤ} (hm : s.manager = .adding queueSize liveNum busyNum)
      (hsize : 1 ≤ queueSize) (hlive : liveNum < s.maxNum) :
      ManagerStep s
        { State.addThreads liveNum s.slots 0 s with manager := .removing liveNum busyNum }
  | growsNot {queueSize liveNum busyNum : ℤ} (hm : s.manager = .adding queueSize liveNum busyNum)
      (hnot : ¬ (1 ≤ queueSize ∧ liveNum < s.maxNum)) :
      ManagerStep s { s with manager := .removing liveNum busyNum }
  | shrinks {liveNum busyNum : ℤ} (hm : s.manager = .removing liveNum busyNum)
      (hidle : busyNum * 2 < liveNum) (hlive : s.minNum < liveNum) :
      ManagerStep s { s with exitNum := NUMBER, manager := .signals NUMBER }
  | shrinksNot {liveNum busyNum : ℤ} (hm : s.manager = .removing liveNum busyNum)
      (hnot : ¬ (busyNum * 2 < liveNum ∧ s.minNum < liveNum)) :
      ManagerStep s { s with manager := .top }
  | signalsEnd (hm : s.manager = .signals 0) : ManagerStep s { s with manager := .top }
  | signals {n : ℕ} {workers : List Worker} (hm : s.manager = .signals (n + 1))
      (hsignal : Signalled Worker.wake s.workers workers) :
      ManagerStep s { s with workers := workers, manager := .signals n }

/-- **All that one step of the manager can do.** -/
theorem managerStep_of_manage {woken : Option ℕ} (h : s.manage woken = some s') :
    ManagerStep s s' := by
  unfold State.manage at h
  -- One case for each place of the manager, and one for each outcome of its tests.
  split at h
  · rename_i hm
    obtain rfl := Option.some.inj h
    by_cases hshut : s.shutDown = true
    · rw [if_pos hshut]
      exact .ends hm hshut
    · rw [if_neg hshut]
      exact .sleeps hm (Bool.not_eq_true _ ▸ hshut)
  · rename_i hm
    obtain rfl := Option.some.inj h
    exact .readsSizes hm
  · rename_i hm
    obtain rfl := Option.some.inj h
    exact .readsBusy hm
  · rename_i hm
    split at h
    · rename_i hgrow
      obtain rfl := Option.some.inj h
      exact .grows hm hgrow.1 hgrow.2
    · rename_i hnot
      obtain rfl := Option.some.inj h
      exact .growsNot hm hnot
  · rename_i hm
    split at h
    · rename_i hshrink
      obtain rfl := Option.some.inj h
      exact .shrinks hm hshrink.1 hshrink.2
    · rename_i hnot
      obtain rfl := Option.some.inj h
      exact .shrinksNot hm hnot
  · rename_i hm
    obtain rfl := Option.some.inj h
    exact .signalsEnd hm
  · rename_i hm
    obtain ⟨workers, hsignal, rfl⟩ := Option.map_eq_some_iff.mp h
    exact .signals hm (signalled_of_signal hsignal)
  · simp at h

theorem manager_step {woken : Option ℕ} (h : s.manage woken = some s') :
    PoolStep s (.manager woken) s' := by
  cases managerStep_of_manage h with
  | grows hm hsize hlive => exact .grows _ hlive
  | shrinks hm hidle hlive => exact .shrinks
  | signals hm hsignal => exact .managerSignals _ hsignal
  | _ => apply PoolStep.manages

/-- What a step of `threadPoolDestroy` can do. -/
theorem destroy_step {woken : Option ℕ} (h : s.threadPoolDestroy woken = some s') :
    PoolStep s (.destroy woken) s' := by
  unfold State.threadPoolDestroy at h
  split at h
  · rename_i howner
    obtain rfl := Option.some.inj h
    exact .shutDown howner
  · -- `pthread_join` waits for the manager to end.
    rename_i howner
    split at h
    · obtain rfl := Option.some.inj h
      exact .destroys _ (by simp [howner]) (by simp)
    · simp at h
  · rename_i howner
    split at h
    · obtain rfl := Option.some.inj h
      exact .destroys _ (by simp [howner]) (by simp)
    · obtain rfl := Option.some.inj h
      exact .destroys _ (by simp [howner]) (by simp)
  · rename_i howner
    obtain ⟨workers, hsignal, rfl⟩ := Option.map_eq_some_iff.mp h
    exact .destroySignals _ (by simp [howner]) (by simp) (signalled_of_signal hsignal)
  · simp at h

/-- **Inversion of a step.** -/
theorem poolStep_of_step (h : step s a = some s') : PoolStep s a s' := by
  unfold step at h
  split at h
  · simp at h
  split at h
  · exact create_step h
  · split at h
    · simp at h
    · rename_i hpc howner
      obtain rfl := Option.some.inj h
      exact .call howner hpc
    · simp at h
  · exact add_step h
  · exact worker_step h
  · exact manager_step h
  · exact destroy_step h

/-- A step of the manager, with where it comes from. -/
theorem managerStep_of_step {woken : Option ℕ} (h : step s (.manager woken) = some s') :
    ManagerStep s s' := by
  unfold step at h
  split at h
  · simp at h
  · exact managerStep_of_manage h

/-! ### The loop that adds threads -/

/-- The loop adds `n` workers in all, and one to `liveNum` for each. -/
theorem addThreads_eq (liveNum : ℤ) (slots : List ℕ) (counter : ℕ) (s : State) :
    ∃ n ids, counter + n ≤ max counter NUMBER ∧ State.addThreads liveNum slots counter s =
      { s with
        threadIDs := ids
        workers := s.workers ++ List.replicate n .atLock
        liveNum := s.liveNum + n } := by
  induction slots generalizing counter s with
  | nil => exact ⟨0, s.threadIDs, by omega, by simp [State.addThreads]⟩
  | cons i slots ih =>
    unfold State.addThreads
    split
    · rename_i hgo
      split
      · -- The slot is free: one worker now, `n` more later.
        obtain ⟨n, ids, hn, heq⟩ :=
          ih (counter + 1) { s.createWorker i with liveNum := s.liveNum + 1 }
        refine ⟨n + 1, ids, by omega, ?_⟩
        have hlive : s.liveNum + 1 + (n : ℤ) = s.liveNum + (n + 1) := by omega
        rw [heq]
        simp [State.createWorker, List.replicate_succ, hlive]
      · exact ih counter s
    · exact ⟨0, s.threadIDs, by omega, by simp⟩

/-- The loop that adds threads fills a free slot, if there is one. -/
theorem addThreads_atLock {liveNum : ℤ} {slots : List ℕ} {counter : ℕ} {s : State}
    (hcounter : counter < NUMBER) (hlive : liveNum < s.maxNum)
    (hfree : ∃ k ∈ slots, s.threadIDs k = 0) :
    .atLock ∈ (State.addThreads liveNum slots counter s).workers := by
  induction slots generalizing s with
  | nil =>
    obtain ⟨k, hk, -⟩ := hfree
    cases hk
  | cons k slots ih =>
    unfold State.addThreads
    rw [if_pos ⟨hcounter, hlive⟩]
    by_cases hzero : s.threadIDs k = 0
    · -- The thread is there, and later ones come behind it.
      rw [if_pos hzero]
      obtain ⟨n, ids, -, heq⟩ := addThreads_eq liveNum slots (counter + 1)
        { s.createWorker k with liveNum := s.liveNum + 1 }
      rw [heq]
      apply List.mem_append_left
      exact List.mem_append_right _ (List.mem_singleton_self _)
    · rw [if_neg hzero]
      apply ih hlive
      obtain ⟨j, hj, hfree⟩ := hfree
      rcases List.mem_cons.mp hj with rfl | hj
      · exact absurd hfree hzero
      · exact ⟨j, hj, hfree⟩

end MyCeph.Pool
