import Mathlib.Order.RelClasses
import MyCeph.Pool.Create
import MyCeph.Pool.Slots

namespace MyCeph.Pool

open Lib

/-!
# The pool can take what has been added

The pool may sleep on pending work (`attended_run_iff`), but it is never beyond help: when no
worker is awake there is room for a thread (`Hopeful`), and the manager's next round adds
one, which takes a task.  So from every state before `shutDown` is set the workers and the
manager can by themselves take every task that has been added (`pool_drains`).

The schedule that shows it: a worker on its way to the queue takes a task; otherwise the manager
finishes a round that it began on old numbers, the woken workers take a task or leave, the
leaving ones clear their slots, and the manager goes through a round that adds a thread.
-/

variable {s s' : State} {a : Action} {tr : List (State × Action)}

/-- The steps of the pool's own threads. -/
def ownStep (s : State) : Action → Option State
  | .worker i woken => step s (.worker i woken)
  | .manager woken => step s (.manager woken)
  | _ => none

/-- An own step is a step of the pool. -/
theorem step_of_ownStep (h : ownStep s a = some s') : step s a = some s' := by
  cases a with
  | worker i woken => exact h
  | manager woken => exact h
  | _ => cases h

/-- The pool's own threads neither add tasks nor shut the pool down. -/
theorem ownStep_frame (h : ownStep s a = some s') :
    s'.added = s.added ∧ s'.shutDown = s.shutDown ∧ s'.owner = s.owner := by
  have hs := poolStep_of_step (step_of_ownStep h)
  cases a with
  | worker i woken => cases hs <;> exact ⟨rfl, rfl, rfl⟩
  | manager woken =>
    cases hs with
    | @grows liveNum _ m hroom =>
      obtain ⟨n, ids, -, heq⟩ := addThreads_eq liveNum s.slots 0 s
      rw [heq]
      exact ⟨rfl, rfl, rfl⟩
    | _ => exact ⟨rfl, rfl, rfl⟩
  | _ => cases h

/-! ### Room for a thread -/

/-- When tasks are pending, a worker is awake or there is room for a thread. -/
def Hopeful (s : State) : Prop :=
  0 < s.queueSize → 0 < s.workers.countP Worker.awake ∨ s.liveNum < s.maxNum

/-- The live workers of a pool that has been created are at most as many as its slots. -/
theorem Slotted.live_le (h : Slotted s) (hcreated : ∀ i, s.owner ≠ .creating i) :
    s.liveNum ≤ s.maxNum := by
  have hlive := h.accounted.live_eq
  rw [State.toCreate_eq_zero hcreated] at hlive
  have hpresent := countP_present s.workers
  have hle := h.slots.present_le
  have hbounds := h.min_le_max
  have hpos := h.accounted.min_pos
  omega

/-- Pending tasks show that the pool has been created. -/
theorem Slotted.created (h : Slotted s) (hsize : 0 < s.queueSize) : ∀ i, s.owner ≠ .creating i := by
  intro i howner
  have hempty := (h.accounted.early i howner).1
  omega

/-- **Step lemma.**  A worker that leaves makes room for another one. -/
theorem Hopeful.step (h : Hopeful s) (hI : Slotted s) (hopen : s.shutDown = false)
    (hs : PoolStep s a s') : Hopeful s' := by
  intro hsize
  -- A signal for each task wakes a worker, and a leaving worker makes room for a new one.
  cases hs with
  | create howner hlt =>
    have hempty := (hI.accounted.early _ howner).1
    have hsize' : 0 < s.queueSize := hsize
    omega
  | add hpc hroom hopen hsignal =>
    exact Or.inl (hsignal.exists_awake Worker.live Worker.awake Worker.awake_of_live
      Worker.wake_awake (hI.accounted.live_pos (hI.accounted.inside hpc)))
  | takeWaits henters hempty hopen =>
    have hsize' : 0 < s.queueSize := hsize
    omega
  | takeQuits henters hshut => simp [hopen] at hshut
  | take henters hsome hopen hsignal =>
    obtain ⟨w, hpc, -, -⟩ := henters.worker
    exact Or.inl (attended_set hpc rfl)
  | leave hpc hexit hmore =>
    right
    have hle := hI.live_le (hI.created hsize)
    show s.liveNum - 1 < s.maxNum
    omega
  | starts hpc => exact Or.inl (attended_set hpc rfl)
  | ends hpc => exact Or.inl (attended_set hpc rfl)
  | @threadExit i woken hpc =>
    have hsame : (s.workers.set i .dead).countP Worker.awake = s.workers.countP Worker.awake :=
      countP_set_eq hpc rfl
    show 0 < (s.workers.set i .dead).countP Worker.awake ∨ _
    rw [hsame]
    exact h hsize
  -- The manager's new workers are all awake.
  | @grows liveNum woken m hroom =>
    obtain ⟨n, ids, -, heq⟩ := addThreads_eq liveNum s.slots 0 s
    rw [heq] at hsize ⊢
    cases n with
    | zero => simpa using h hsize
    | succ n =>
      left
      have hnew : (s.workers ++ List.replicate (n + 1) Worker.atLock).countP Worker.awake
          = s.workers.countP Worker.awake + (n + 1) := by
        simp [List.countP_replicate, Worker.awake]
      show 0 < (s.workers ++ List.replicate (n + 1) Worker.atLock).countP Worker.awake
      omega
  | managerSignals m hsignal =>
    have hle := hsignal.countP_le Worker.awake Worker.wake_awake
    exact (h hsize).imp_left (Nat.lt_of_lt_of_le · hle)
  | destroySignals o howner ho hsignal =>
    have hle := hsignal.countP_le Worker.awake Worker.wake_awake
    exact (h hsize).imp_left (Nat.lt_of_lt_of_le · hle)
  | _ => exact h hsize

/-! ### States before `shutDown` -/

/-- What holds of every state before `shutDown` is set. -/
structure Open (s : State) : Prop where
  slotted : Slotted s
  hopeful : Hopeful s
  shutDown : s.shutDown = false
  manager : s.manager ≠ .done
  owner : s.owner = .created ∨ ∃ i, s.owner = .creating i

/-- The manager ends and the pool is freed behind `shutDown` only. -/
theorem Open.threads (h : Open s) (hopen : s'.shutDown = false) (hs : step s a = some s') :
    s'.manager ≠ .done ∧ (s'.owner = .created ∨ ∃ i, s'.owner = .creating i) := by
  have hs' := poolStep_of_step hs
  have hmanager := h.manager
  have howner := h.owner
  cases a with
  | manager woken =>
    refine ⟨?_, by rw [manage_owner hs']; exact howner⟩
    cases managerStep_of_step hs with
    | ends hm hshut =>
      rw [h.shutDown] at hshut
      cases hshut
    | _ => simp
  | create =>
    cases hs' with
    | create howner' hlt => exact ⟨hmanager, Or.inr ⟨_, rfl⟩⟩
    | created howner' hge => exact ⟨hmanager, Or.inl rfl⟩
  | destroy woken =>
    -- The only step from here sets the flag.
    rcases howner with howner | ⟨i, howner⟩
    · have hset : some { s with shutDown := true, owner := .joining } = some s' := by
        simpa [step, howner, State.threadPoolDestroy] using hs
      cases hset
      cases hopen
    · simp [step, howner, State.threadPoolDestroy] at hs
  | call j task => cases hs' with | call => exact ⟨hmanager, howner⟩
  | producer j woken => cases hs' <;> exact ⟨hmanager, howner⟩
  | worker i woken => cases hs' <;> exact ⟨hmanager, howner⟩

/-- **Step lemma.** -/
theorem Open.step (h : Open s) (hopen : s'.shutDown = false) (hs : step s a = some s') :
    Open s' := by
  obtain ⟨hmanager, howner⟩ := h.threads hopen hs
  exact ⟨h.slotted.step h.shutDown hs, h.hopeful.step h.slotted h.shutDown (poolStep_of_step hs),
    hopen, hmanager, howner⟩

theorem Open.ownStep (h : Open s) (hs : ownStep s a = some s') : Open s' := by
  apply h.step ?_ (step_of_ownStep hs)
  rw [(ownStep_frame hs).2.1]
  exact h.shutDown

/-- Its memory is there. -/
theorem Open.not_freed (h : Open s) : s.owner ≠ .freed := by
  rcases h.owner with howner | ⟨i, howner⟩
  · simp [howner]
  · simp [howner]

/-! ### The steps of the schedule -/

/-- So the steps of its workers are those of the code. -/
theorem Open.worker (h : Open s) (i : ℕ) (woken : Option ℕ) :
    Pool.ownStep s (.worker i woken) = s.worker i woken :=
  if_neg h.not_freed

theorem Open.manage (h : Open s) (woken : Option ℕ) :
    Pool.ownStep s (.manager woken) = s.manage woken :=
  if_neg h.not_freed

/-- A task can be taken whenever one is pending. -/
theorem take_some (hopen : s.shutDown = false) (hsize : 0 < s.queueSize) (i : ℕ) :
    ∃ woken s', s.take i woken = some s' ∧ s'.queueSize = s.queueSize - 1 := by
  obtain ⟨woken, producers, hsignal⟩ := exists_signal Producer.wake s.producers
  have hwait : ¬ (s.queueSize = 0 ∧ s.shutDown = false) := fun h => by omega
  have hshut : ¬ s.shutDown = true := by simp [hopen]
  have htake : s.take i woken = some { s with
      toThreadPool := s.drop
      workers := s.workers.set i (.holds s.front)
      producers := producers
      taken := s.taken ++ [s.front] } := by
    unfold State.take
    rw [if_neg hwait, if_neg hshut, hsignal]
    rfl
  exact ⟨woken, _, htake, rfl⟩

/-- The goal of the schedule: a task more has been taken. -/
def OneLess (s s' : State) : Prop := Open s' ∧ s'.queueSize = s.queueSize - 1

/-- A worker on its way to the queue gets there and takes a task. -/
theorem Open.takes (h : Open s) (hsize : 0 < s.queueSize) {i : ℕ} {w : Worker}
    (hpc : s.workers[i]? = some w) (hw : w.awake = true) (hnot : w ≠ .signalled) :
    ∃ tr s', Run Pool.ownStep s tr s' ∧ OneLess s s' := by
  obtain ⟨hi, -⟩ := List.getElem?_eq_some_iff.mp hpc
  have hset : ∀ v, (s.workers.set i v)[i]? = some v := fun v => List.getElem?_set_self hi
  -- From `atLock` one step is enough.
  have htake : ∀ s₁, Open s₁ → 0 < s₁.queueSize → s₁.workers[i]? = some .atLock →
      ∃ tr s', Run Pool.ownStep s₁ tr s' ∧ OneLess s₁ s' := by
    intro s₁ h₁ hsize₁ hpc₁
    obtain ⟨woken, s', hs, hless⟩ := take_some h₁.shutDown hsize₁ i
    have hstep : Pool.ownStep s₁ (.worker i woken) = some s' := by
      rw [h₁.worker, State.worker, hpc₁]
      exact hs
    exact ⟨_, s', Run.start.step hstep, h₁.ownStep hstep, hless⟩
  -- A task that runs comes to its end first.
  have hrunning : ∀ s₁ task, Open s₁ → 0 < s₁.queueSize → s₁.workers[i]? = some (.running task) →
      ∃ tr s', Run Pool.ownStep s₁ tr s' ∧ OneLess s₁ s' := by
    intro s₁ task h₁ hsize₁ hpc₁
    obtain ⟨hi₁, -⟩ := List.getElem?_eq_some_iff.mp hpc₁
    have hstep : Pool.ownStep s₁ (.worker i none) = some { s₁ with
        busyNum := s₁.busyNum - 1, workers := s₁.workers.set i .atLock } := by
      rw [h₁.worker, State.worker, hpc₁]
    obtain ⟨tr, s', hrun, hless⟩ := htake _ (h₁.ownStep hstep) hsize₁ (List.getElem?_set_self hi₁)
    exact ⟨_, s', (Run.start.step hstep).trans hrun, hless⟩
  cases w with
  | atLock => exact htake s h hsize hpc
  | running task => exact hrunning s task h hsize hpc
  | holds task =>
    have hstep : Pool.ownStep s (.worker i none) = some { s with
        busyNum := s.busyNum + 1, workers := s.workers.set i (.running task) } := by
      rw [h.worker, State.worker, hpc]
    obtain ⟨tr, s', hrun, hless⟩ := hrunning _ task (h.ownStep hstep) hsize (hset _)
    exact ⟨_, s', (Run.start.step hstep).trans hrun, hless⟩
  | signalled => exact absurd rfl hnot
  | _ => cases hw

/-- A woken worker takes a task, or leaves. -/
theorem Open.woken_step (h : Open s) (hsize : 0 < s.queueSize) {i : ℕ}
    (hpc : s.workers[i]? = some .signalled) :
    ∃ woken s', Pool.ownStep s (.worker i woken) = some s' ∧ (s'.queueSize = s.queueSize - 1 ∨
      s' = { s with
        exitNum := s.exitNum - 1
        liveNum := s.liveNum - 1
        workers := s.workers.set i .exiting }) := by
  by_cases hleave : 0 < s.exitNum ∧ s.minNum < s.liveNum
  · refine ⟨none, _, ?_, Or.inr rfl⟩
    rw [h.worker, State.worker, hpc]
    dsimp only
    rw [State.wakeUp, if_pos hleave.1, if_pos hleave.2]
  · -- The worker goes on to the queue, with or without a request less.
    by_cases hexit : 0 < s.exitNum
    · have hlive : ¬ s.liveNum > s.minNum := fun hlive => hleave ⟨hexit, hlive⟩
      obtain ⟨woken, s', hs, hless⟩ :=
        take_some (s := { s with exitNum := s.exitNum - 1 }) h.shutDown hsize i
      refine ⟨woken, s', ?_, Or.inl hless⟩
      rw [h.worker, State.worker, hpc]
      dsimp only
      rw [State.wakeUp, if_pos hexit, if_neg hlive]
      exact hs
    · obtain ⟨woken, s', hs, hless⟩ := take_some h.shutDown hsize i
      refine ⟨woken, s', ?_, Or.inl hless⟩
      rw [h.worker, State.worker, hpc]
      dsimp only
      rw [State.wakeUp, if_neg hexit]
      exact hs

/-! ### The manager's round -/

/-- The steps to the end of a round that will add no thread. -/
def Manager.stale (maxNum : ℤ) : Manager → ℕ
  | .sizes queueSize liveNum => if 1 ≤ queueSize ∧ liveNum < maxNum then 0 else 6
  | .adding queueSize liveNum _ => if 1 ≤ queueSize ∧ liveNum < maxNum then 0 else 5
  | .removing _ _ => 4
  | .signals n => n + 1
  | _ => 0

/-- The steps to the part that adds threads. -/
def Manager.ahead : Manager → ℕ
  | .top => 4
  | .sleeping => 3
  | .sizes _ _ => 2
  | .adding _ _ _ => 1
  | _ => 0

/-- The manager finishes a round that will add no thread. -/
theorem Open.stale_step (h : Open s) (hstale : 0 < s.manager.stale s.maxNum) :
    ∃ woken s', Pool.ownStep s (.manager woken) = some s' ∧ s'.queueSize = s.queueSize ∧
      s'.manager.stale s'.maxNum < s.manager.stale s.maxNum := by
  -- With numbers that are out of date the manager adds nobody, and comes to the top again.
  cases hm : s.manager with
  | top | sleeping | done => rw [hm] at hstale; cases hstale
  | sizes queueSize liveNum =>
    rw [hm] at hstale
    have hnot : ¬ (1 ≤ queueSize ∧ liveNum < s.maxNum) := by
      intro hgood
      simp [Manager.stale, hgood] at hstale
    refine ⟨none, { s with manager := .adding queueSize liveNum s.busyNum }, ?_, rfl, ?_⟩
    · rw [h.manage, State.manage, hm]
    · simp [Manager.stale, hnot]
  | adding queueSize liveNum busyNum =>
    rw [hm] at hstale
    have hnot : ¬ (1 ≤ queueSize ∧ liveNum < s.maxNum) := by
      intro hgood
      simp [Manager.stale, hgood] at hstale
    refine ⟨none, { s with manager := .removing liveNum busyNum }, ?_, rfl, ?_⟩
    · rw [h.manage, State.manage, hm]
      exact if_neg hnot
    · simp [Manager.stale, hnot]
  | removing liveNum busyNum =>
    by_cases hidle : busyNum * 2 < liveNum ∧ liveNum > s.minNum
    · refine ⟨none, { s with exitNum := NUMBER, manager := .signals NUMBER }, ?_, rfl, ?_⟩
      · rw [h.manage, State.manage, hm]
        exact if_pos hidle
      · simp [Manager.stale, NUMBER]
    · refine ⟨none, { s with manager := .top }, ?_, rfl, ?_⟩
      · rw [h.manage, State.manage, hm]
        exact if_neg hidle
      · simp [Manager.stale]
  | signals n =>
    cases n with
    | zero =>
      refine ⟨none, { s with manager := .top }, ?_, rfl, ?_⟩
      · rw [h.manage, State.manage, hm]
      · simp [Manager.stale]
    | succ n =>
      obtain ⟨woken, workers, hsignal⟩ := exists_signal Worker.wake s.workers
      refine ⟨woken, { s with workers := workers, manager := .signals n }, ?_, rfl, ?_⟩
      · rw [h.manage, State.manage, hm]
        dsimp only
        rw [hsignal]
        rfl
      · simp [Manager.stale]

/-- With room for a thread and no thread about to end, a slot is free. -/
theorem Slotted.free_slot (h : Slotted s) (hsize : 0 < s.queueSize)
    (hexiting : s.workers.countP (· == .exiting) = 0) (hroom : s.liveNum < s.maxNum) :
    ∃ k ∈ s.slots, s.threadIDs k = 0 := by
  by_contra hnone
  have hfull : s.ids.countP (· != 0) = s.ids.length := by
    rw [List.countP_eq_length]
    intro id hid
    obtain ⟨k, hk, rfl⟩ := List.mem_map.mp hid
    simpa using fun hzero => hnone ⟨k, hk, hzero⟩
  have hlen : s.ids.length = s.maxNum.toNat := by simp [ThreadPool.ids, ThreadPool.slots]
  have hcount := h.slots.count
  have hpresent := countP_present s.workers
  have hlive := h.accounted.live_eq
  rw [State.toCreate_eq_zero (h.created hsize)] at hlive
  omega

/-- On current numbers the manager comes closer to adding a thread, or adds one, which takes a
    task. -/
theorem Open.round_step (h : Open s) (hsize : 0 < s.queueSize)
    (hstale : s.manager.stale s.maxNum = 0) (hexiting : s.workers.countP (· == .exiting) = 0)
    (hroom : s.liveNum < s.maxNum) :
    (∃ tr s', Run Pool.ownStep s tr s' ∧ OneLess s s') ∨
      ∃ m, Pool.ownStep s (.manager none) = some { s with manager := m } ∧
        m.stale s.maxNum = 0 ∧ m.ahead < s.manager.ahead := by
  cases hm : s.manager with
  | top =>
    refine Or.inr ⟨.sleeping, ?_, rfl, by decide⟩
    rw [h.manage, State.manage, hm]
    simp [h.shutDown]
  | sleeping =>
    refine Or.inr ⟨.sizes s.queueSize s.liveNum, ?_, if_pos ⟨hsize, hroom⟩, Nat.lt_succ_self 2⟩
    rw [h.manage, State.manage, hm]
  | sizes queueSize liveNum =>
    refine Or.inr ⟨.adding queueSize liveNum s.busyNum, ?_, ?_, Nat.lt_succ_self 1⟩
    · rw [h.manage, State.manage, hm]
    · rw [hm] at hstale
      by_contra hne
      simp [Manager.stale] at hstale hne
      omega
  -- Here the manager creates a worker, which takes the task.
  | adding queueSize liveNum busyNum =>
    left
    rw [hm] at hstale
    have hgood : 1 ≤ queueSize ∧ liveNum < s.maxNum := by
      by_contra hnot
      simp [Manager.stale, hnot] at hstale
    have hstep : Pool.ownStep s (.manager none) = some
        { State.addThreads liveNum s.slots 0 s with manager := .removing liveNum busyNum } := by
      rw [h.manage, State.manage, hm]
      exact if_pos hgood
    have hmem : .atLock ∈ (State.addThreads liveNum s.slots 0 s).workers :=
      addThreads_atLock (by decide) hgood.2 (h.slotted.free_slot hsize hexiting hroom)
    have hsame : (State.addThreads liveNum s.slots 0 s).queueSize = s.queueSize := by
      obtain ⟨n, ids, -, heq⟩ := addThreads_eq liveNum s.slots 0 s
      rw [heq]
    obtain ⟨i, hi⟩ := List.getElem?_of_mem hmem
    have hsize' : 0 < (State.addThreads liveNum s.slots 0 s).queueSize := by omega
    obtain ⟨tr, s', hrun, hopen, hless⟩ :=
      (h.ownStep hstep).takes hsize' (w := .atLock) hi rfl (by simp)
    exact ⟨_, s', (Run.start.step hstep).trans hrun, hopen, hless.trans (by rw [← hsame])⟩
  | removing | signals => rw [hm] at hstale; simp [Manager.stale] at hstale
  | done => exact absurd hm h.manager

/-! ### The schedule -/

/-- How far the next task is from being taken. -/
def State.distance (s : State) : ℕ × ℕ × ℕ × ℕ × ℕ :=
  (s.queueSize.toNat, s.manager.stale s.maxNum, s.workers.countP (· == .signalled),
    s.workers.countP (· == .exiting), s.manager.ahead)

/-- Distances are compared entry by entry. -/
def Nearer : ℕ × ℕ × ℕ × ℕ × ℕ → ℕ × ℕ × ℕ × ℕ × ℕ → Prop :=
  Prod.Lex (· < ·) (Prod.Lex (· < ·) (Prod.Lex (· < ·) (Prod.Lex (· < ·) (· < ·))))

/-- Nothing comes nearer for ever. -/
theorem nearer_wellFounded : WellFounded Nearer :=
  wellFounded_lt.prod_lex (wellFounded_lt.prod_lex (wellFounded_lt.prod_lex
    (wellFounded_lt.prod_lex wellFounded_lt)))

/-- Distances of states with as many pending tasks. -/
theorem nearer_of_eq (hsize : s'.queueSize = s.queueSize)
    (h : Prod.Lex (· < ·) (Prod.Lex (· < ·) (Prod.Lex (· < ·) (· < ·)))
      s'.distance.2 s.distance.2) :
    Nearer s'.distance s.distance := by
  unfold State.distance at h ⊢
  rw [hsize]
  exact .right _ h

/-- **One leg of the schedule.**  While tasks are pending, some steps of the pool's own threads
    bring the next one closer to being taken. -/
theorem Open.closer (h : Open s) (hsize : 0 < s.queueSize) :
    ∃ tr s', Run Pool.ownStep s tr s' ∧ Open s' ∧ Nearer s'.distance s.distance := by
  have hless : ∀ {s' : State}, s'.queueSize = s.queueSize - 1 → Nearer s'.distance s.distance := by
    intro s' hs'
    apply Prod.Lex.left
    show s'.queueSize.toNat < s.queueSize.toNat
    omega
  have htaken : (∃ tr s', Run Pool.ownStep s tr s' ∧ OneLess s s') →
      ∃ tr s', Run Pool.ownStep s tr s' ∧ Open s' ∧ Nearer s'.distance s.distance := by
    rintro ⟨tr, s', hrun, hopen, hs'⟩
    exact ⟨tr, s', hrun, hopen, hless hs'⟩
  -- A worker on its way to the queue takes a task.
  by_cases hway : ∃ w ∈ s.workers, w.awake = true ∧ w ≠ .signalled
  · obtain ⟨w, hw, hawake, hnot⟩ := hway
    obtain ⟨i, hi⟩ := List.getElem?_of_mem hw
    exact htaken (h.takes hsize hi hawake hnot)
  -- Otherwise the manager ends a round on old numbers.
  by_cases hstale : 0 < s.manager.stale s.maxNum
  · obtain ⟨woken, s', hs, hsame, hlt⟩ := h.stale_step hstale
    exact ⟨_, s', Run.start.step hs, h.ownStep hs, nearer_of_eq hsame (.left _ _ hlt)⟩
  have hfresh : s.manager.stale s.maxNum = 0 := by omega
  -- Then the woken workers take a task or leave.
  by_cases hwoken : .signalled ∈ s.workers
  · obtain ⟨i, hi⟩ := List.getElem?_of_mem hwoken
    obtain ⟨woken, s', hs, hs' | rfl⟩ := h.woken_step hsize hi
    · exact ⟨_, s', Run.start.step hs, h.ownStep hs, hless hs'⟩
    · refine ⟨_, _, Run.start.step hs, h.ownStep hs, nearer_of_eq rfl (.right _ (.left _ _ ?_))⟩
      have hset := countP_set_add (· == .signalled) .exiting hi
      simp only [beq_self_eq_true, if_true, beq_iff_eq, reduceCtorEq, if_false] at hset
      show (s.workers.set i .exiting).countP _ < s.workers.countP _
      omega
  have hnone : s.workers.countP Worker.awake = 0 := by
    rw [List.countP_eq_zero]
    intro w hw hawake
    by_cases hws : w = .signalled
    · exact hwoken (hws ▸ hw)
    · exact hway ⟨w, hw, hawake, hws⟩
  have hroom : s.liveNum < s.maxNum := by
    rcases h.hopeful hsize with hpos | hroom
    · omega
    · exact hroom
  -- Then the leaving workers clear their slots.
  by_cases hexiting : .exiting ∈ s.workers
  · obtain ⟨i, hi⟩ := List.getElem?_of_mem hexiting
    have hs : Pool.ownStep s (.worker i none) = some { s with
        threadIDs := s.clearSlot (i + 1), workers := s.workers.set i .dead } := by
      rw [h.worker, State.worker, hi]
    have hset := countP_set_add (· == .exiting) .dead hi
    simp only [beq_self_eq_true, if_true, beq_iff_eq, reduceCtorEq, if_false] at hset
    have hsame : (s.workers.set i .dead).countP (· == .signalled)
        = s.workers.countP (· == .signalled) := countP_set_eq hi rfl
    refine ⟨_, _, Run.start.step hs, h.ownStep hs, nearer_of_eq rfl (.right _ ?_)⟩
    show Prod.Lex _ _ ((s.workers.set i .dead).countP _, _) _
    rw [hsame]
    refine .right _ (.left _ _ ?_)
    show (s.workers.set i .dead).countP _ < s.workers.countP _
    omega
  -- Then the manager goes through a round that adds a thread.
  have hzero : s.workers.countP (· == .exiting) = 0 := by
    rw [List.countP_eq_zero]
    intro w hw heq
    exact hexiting (beq_iff_eq.mp heq ▸ hw)
  rcases h.round_step hsize hfresh hzero hroom with hdone | ⟨m, hs, hm, hlt⟩
  · exact htaken hdone
  · refine ⟨_, _, Run.start.step hs, h.ownStep hs, nearer_of_eq rfl ?_⟩
    show Prod.Lex _ _ (m.stale s.maxNum, _) (s.manager.stale s.maxNum, _)
    rw [hm, hfresh]
    exact .right _ (.right _ (.right _ hlt))

/-- A pool is open when it has been created. -/
theorem Open.start {ok : Resources} {mem pool : ThreadPool} {min max queueSize : ℤ} (n : ℕ)
    (hcreate : threadPoolCreate ok mem min max queueSize = some pool) (hmin : 1 ≤ min)
    (hmax : min ≤ max) (hempty : pool.queueSize = 0) : Open (State.start pool n) := by
  refine ⟨Slotted.start n hcreate hmin hmax hempty, fun hsize => ?_, ?_, by simp [State.start],
    Or.inr ⟨0, rfl⟩⟩
  · have hsize' : 0 < pool.queueSize := hsize
    omega
  · rw [threadPoolCreate_some hcreate]
    rfl

/-- **The pool drains.**  From every state of a created pool before `shutDown` is set, some steps of
    its own threads lead to a state in which every task added so far has been taken. -/
theorem pool_drains (ok : Resources) (mem pool : ThreadPool) (min max queueSize : ℤ) (n : ℕ)
    (tr : List (State × Action)) (s : State)
    (hcreate : threadPoolCreate ok mem min max queueSize = some pool) (hmin : 1 ≤ min)
    (hmax : min ≤ max) (hcap : 1 ≤ queueSize) (hmem : mem.queueSize = 0)
    (hrun : Run step (State.start pool n) tr s) (hopen : s.shutDown = false) :
    ∃ tr' s', Run ownStep s tr' s' ∧ s'.queueSize = 0 ∧ s'.taken = s.added := by
  have hempty : pool.queueSize = 0 := by
    rw [threadPoolCreate_some hcreate]
    exact hmem
  -- Until `threadPoolDestroy` the pool is open in every state.
  have hs : Open s := by
    have hall : Open s ∨ s.shutDown = true := by
      refine hrun.invariant' (fun s => Open s ∨ s.shutDown = true)
        (Or.inl (Open.start n hcreate hmin hmax hempty)) fun s a s' hI hs => ?_
      cases hshut : s'.shutDown with
      | true => exact Or.inr rfl
      | false =>
        have hbefore := open_before (poolStep_of_step hs) hshut
        exact Or.inl ((hI.resolve_right (by simp [hbefore])).step hshut hs)
    exact hall.resolve_right (by simp [hopen])
  -- Nearer and nearer to an empty queue, and no producer adds anything.
  obtain ⟨tr', s', hrun', ⟨-, hadded⟩, hdone⟩ := Run.exists_of_runs nearer_wellFounded ownStep
    (fun s' => Open s' ∧ s'.added = s.added) (fun s' => ¬ 0 < s'.queueSize) State.distance
    (fun s₁ hI hnot => by
      obtain ⟨tr₁, s₂, hrun₁, hopen₂, hnear⟩ := hI.1.closer (not_not.mp hnot)
      refine ⟨tr₁, s₂, hrun₁, ⟨hopen₂, ?_⟩, hnear⟩
      exact hrun₁.invariant' (fun s' => s'.added = s.added) hI.2
        fun _ _ _ hadded hs => (ownStep_frame hs).1.trans hadded) ⟨hs, rfl⟩
  have hexact := exactQueue_run hcreate hcap hmem
    (hrun.trans (hrun'.mono fun _ _ _ => step_of_ownStep))
  have hzero : s'.queueSize = 0 := by
    have hnonneg := hexact.ring.size_nonneg
    omega
  -- With an empty queue everything that was added has been taken.
  have hpending : s'.pending = [] := by
    have hlen := ThreadPool.pending_length hexact.ring
    apply List.length_eq_zero_iff.mp
    omega
  refine ⟨tr', s', hrun', hzero, ?_⟩
  rw [← hadded, ← hexact.history, hpending, List.append_nil]

/-- The pool that sleeps on its third task takes it in the end. -/
theorem pool_drains_strayExit : ∃ tr s, Run step (State.start (smallPool 1 2 2) 1) tr s ∧
    s.workers = [.exiting, .waiting] ∧
      ∃ tr' s', Run ownStep s tr' s' ∧ s'.taken = [⟨1, 1⟩, ⟨2, 2⟩, ⟨3, 3⟩] := by
  obtain ⟨⟨tr, s⟩, hfollow, hres⟩ := Option.map_eq_some_iff.mp
    (show (follow step strayExit [] (State.start (smallPool 1 2 2) 1)).map
      (fun r => (r.2.shutDown, r.2.added, r.2.workers))
        = some (false, [⟨1, 1⟩, ⟨2, 2⟩, ⟨3, 3⟩], [.exiting, .waiting]) by decide +kernel)
  obtain ⟨hopen, hadded, hworkers⟩ : s.shutDown = false ∧
      s.added = [⟨1, 1⟩, ⟨2, 2⟩, ⟨3, 3⟩] ∧ s.workers = [.exiting, .waiting] := by
    simpa using hres
  have hrun := Run.start.of_follow hfollow
  obtain ⟨tr', s', hrun', -, htaken⟩ := pool_drains ⟨true, true, true⟩ (smallPool 0 0 0)
    (smallPool 1 2 2) 1 2 2 1 tr s (threadPoolCreate_smallPool 1 2 2) (by decide) (by decide)
    (by decide) rfl hrun hopen
  exact ⟨tr, s, hrun, hworkers, tr', s', hrun', htaken.trans hadded⟩

end MyCeph.Pool
