import MyCeph.Pool.Slots

namespace MyCeph.Pool

open Lib

/-!
# Who outlives `threadPoolDestroy`?

`threadPoolDestroy` sets the flag, joins the manager, signals `notEmpty` and frees the memory.  It
joins no worker and wakes no producer, so that whoever has not left by itself when it is
called can still be there when the memory is freed; and the round the manager is in can
add a thread that nobody waits for.

`Quiet` is the state without such threads.  Behind the flag every step keeps it, and the steps
of the manager and of `threadPoolDestroy` do not bring it about either.  A schedule that runs
these two alone shows that nothing less is enough (`destroy_safe_iff`).
-/

/-! ### What must have gone -/

/-- The producer is blocked in `pthread_cond_wait`. -/
def Producer.blocked : Producer → Bool
  | .waiting _ | .signalled _ => true
  | _ => false

/-- Every worker has ended and no producer is blocked in `threadPoolAdd`. -/
def State.AllGone (s : State) : Prop :=
  (∀ w ∈ s.workers, w.present = false) ∧ ∀ p ∈ s.producers, p.blocked = false

/-- A manager with these copies of the counters finds a slot for a new thread. -/
def State.HasRoom (s : State) (queueSize liveNum : ℤ) : Prop :=
  1 ≤ queueSize ∧ liveNum < s.maxNum ∧ ∃ k ∈ s.slots, s.threadIDs k = 0

/-- The manager is in a round in which it adds a thread, if the counters stay as they are. -/
def State.WillGrow (s : State) : Prop :=
  match s.manager with
  | .sleeping => s.HasRoom s.queueSize s.liveNum
  | .sizes queueSize liveNum | .adding queueSize liveNum _ => s.HasRoom queueSize liveNum
  | _ => False

/-- No thread of the pool is left, and the manager is about to add none. -/
def State.Quiet (s : State) : Prop := s.AllGone ∧ ¬ s.WillGrow

variable {s s' : State} {a : Action} {tr : List (State × Action)}

/-! ### The steps of the manager -/

theorem Worker.wake_present (w w' : Worker) (h : w.wake = some w') : w'.present = w.present := by
  obtain ⟨rfl, rfl⟩ := Worker.wake_eq_some h
  rfl

/-- A signal neither ends nor starts a thread. -/
theorem signal_present {ws ws' : List Worker} (h : Signalled Worker.wake ws ws') :
    (∀ w ∈ ws', w.present = false) ↔ ∀ w ∈ ws, w.present = false := by
  have hcount := h.countP_eq Worker.present Worker.wake_present
  have hnone : ∀ ws : List Worker,
      (∀ w ∈ ws, w.present = false) ↔ ws.countP Worker.present = 0 := by
    intro ws
    simp [List.countP_eq_zero]
  rw [hnone, hnone, hcount]

/-- The loop over a full table adds nothing. -/
theorem addThreads_full (liveNum : ℤ) (slots : List ℕ) (counter : ℕ) (s : State)
    (hfull : ∀ k ∈ slots, s.threadIDs k ≠ 0) : State.addThreads liveNum slots counter s = s := by
  induction slots with
  | nil => rfl
  | cons k slots ih =>
    unfold State.addThreads
    split
    · rw [if_neg (hfull k List.mem_cons_self)]
      exact ih fun j hj => hfull j (List.mem_cons_of_mem _ hj)
    · rfl

/-- **Step lemma of the manager**, once the flag is set: it ends its round, and then no thread is
    left if and only if none was and it was about to add none. -/
theorem ManagerStep.quiet_iff (h : ManagerStep s s') (hshut : s.shutDown = true) :
    s'.Quiet ↔ s.Quiet := by
  unfold State.Quiet State.AllGone State.WillGrow
  cases h with
  | sleeps hm hopen =>
    rw [hshut] at hopen
    cases hopen
  | @grows queueSize liveNum busyNum hm hsize hlive =>
    rw [hm]
    by_cases hfree : ∃ k ∈ s.slots, s.threadIDs k = 0
    · -- The thread that is added is there afterwards.
      have hnew := addThreads_atLock (by decide : 0 < NUMBER) hlive hfree
      constructor
      · rintro ⟨⟨hworkers, -⟩, -⟩
        cases hworkers _ hnew
      · rintro ⟨-, hnot⟩
        exact absurd ⟨hsize, hlive, hfree⟩ hnot
    · have hfull : ∀ k ∈ s.slots, s.threadIDs k ≠ 0 := fun k hk hzero => hfree ⟨k, hk, hzero⟩
      have hnot : ¬ s.HasRoom queueSize liveNum := fun hroom => hfree hroom.2.2
      rw [addThreads_full _ _ _ _ hfull]
      simp [hnot]
  | growsNot hm hnot =>
    rw [hm]
    have hnot' : ¬ s.HasRoom _ _ := fun hroom => hnot ⟨hroom.1, hroom.2.1⟩
    simp [hnot']
  | signals hm hsignal =>
    rw [hm]
    simp [signal_present hsignal]
  | ends hm | shrinks hm | shrinksNot hm | signalsEnd hm => rw [hm]
  | readsSizes hm | readsBusy hm =>
    rw [hm]
    rfl

/-! ### Behind the flag -/

/-- `threadPoolDestroy` has set the flag. -/
structure Closing (s : State) : Prop where
  shut : s.shutDown = true
  called : ∀ i, s.owner ≠ .creating i

/-- **Step lemma.**  Once the flag is set it stays set. -/
theorem Closing.step (h : Closing s) (hs : PoolStep s a s') : Closing s' := by
  -- No step opens the pool again.
  have hshut : s'.shutDown = true := by
    by_contra hopen
    have hopen' := open_before hs (Bool.not_eq_true _ ▸ hopen)
    rw [h.shut] at hopen'
    cases hopen'
  refine ⟨hshut, fun i => ?_⟩
  cases hs with
  | create howner | created howner => exact absurd howner (h.called _)
  | @grows liveNum woken m hroom =>
    obtain ⟨n, ids, -, heq⟩ := addThreads_eq liveNum s.slots 0 s
    rw [heq]
    exact h.called i
  | shutDown howner => simp
  | destroys o howner ho => exact ho i
  | destroySignals o howner ho hsignal => exact ho i
  | _ => exact h.called i

/-- The steps of `threadPoolDestroy` neither end nor start a thread. -/
theorem destroy_quiet {woken : Option ℕ} (hs : PoolStep s (.destroy woken) s') :
    s'.Quiet ↔ s.Quiet := by
  cases hs with
  | shutDown howner => rfl
  | destroys o howner ho => rfl
  | destroySignals o howner ho hsignal =>
    have hpresent := signal_present hsignal
    unfold State.Quiet State.AllGone State.WillGrow
    dsimp only
    rw [hpresent]
    rfl

/-- **Step lemma.**  Behind the flag every step leaves a quiet pool quiet. -/
theorem quiet_step (h : s.Quiet) (hclosing : Closing s) (hs : step s a = some s') :
    s'.Quiet := by
  have hs' := poolStep_of_step hs
  obtain ⟨⟨hworkers, hproducers⟩, hround⟩ := id h
  -- A producer that moves is not blocked afterwards, since the flag is set.
  have hmoves : ∀ j p, p.blocked = false → ∀ q ∈ s.producers.set j p, q.blocked = false := by
    intro j p hp q hq
    rcases List.mem_or_eq_of_mem_set hq with hq | rfl
    · exact hproducers q hq
    · exact hp
  -- There is no worker to take a step.
  have hnone : ∀ {i : ℕ} {w : Worker}, s.workers[i]? = some w → w.present = true → False := by
    intro i w hpc hw
    have hgone := hworkers w (List.mem_of_getElem? hpc)
    rw [hw] at hgone
    cases hgone
  cases a with
  | create =>
    cases hs' with
    | create howner | created howner => exact absurd howner (hclosing.called _)
  | call j task =>
    cases hs' with
    | call howner hpc => exact ⟨⟨hworkers, hmoves j _ rfl⟩, hround⟩
  | producer j woken =>
    cases hs' with
    | addRefused hpc hshut => exact ⟨⟨hworkers, hmoves j _ rfl⟩, hround⟩
    | addWaits hpc hfull hopen | add hpc hroom hopen =>
      rw [hclosing.shut] at hopen
      cases hopen
  | worker i woken =>
    cases hs' with
    | takeWaits henters | takeQuits henters | take henters =>
      obtain ⟨w, hpc, hw⟩ := henters.present
      exact (hnone hpc hw).elim
    | leave hpc | starts hpc | ends hpc | threadExit hpc => exact (hnone hpc rfl).elim
  | manager woken =>
    exact ((managerStep_of_step hs).quiet_iff hclosing.shut).mpr h
  | destroy woken => exact (destroy_quiet hs').mpr h

/-- **Run lemma.** -/
theorem quiet_run (h : s.Quiet) (hclosing : Closing s) (hrun : Run step s tr s') :
    s'.Quiet := by
  have hinv := hrun.invariant' (fun s => Closing s ∧ s.Quiet) ⟨hclosing, h⟩
    (fun s a s' hI hs => ⟨hI.1.step (poolStep_of_step hs), quiet_step hI.2 hI.1 hs⟩)
  exact hinv.2

/-! ### The manager and `threadPoolDestroy` alone -/

/-- How far the manager is from the end, once the flag is set. -/
def Manager.rank : Manager → ℕ
  | .done => 0
  | .top => 1
  | .signals n => n + 2
  | .removing _ _ => NUMBER + 3
  | .adding _ _ _ => NUMBER + 4
  | .sizes _ _ => NUMBER + 5
  | .sleeping => NUMBER + 6

/-- How far `threadPoolDestroy` is from the end, when it has joined the manager. -/
def Owner.rank (liveNum : ℤ) : Owner → ℕ
  | .joining => 2 * liveNum.toNat + 2
  | .signals i => 2 * (liveNum - i).toNat + 1
  | .signalling i => 2 * (liveNum - (i + 1)).toNat + 2
  | _ => 0

/-- The manager can go on until it has ended. -/
theorem manager_progress (hshut : s.shutDown = true) (hnot : s.manager ≠ .done) :
    ∃ woken s', s.manage woken = some s' ∧ s'.manager.rank < s.manager.rank := by
  unfold State.manage
  -- One case for each place the manager can be at; each step brings it nearer to its end.
  split
  · rename_i hm
    refine ⟨none, _, rfl, ?_⟩
    simp [hm, hshut, Manager.rank]
  · rename_i hm
    refine ⟨none, _, rfl, ?_⟩
    simp [hm, Manager.rank]
  · rename_i hm
    refine ⟨none, _, rfl, ?_⟩
    simp [hm, Manager.rank]
  · rename_i hm
    split
    · refine ⟨none, _, rfl, ?_⟩
      simp [hm, Manager.rank]
    · refine ⟨none, _, rfl, ?_⟩
      simp [hm, Manager.rank]
  · rename_i hm
    split
    · refine ⟨none, _, rfl, ?_⟩
      simp [hm, Manager.rank]
    · refine ⟨none, _, rfl, ?_⟩
      simp [hm, Manager.rank]
  · rename_i hm
    refine ⟨none, _, rfl, ?_⟩
    simp [hm, Manager.rank]
  · rename_i n hm
    obtain ⟨woken, workers, hsignal⟩ := exists_signal Worker.wake s.workers
    refine ⟨woken, _, Option.map_eq_some_iff.mpr ⟨workers, hsignal, rfl⟩, ?_⟩
    simp [hm, Manager.rank]
  · rename_i hm
    exact absurd hm hnot

/-- `threadPoolDestroy` is under way. -/
def Owner.destroys : Owner → Prop
  | .creating _ | .created => False
  | _ => True

/-- `threadPoolDestroy` can go on until it has freed the memory. -/
theorem destroy_progress (hdone : s.manager = .done) (howner : s.owner.destroys)
    (hnot : s.owner ≠ .freed) :
    ∃ woken s', s.threadPoolDestroy woken = some s' ∧ s'.manager = .done ∧ s'.owner.destroys ∧
      s'.owner.rank s'.liveNum < s.owner.rank s.liveNum := by
  unfold State.threadPoolDestroy
  -- The owner joins the manager, then signals once for each live worker.
  split
  · rename_i ho
    rw [ho] at howner
    exact howner.elim
  · rename_i ho
    refine ⟨none, _, if_pos hdone, hdone, trivial, ?_⟩
    simp [ho, Owner.rank]
  · rename_i i ho
    split
    · rename_i hlt
      refine ⟨none, _, rfl, hdone, trivial, ?_⟩
      simp only [ho, Owner.rank]
      omega
    · refine ⟨none, _, rfl, hdone, trivial, ?_⟩
      simp [ho, Owner.rank]
  · rename_i i ho
    obtain ⟨woken, workers, hsignal⟩ := exists_signal Worker.wake s.workers
    refine ⟨woken, _, Option.map_eq_some_iff.mpr ⟨workers, hsignal, rfl⟩, hdone, trivial, ?_⟩
    simp [ho, Owner.rank]
  · rename_i hcreated hjoining hsignals hsignalling
    cases ho : s.owner with
    | creating i =>
      rw [ho] at howner
      exact howner.elim
    | created => exact absurd ho hcreated
    | joining => exact absurd ho hjoining
    | signals i => exact absurd ho (hsignals i)
    | signalling i => exact absurd ho (hsignalling i)
    | freed => exact absurd ho hnot

/-- From a state that is not quiet, a run of the manager and of `threadPoolDestroy` frees the
    memory under a thread. -/
theorem freed_in_use (hshut : s.shutDown = true) (howner : s.owner = .joining) (h : ¬ s.Quiet) :
    ∃ tr s', Run step s tr s' ∧ s'.owner = .freed ∧ ¬ s'.AllGone := by
  -- The manager ends its round.
  obtain ⟨tr₁, s₁, hrun₁, ⟨hshut₁, howner₁, hquiet₁⟩, hdone₁⟩ :=
    Run.exists_of_rank step (fun s => s.shutDown = true ∧ s.owner = .joining ∧ ¬ s.Quiet)
      (fun s => s.manager = .done) (fun s => s.manager.rank)
      (fun s ⟨hshut, howner, hquiet⟩ hnot => by
        obtain ⟨woken, s', hmanage, hlt⟩ := manager_progress hshut hnot
        have hs : step s (.manager woken) = some s' := by
          unfold step
          rw [if_neg (by simp [howner])]
          exact hmanage
        have hs' := poolStep_of_step hs
        have hclosing : Closing s := ⟨hshut, by simp [howner]⟩
        exact ⟨_, s', hs, ⟨(hclosing.step hs').shut, (manage_owner hs').trans howner,
          ((managerStep_of_step hs).quiet_iff hshut).not.mpr hquiet⟩, hlt⟩)
      ⟨hshut, howner, h⟩
  -- `threadPoolDestroy` sends its signals.
  obtain ⟨tr₂, s₂, hrun₂, ⟨hdone₂, -, hquiet₂⟩, hfreed⟩ :=
    Run.exists_of_rank step (fun s => s.manager = .done ∧ s.owner.destroys ∧ ¬ s.Quiet)
      (fun s => s.owner = .freed) (fun s => s.owner.rank s.liveNum)
      (fun s ⟨hdone, howner, hquiet⟩ hnot => by
        obtain ⟨woken, s', hdestroy, hdone', howner', hlt⟩ := destroy_progress hdone howner hnot
        have hs : step s (.destroy woken) = some s' := by
          unfold step
          rw [if_neg hnot]
          exact hdestroy
        have hs' := poolStep_of_step hs
        exact ⟨_, s', hs, ⟨hdone', howner', (destroy_quiet hs').not.mpr hquiet⟩, hlt⟩)
      ⟨hdone₁, by simp [howner₁, Owner.destroys], hquiet₁⟩
  refine ⟨_, s₂, hrun₁.trans hrun₂, hfreed, fun hgone => hquiet₂ ⟨hgone, ?_⟩⟩
  simp [State.WillGrow, hdone₂]

/-- **When the pool can be destroyed safely.**  Behind a call of `threadPoolDestroy` every run
    that frees the memory has seen all workers end and no producer blocked, if and only if
    that was so before the call and the manager was about to add no thread. -/
theorem destroy_safe_iff (s s₁ : State) (howner : s.owner = .created)
    (hcall : step s (.destroy none) = some s₁) :
    (∀ tr s', Run step s₁ tr s' → s'.owner = .freed → s'.AllGone) ↔ s.Quiet := by
  obtain rfl : s₁ = { s with shutDown := true, owner := .joining } := by
    simpa [step, State.threadPoolDestroy, howner] using hcall.symm
  constructor
  · intro hall
    by_contra hquiet
    obtain ⟨tr, s', hrun, hfreed, hleft⟩ :=
      freed_in_use (s := { s with shutDown := true, owner := .joining }) rfl rfl hquiet
    exact hleft (hall tr s' hrun hfreed)
  · intro hquiet tr s' hrun _
    have hquiet₁ : State.Quiet { s with shutDown := true, owner := .joining } := hquiet
    exact (quiet_run hquiet₁ ⟨rfl, by simp⟩ hrun).1

/-- The life of a pool that may do without workers: it adds one for a task, and the worker leaves
    and ends when it has run the task. -/
def emptiedPool : List Action :=
  List.flatten
    [[.create, .call 0 ⟨1, 1⟩, .producer 0 none], List.replicate 5 (.manager none),
      List.replicate 4 (.worker 0 none), List.replicate 5 (.manager none),
      [.manager (some 0), .manager none, .manager none, .worker 0 none, .worker 0 none]]

/-- The one worker has left before `threadPoolDestroy` is called. -/
theorem destroy_safe_iff_emptiedPool : ∃ tr s s₁ tr' s',
    Run step (State.start (smallPool 0 1 1) 1) tr s ∧ s.workers = [.dead] ∧
      step s (.destroy none) = some s₁ ∧ Run step s₁ tr' s' ∧ s'.owner = .freed ∧ s'.AllGone := by
  obtain ⟨⟨tr, s⟩, hfollow, hres⟩ := Option.map_eq_some_iff.mp
    (show (follow step emptiedPool [] (State.start (smallPool 0 1 1) 1)).map
      (fun r => (r.2.owner, r.2.workers, r.2.producers, r.2.manager,
        (step r.2 (.destroy none)).bind fun s₁ =>
          (follow step [.manager none, .destroy none, .destroy none] [] s₁).map fun r => r.2.owner))
        = some (.created, [.dead], [.idle], .top, some .freed) by decide +kernel)
  obtain ⟨howner, hworkers, hproducers, hmanager, hdestroy⟩ : s.owner = .created ∧
      s.workers = [.dead] ∧ s.producers = [.idle] ∧ s.manager = .top ∧
      ((step s (.destroy none)).bind fun s₁ =>
        (follow step [.manager none, .destroy none, .destroy none] [] s₁).map fun r => r.2.owner)
        = some .freed := by
    simpa using hres
  obtain ⟨s₁, hcall, hdestroy⟩ := Option.bind_eq_some_iff.mp hdestroy
  obtain ⟨⟨tr', s'⟩, hfollow', hfreed⟩ := Option.map_eq_some_iff.mp hdestroy
  have hrun' := Run.start.of_follow hfollow'
  have hquiet : s.Quiet := by
    simp [State.Quiet, State.AllGone, State.WillGrow, hworkers, hproducers, hmanager,
      Worker.present, Producer.blocked]
  have hgone := (destroy_safe_iff s s₁ howner hcall).mpr hquiet tr' s' hrun' hfreed
  exact ⟨tr, s, s₁, tr', s', Run.start.of_follow hfollow, hworkers, hcall, hrun', hfreed, hgone⟩

/-- A pool with at least one thread is never destroyed safely: from every state that it can be in
    when `threadPoolDestroy` is called, some run frees the memory under a thread. -/
theorem destroy_never_safe {ok : Resources} {mem pool : ThreadPool} {min max queueSize : ℤ} {n : ℕ}
    (hcreate : threadPoolCreate ok mem min max queueSize = some pool) (hmin : 1 ≤ min)
    (hempty : pool.queueSize = 0) (hrun : Run step (State.start pool n) tr s)
    (howner : s.owner = .created) (hopen : s.shutDown = false) :
    ∃ tr' s', Run step s tr' s' ∧ s'.owner = .freed ∧ ¬ s'.AllGone := by
  have hacc : Accounted s :=
    hrun.invariant Accounted (fun s _ => s.shutDown = false) (Accounted.start n hcreate hmin hempty)
      (fun s a s' hI hG hs => hI.step hG (poolStep_of_step hs)) (run_open hrun hopen)
  -- Some worker is live, and nothing makes it leave before the memory is freed.
  have hquiet : ¬ s.Quiet := by
    intro hquiet
    obtain ⟨w, hw, hlive⟩ := List.countP_pos_iff.mp (hacc.live_pos (by simp [howner]))
    have hgone := hquiet.1.1 w hw
    cases w <;> simp_all [Worker.live, Worker.present]
  obtain ⟨tr', s', hrun', hfreed, hleft⟩ :=
    freed_in_use (s := { s with shutDown := true, owner := .joining }) rfl rfl hquiet
  have hcall : step s (.destroy none) = some { s with shutDown := true, owner := .joining } := by
    simp [step, State.threadPoolDestroy, howner]
  exact ⟨_, s', (Run.start.step hcall).trans hrun', hfreed, hleft⟩

/-- One worker runs a task, a second task is in the queue, and the producer of a third one waits
    for room. -/
def busyPool : List Action :=
  [.create, .create, .call 0 ⟨1, 1⟩, .producer 0 none, .worker 0 none, .worker 0 none,
    .call 0 ⟨2, 2⟩, .producer 0 none, .call 0 ⟨3, 3⟩, .producer 0 none]

/-- **The pool is freed under its threads.**  When the memory is freed the worker still runs its
    task, behind which it locks `mutexBusy`, and the producer is still blocked. -/
theorem freed_under_worker : ∃ tr s s₁ tr' s',
    Run step (State.start (smallPool 1 1 1) 1) tr s ∧ s.owner = .created ∧
      step s (.destroy none) = some s₁ ∧ Run step s₁ tr' s' ∧ s'.owner = .freed ∧
      s'.workers = [.running ⟨1, 1⟩] ∧ s'.producers = [.waiting ⟨3, 3⟩] ∧ ¬ s'.AllGone := by
  obtain ⟨⟨tr, s⟩, hfollow, hres⟩ := Option.map_eq_some_iff.mp
    (show (follow step busyPool [] (State.start (smallPool 1 1 1) 1)).map
      (fun r => (r.2.owner, (step r.2 (.destroy none)).bind fun s₁ =>
        (follow step ([.manager none] ++ List.replicate 4 (.destroy none)) [] s₁).map
          fun r => (r.2.owner, r.2.workers, r.2.producers)))
        = some (.created, some (.freed, [.running ⟨1, 1⟩], [.waiting ⟨3, 3⟩]))
        by decide +kernel)
  obtain ⟨howner, hdestroy⟩ := Prod.ext_iff.mp hres
  obtain ⟨s₁, hcall, hdestroy⟩ := Option.bind_eq_some_iff.mp hdestroy
  obtain ⟨⟨tr', s'⟩, hfollow', hres'⟩ := Option.map_eq_some_iff.mp hdestroy
  obtain ⟨hfreed, hworkers, hproducers⟩ : s'.owner = .freed ∧ s'.workers = [.running ⟨1, 1⟩] ∧
      s'.producers = [.waiting ⟨3, 3⟩] := by
    simpa using hres'
  refine ⟨tr, s, s₁, tr', s', Run.start.of_follow hfollow, howner, hcall,
    Run.start.of_follow hfollow', hfreed, hworkers, hproducers, fun hgone => ?_⟩
  have hended := hgone.1 (.running ⟨1, 1⟩) (by rw [hworkers]; exact List.mem_singleton_self _)
  cases hended

end MyCeph.Pool
