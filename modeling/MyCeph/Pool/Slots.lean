import MyCeph.Pool.Wakeup

namespace MyCeph.Pool

open Lib

/-!
# Counting threads by their slots

Every thread that is not dead has a slot of `threadIDs`, and no other slot is in use (`SlotsOk`).
The manager fills free slots only, a leaving worker clears its own, and so the number of
slots bounds the number of threads however stale the manager's copy of `liveNum` is
(`thread_accounting`).

While `threadPoolCreate` is still creating threads the slots it has not reached are free: the
queue is empty then, so that the manager fills none of them (`Creating`).
-/

/-! ### The table -/

/-- The table of thread ids, as a list. -/
def ThreadPool.ids (p : ThreadPool) : List ℕ := p.slots.map p.threadIDs

/-- The thread has not ended. -/
def Worker.present : Worker → Bool
  | .dead => false
  | _ => true

/-- The slots in use are those of the threads that have not ended. -/
structure SlotsOk (p : ThreadPool) (workers : List Worker) : Prop where
  count : p.ids.countP (· != 0) = workers.countP Worker.present
  held : ∀ (i : ℕ) w, workers[i]? = some w → w.present = true → ∃ k ∈ p.slots, p.threadIDs k = i + 1

variable {p : ThreadPool} {ws : List Worker} {s s' : State} {a : Action}
  {tr : List (State × Action)}

/-- The entry of slot `k`. -/
theorem ThreadPool.ids_getElem? {k : ℕ} (hk : k ∈ p.slots) : p.ids[k]? = some (p.threadIDs k) := by
  unfold ThreadPool.slots at hk
  simp [ThreadPool.ids, ThreadPool.slots, List.mem_range.mp hk]

/-- Storing an id in the table. -/
theorem ThreadPool.ids_update (k id : ℕ) :
    { p with threadIDs := Function.update p.threadIDs k id }.ids = p.ids.set k id := by
  apply List.ext_getElem
  · simp [ThreadPool.ids, ThreadPool.slots]
  · intro j hj _
    simp only [ThreadPool.ids, ThreadPool.slots, List.getElem_map, List.getElem_range,
      List.getElem_set, Function.update_apply, eq_comm]

/-- A new thread takes a free slot. -/
theorem SlotsOk.fill (h : SlotsOk p ws) {k : ℕ} (hk : k ∈ p.slots) (hfree : p.threadIDs k = 0) :
    SlotsOk { p with threadIDs := Function.update p.threadIDs k (ws.length + 1) }
      (ws ++ [.atLock]) := by
  have hid : p.ids[k]? = some 0 := by rw [ThreadPool.ids_getElem? hk, hfree]
  constructor
  · have hset := countP_set_add (· != 0) (ws.length + 1) hid
    have hnew : (ws ++ [Worker.atLock]).countP Worker.present = ws.countP Worker.present + 1 := by
      simp [Worker.present]
    rw [ThreadPool.ids_update, hnew, ← h.count]
    simpa using hset
  · intro i w hi hw
    by_cases hlt : i < ws.length
    · rw [List.getElem?_append_left hlt] at hi
      obtain ⟨k', hk', hid'⟩ := h.held i w hi hw
      refine ⟨k', hk', ?_⟩
      have hne : k' ≠ k := by
        rintro rfl
        omega
      exact (Function.update_of_ne hne _ _).trans hid'
    · -- The new thread.
      obtain rfl : i = ws.length := by
        have := (List.getElem?_eq_some_iff.mp hi).1
        rw [List.length_append, List.length_singleton] at this
        omega
      exact ⟨k, hk, Function.update_self _ _ _⟩

/-- A thread that ends clears its slot. -/
theorem SlotsOk.clear (h : SlotsOk p ws) {i : ℕ} (hpc : ws[i]? = some .exiting) :
    SlotsOk { p with threadIDs := p.clearSlot (i + 1) } (ws.set i .dead) := by
  obtain ⟨k₀, hk₀, hid₀⟩ := h.held i _ hpc rfl
  -- The search through the table ends at a slot with this id.
  obtain ⟨k, hfind⟩ : ∃ k, p.slots.find? (fun k => p.threadIDs k == i + 1) = some k := by
    rw [← Option.isSome_iff_exists, List.find?_isSome]
    exact ⟨k₀, hk₀, beq_iff_eq.mpr hid₀⟩
  have hk : k ∈ p.slots := List.mem_of_find?_eq_some hfind
  have hid : p.threadIDs k = i + 1 := by simpa using List.find?_some hfind
  have hclear : p.clearSlot (i + 1) = Function.update p.threadIDs k 0 := by
    unfold ThreadPool.clearSlot
    rw [hfind]
  rw [hclear]
  constructor
  · have hset := countP_set_add (· != 0) 0 (ThreadPool.ids_getElem? hk)
    have hdead := countP_set_add Worker.present .dead hpc
    have hcount := h.count
    simp only [hid, Worker.present, bne_iff_ne, ne_eq, Nat.add_one_ne_zero, not_false_eq_true,
      if_true, not_true_eq_false, if_false, Bool.false_eq_true] at hset hdead
    rw [ThreadPool.ids_update]
    omega
  · intro j w hj hw
    rw [List.getElem?_set] at hj
    split at hj
    · split at hj
      · cases hj
        cases hw
      · cases hj
    · rename_i hij
      obtain ⟨k', hk', hid'⟩ := h.held j w hj hw
      refine ⟨k', hk', ?_⟩
      have hne : k' ≠ k := by
        rintro rfl
        omega
      exact (Function.update_of_ne hne _ _).trans hid'

/-- A thread that moves and does not end keeps its slot. -/
theorem SlotsOk.move (h : SlotsOk p ws) {i : ℕ} {w w' : Worker} (hpc : ws[i]? = some w)
    (hw : w.present = true) (hw' : w'.present = true) : SlotsOk p (ws.set i w') := by
  refine ⟨h.count.trans (countP_set_eq hpc (hw'.trans hw.symm)).symm, fun j v hj hv => ?_⟩
  rw [List.getElem?_set] at hj
  split at hj
  · rename_i hij
    exact h.held j w (hij ▸ hpc) hw
  · exact h.held j v hj hv

theorem SlotsOk.signal {ws' : List Worker} (h : SlotsOk p ws)
    (hsignal : Signalled Worker.wake ws ws') : SlotsOk p ws' := by
  cases hsignal with
  | lost => exact h
  | woken hp hw =>
    obtain ⟨rfl, rfl⟩ := Worker.wake_eq_some hw
    exact h.move hp rfl rfl

/-- There are at most as many threads as slots. -/
theorem SlotsOk.present_le (h : SlotsOk p ws) : ws.countP Worker.present ≤ p.maxNum.toNat := by
  rw [← h.count]
  have hlen : p.ids.length = p.maxNum.toNat := by simp [ThreadPool.ids, ThreadPool.slots]
  exact hlen ▸ List.countP_le_length

theorem Enters.present {i : ℕ} {e : ℤ} (h : Enters s i e) :
    ∃ w, s.workers[i]? = some w ∧ w.present = true := by
  cases h with
  | locks hpc => exact ⟨_, hpc, rfl⟩
  | notAsked hpc _ => exact ⟨_, hpc, rfl⟩
  | stays hpc _ _ => exact ⟨_, hpc, rfl⟩

/-- **Rule for the loop that adds threads**: what a new thread in a free slot keeps. -/
theorem addThreads_rule (I : State → Prop)
    (hfill : ∀ s k, I s → k ∈ s.slots → s.threadIDs k = 0 →
      I { s.createWorker k with liveNum := s.liveNum + 1 })
    (liveNum : ℤ) (slots : List ℕ) (counter : ℕ) (s : State) (hslots : ∀ k ∈ slots, k ∈ s.slots)
    (h : I s) : I (State.addThreads liveNum slots counter s) := by
  induction slots generalizing counter s with
  | nil => exact h
  | cons k slots ih =>
    have hrest : ∀ j ∈ slots, j ∈ s.slots := fun j hj => hslots j (List.mem_cons_of_mem _ hj)
    unfold State.addThreads
    split
    · split
      · rename_i hfree
        exact ih _ _ hrest (hfill s k h (hslots k List.mem_cons_self) hfree)
      · exact ih counter s hrest h
    · exact h

/-- **Step lemma of the table**, once the threads of `threadPoolCreate` have been created. -/
theorem SlotsOk.step (h : SlotsOk s.toThreadPool s.workers)
    (hfree : ∀ i, s.owner = .creating i → (i : ℤ) < s.minNum → i ∈ s.slots ∧ s.threadIDs i = 0)
    (hs : PoolStep s a s') : SlotsOk s'.toThreadPool s'.workers := by
  cases hs with
  | create howner hlt =>
    obtain ⟨hk, hzero⟩ := hfree _ howner hlt
    exact h.fill hk hzero
  | add hpc hroom hopen hsignal =>
    have hsignal' := h.signal hsignal
    exact ⟨hsignal'.count, hsignal'.held⟩
  | takeWaits henters hempty hopen =>
    obtain ⟨w, hpc, hw⟩ := henters.present
    have hmove := h.move hpc hw (rfl : Worker.waiting.present = true)
    exact ⟨hmove.count, hmove.held⟩
  | takeQuits henters hshut =>
    obtain ⟨w, hpc, hw⟩ := henters.present
    have hmove := h.move hpc hw (rfl : Worker.exiting.present = true)
    exact ⟨hmove.count, hmove.held⟩
  | take henters hsome hopen hsignal =>
    obtain ⟨w, hpc, hw⟩ := henters.present
    have hmove := h.move hpc hw (rfl : (Worker.holds s.front).present = true)
    exact ⟨hmove.count, hmove.held⟩
  | leave hpc hexit hlive =>
    have hmove := h.move hpc rfl (rfl : Worker.exiting.present = true)
    exact ⟨hmove.count, hmove.held⟩
  | @starts i task woken hpc =>
    have hmove := h.move hpc rfl (rfl : (Worker.running task).present = true)
    exact ⟨hmove.count, hmove.held⟩
  | ends hpc =>
    have hmove := h.move hpc rfl (rfl : Worker.atLock.present = true)
    exact ⟨hmove.count, hmove.held⟩
  | threadExit hpc => exact h.clear hpc
  | @grows liveNum woken m hroom =>
    -- `addThreads` fills free slots only, one after the other.
    have hgrown := addThreads_rule (fun s => SlotsOk s.toThreadPool s.workers)
      (fun s k hI hk hzero => by
        have hfill := hI.fill hk hzero
        exact ⟨hfill.count, hfill.held⟩) liveNum s.slots 0 s (fun _ hk => hk) h
    exact ⟨hgrown.count, hgrown.held⟩
  | managerSignals m hsignal => exact h.signal hsignal
  | destroySignals o howner ho hsignal => exact h.signal hsignal
  | _ => exact ⟨h.count, h.held⟩

/-! ### While threads are being created -/

/-- The manager's copy of `queueSize`. -/
def Manager.queueSize : Manager → ℤ
  | .sizes queueSize _ | .adding queueSize _ _ => queueSize
  | _ => 0

/-- Before it creates thread `i`, `threadPoolCreate` finds the slots from `i` on free, and the
    manager knows of no task. -/
structure Creating (s : State) (i : ℕ) : Prop where
  free : ∀ k ∈ s.slots, i ≤ k → s.threadIDs k = 0
  manager : s.manager.queueSize = 0

/-- A manager that knows of no task adds no thread. -/
theorem ManagerStep.idle (h : ManagerStep s s') (hempty : s.queueSize = 0)
    (hidle : s.manager.queueSize = 0) :
    s'.manager.queueSize = 0 ∧ s'.threadIDs = s.threadIDs ∧ s'.maxNum = s.maxNum := by
  cases h with
  | readsSizes hm => exact ⟨hempty, rfl, rfl⟩
  | readsBusy hm =>
    rw [hm] at hidle
    exact ⟨hidle, rfl, rfl⟩
  | @grows queueSize liveNum busyNum hm hsize =>
    rw [hm] at hidle
    have hzero : queueSize = 0 := hidle
    omega
  | _ => exact ⟨rfl, rfl, rfl⟩

/-- Slots that are free stay free when a thread ends. -/
theorem ThreadPool.clearSlot_free (tid k : ℕ) (h : p.threadIDs k = 0) : p.clearSlot tid k = 0 := by
  unfold ThreadPool.clearSlot
  cases p.slots.find? fun i => p.threadIDs i == tid with
  | none => exact h
  | some i =>
    dsimp only
    rw [Function.update_apply]
    split
    · rfl
    · exact h

/-- The manager does not touch the owner. -/
theorem manage_owner {woken : Option ℕ} (hs : PoolStep s (.manager woken) s') :
    s'.owner = s.owner := by
  cases hs with
  | grows m hlive =>
    obtain ⟨n, ids, -, heq⟩ := addThreads_eq _ s.slots 0 s
    rw [heq]
  | _ => rfl

/-- **Step lemma of the creation.** -/
theorem Creating.step (hacc : Accounted s) (h : ∀ i, s.owner = .creating i → Creating s i)
    (hs : step s a = some s') : ∀ i, s'.owner = .creating i → Creating s' i := by
  intro i howner
  have hs' := poolStep_of_step hs
  cases a with
  -- The manager sees an empty queue while the pool is created, and leaves the slots alone.
  | manager woken =>
    rw [manage_owner hs'] at howner
    obtain ⟨hfree, hidle⟩ := h i howner
    obtain ⟨hidle', hids, hmax⟩ := (managerStep_of_step hs).idle (hacc.early i howner).1 hidle
    refine ⟨fun k hk hik => ?_, hidle'⟩
    rw [hids]
    refine hfree k ?_ hik
    unfold ThreadPool.slots at hk ⊢
    rwa [hmax] at hk
  | create =>
    cases hs' with
    | @create j howner' hlt =>
      obtain ⟨hfree, hidle⟩ := h j howner'
      obtain rfl : j + 1 = i := by cases howner; rfl
      refine ⟨fun k hk hik => ?_, hidle⟩
      have hne : k ≠ j := by omega
      exact (Function.update_of_ne hne _ _).trans (hfree k hk (by omega))
    | created howner' hge => cases howner
  | call j task =>
    cases hs' with
    | call hnot hpc => exact absurd howner (hnot i)
  | producer j woken =>
    cases hs' with
    | addWaits hpc | addRefused hpc | add hpc => exact absurd howner (hacc.inside hpc i)
  | worker j woken =>
    cases hs' with
    | threadExit hpc =>
      obtain ⟨hfree, hidle⟩ := h i howner
      exact ⟨fun k hk hik => ThreadPool.clearSlot_free _ k (hfree k hk hik), hidle⟩
    | takeWaits | takeQuits | take | leave | starts | ends =>
      obtain ⟨hfree, hidle⟩ := h i howner
      exact ⟨hfree, hidle⟩
  | destroy woken =>
    cases hs' with
    | shutDown howner' => cases howner
    | destroys o hnot ho | destroySignals o hnot ho => exact absurd howner (ho i)

/-! ### Runs -/

/-- The bookkeeping of the threads. -/
structure Slotted (s : State) : Prop where
  accounted : Accounted s
  min_le_max : s.minNum ≤ s.maxNum
  exit_nonneg : 0 ≤ s.exitNum
  slots : SlotsOk s.toThreadPool s.workers
  creating : ∀ i, s.owner = .creating i → Creating s i

/-- No step changes the bounds, and `exitNum` is only counted down to 0. -/
theorem bounds_step (hexit : 0 ≤ s.exitNum) (hs : PoolStep s a s') :
    s'.minNum = s.minNum ∧ s'.maxNum = s.maxNum ∧ 0 ≤ s'.exitNum := by
  have henters : ∀ {i e}, Enters s i e → 0 ≤ e := by
    intro i e h
    cases h with
    | locks | notAsked => exact hexit
    | stays hpc hpos hlive => omega
  cases hs with
  | takeWaits henter hempty hopen | takeQuits henter hshut | take henter hsome hopen hsignal =>
    exact ⟨rfl, rfl, henters henter⟩
  | leave hpc hpos hlive =>
    refine ⟨rfl, rfl, ?_⟩
    show 0 ≤ s.exitNum - 1
    omega
  | @grows liveNum woken m hroom =>
    obtain ⟨n, ids, -, heq⟩ := addThreads_eq liveNum s.slots 0 s
    rw [heq]
    exact ⟨rfl, rfl, hexit⟩
  | shrinks => exact ⟨rfl, rfl, Int.natCast_nonneg NUMBER⟩
  | _ => exact ⟨rfl, rfl, hexit⟩

/-- **Step lemma of the bookkeeping.** -/
theorem Slotted.step (h : Slotted s) (hopen : s.shutDown = false) (hs : step s a = some s') :
    Slotted s' := by
  have hs' := poolStep_of_step hs
  obtain ⟨hmin, hmax, hexit⟩ := bounds_step h.exit_nonneg hs'
  -- While the pool is created, slot `i` is the next one and is still free.
  have hslots : ∀ i : ℕ, s.owner = .creating i → (i : ℤ) < s.minNum →
      i ∈ s.slots ∧ s.threadIDs i = 0 := by
    intro i howner hlt
    have hle := h.min_le_max
    have hmem : i ∈ s.slots := List.mem_range.mpr (by omega)
    exact ⟨hmem, (h.creating i howner).free i hmem (Nat.le_refl i)⟩
  refine ⟨h.accounted.step hopen hs', ?_, hexit, h.slots.step hslots hs',
    Creating.step h.accounted h.creating hs⟩
  rw [hmin, hmax]
  exact h.min_le_max

/-- A pool before its threads are created. -/
theorem Slotted.start {ok : Resources} {mem pool : ThreadPool} {min max queueSize : ℤ} (n : ℕ)
    (hcreate : threadPoolCreate ok mem min max queueSize = some pool) (hmin : 1 ≤ min)
    (hmax : min ≤ max) (hempty : pool.queueSize = 0) : Slotted (State.start pool n) := by
  have hacc := Accounted.start n hcreate hmin hempty
  obtain ⟨hle, hexit, hfree⟩ : pool.minNum ≤ pool.maxNum ∧ 0 ≤ pool.exitNum ∧
      ∀ k ∈ pool.slots, pool.threadIDs k = 0 := by
    rw [threadPoolCreate_some hcreate]
    refine ⟨hmax, Int.le_refl 0, fun k hk => ?_⟩
    have hlt : k < max.toNat := List.mem_range.mp hk
    exact if_pos (by omega)
  refine ⟨hacc, hle, hexit, ⟨?_, ?_⟩, fun i _ => ⟨fun k hk _ => hfree k hk, rfl⟩⟩
  · show pool.ids.countP (· != 0) = 0
    rw [List.countP_eq_zero]
    intro id hid
    obtain ⟨k, hk, rfl⟩ := List.mem_map.mp hid
    simp [hfree k hk]
  · intro i w hi
    cases hi

/-- A thread that has not ended is live or about to clear its slot. -/
theorem countP_present (ws : List Worker) :
    ws.countP Worker.present = ws.countP Worker.live + ws.countP (· == .exiting) := by
  induction ws with
  | nil => rfl
  | cons w ws ih =>
    simp only [List.countP_cons, ih]
    cases w <;> simp [Worker.present, Worker.live] <;> omega

/-- **Thread accounting.**  In every run of a created pool with an empty queue, before `shutDown` is
    set, the live threads are within their bounds, `exitNum` is not negative, and the slots in use
    are those of the live threads and of the leaving ones that have not cleared theirs. -/
theorem thread_accounting (ok : Resources) (mem pool : ThreadPool) (min max queueSize : ℤ) (n : ℕ)
    (tr : List (State × Action)) (s : State)
    (hcreate : threadPoolCreate ok mem min max queueSize = some pool) (hmin : 1 ≤ min)
    (hmax : min ≤ max) (hempty : pool.queueSize = 0) (hrun : Run step (State.start pool n) tr s)
    (hcreated : ∀ i, s.owner ≠ .creating i) (hopen : s.shutDown = false) :
    s.minNum ≤ s.liveNum ∧ s.liveNum ≤ s.maxNum ∧ 0 ≤ s.exitNum ∧
      (s.slots.countP (fun k => s.threadIDs k != 0) : ℤ)
        = s.liveNum + s.workers.countP (· == .exiting) := by
  have hslotted : Slotted s :=
    hrun.invariant Slotted (fun s _ => s.shutDown = false)
      (Slotted.start n hcreate hmin hmax hempty) (fun s a s' hI hG hs => hI.step hG hs)
      (run_open hrun hopen)
  have hlive : s.liveNum = s.workers.countP Worker.live := by
    have hlive := hslotted.accounted.live_eq
    rw [State.toCreate_eq_zero hcreated] at hlive
    omega
  have hpresent := countP_present s.workers
  have hused : s.slots.countP (fun k => s.threadIDs k != 0) = s.workers.countP Worker.present := by
    rw [← hslotted.slots.count]
    unfold ThreadPool.ids
    rw [List.countP_map]
    rfl
  refine ⟨hslotted.accounted.min_le, ?_, hslotted.exit_nonneg, by omega⟩
  -- The bound is that of the table: no thread is live without a slot.
  have hle := hslotted.slots.present_le
  have hbounds := hslotted.min_le_max
  have hpos := hslotted.accounted.min_pos
  omega

/-- A pool with one worker that has grown to two, of which one leaves. -/
def grownPool : List Action :=
  List.flatten
    [[.create, .create, .call 0 ⟨1, 1⟩, .producer 0 none], List.replicate 5 (.manager none),
      [.call 0 ⟨2, 2⟩, .producer 0 none, .worker 0 none, .worker 1 none],
      List.replicate 8 (.manager none), List.replicate 3 (.worker 0 none),
      [.call 0 ⟨3, 3⟩, .producer 0 (some 0), .worker 0 none]]

/-- A worker is about to leave, and its slot is still counted. -/
theorem thread_accounting_grownPool : ∃ tr s, Run step (State.start (smallPool 1 2 2) 1) tr s ∧
    Worker.exiting ∈ s.workers ∧ (s.slots.countP (fun k => s.threadIDs k != 0) : ℤ)
        = s.liveNum + s.workers.countP (· == .exiting) := by
  obtain ⟨⟨tr, s⟩, hfollow, hres⟩ := Option.map_eq_some_iff.mp
    (show (follow step grownPool [] (State.start (smallPool 1 2 2) 1)).map
      (fun r => (r.2.shutDown, r.2.owner, r.2.workers.contains .exiting))
        = some (false, .created, true) by decide +kernel)
  obtain ⟨hopen, howner, hleaves⟩ : s.shutDown = false ∧ s.owner = .created ∧
      Worker.exiting ∈ s.workers := by
    simpa using hres
  have hrun := Run.start.of_follow hfollow
  have hall := thread_accounting ⟨true, true, true⟩ (smallPool 0 0 0) (smallPool 1 2 2) 1 2 2 1 tr s
    (threadPoolCreate_smallPool 1 2 2) (by decide) (by decide) rfl hrun (by simp [howner]) hopen
  exact ⟨tr, s, hrun, hleaves, hall.2.2.2⟩

end MyCeph.Pool
