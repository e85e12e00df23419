import MyCeph.Crush.Pooled
import MyCeph.Lib.CondVar

namespace MyCeph.Crush

open Lib

/-!
# Why the objects of the pooled run keep apart

All the main thread sees of the tasks is `outpos`.  The invariant (`Pooled.Ok`) is that `outpos`
and the tasks that are not through add up to the tasks added for the current object, and
that only tasks of this object are not through: so 3 means that none is left that could use
the buffer or `x`.  On a well-formed map the slots then hold what the tasks published
(`Pooled.Kept`).
-/

variable {H : CrushHash} {glob : Globals} {objectNum : ℕ} {s s' : Pooled} {a : PooledAction}

/-! ### The invariant -/

/-- The task has published its item, after which it touches nothing. -/
def PoolTask.isDone (t : PoolTask) : Bool :=
  match t.worker with
  | none => false
  | some w => w.pc.isDone

/-- How many tasks have been added for the current object. -/
def Phase.added : Phase → ℕ
  | .add fn => fn.slot
  | .spin | .free => 3
  | _ => 0

/-- The workers may use `firstn`. -/
def Phase.shared : Phase → Bool
  | .add _ | .spin => true
  | _ => false

/-- What the main thread has set up. -/
def Pooled.SetUp (s : Pooled) : Prop :=
  match s.phase with
  | .head => True
  | .alloc => s.firstn.x = 222 + s.i
  | .setOut out => s.firstn.x = 222 + s.i ∧ s.live out = true
  | .setOut2 out => s.firstn.x = 222 + s.i ∧ s.live out = true ∧ s.firstn.out = out
  | .setOutpos | .add _ | .spin | .free =>
    s.firstn.x = 222 + s.i ∧ s.live s.firstn.out = true ∧ s.firstn.out2 = s.firstn.out

/-- The tasks that have not published. -/
def Pooled.unfinished (s : Pooled) : ℕ := s.tasks.countP fun t => !t.isDone

/-- `fn` has been added for object `i`. -/
def Pooled.hasAdded (s : Pooled) (fn : DoWork) (i : ℕ) : Prop :=
  i < s.i ∨ i = s.i ∧ fn.slot < s.phase.added

/-- The function and the object of a task. -/
def PoolTask.is (t : PoolTask) (fn : DoWork) (i : ℕ) : Bool := t.fn == fn && t.object == i

/-- **The invariant of the pooled run.** -/
structure Pooled.Ok (s : Pooled) : Prop where
  setUp : s.SetUp
  bound : s.sh.outpos ≤ 3
  current : ∀ t ∈ s.tasks, t.isDone = false → s.phase.shared = true ∧ t.object = s.i
  count : s.phase.shared = true → s.sh.outpos + s.unfinished = s.phase.added
  once : ∀ fn i, s.hasAdded fn i → s.tasks.countP (fun t => t.is fn i) = 1
  added : ∀ t ∈ s.tasks, s.hasAdded t.fn t.object
  buf : ∀ t ∈ s.tasks, t.object = s.i → t.buf = s.firstn.out
  leaf : ∀ t ∈ s.tasks, ∀ w, t.worker = some w → LeafFrom s.firstn w

theorem DoWork.slot_lt (fn : DoWork) : fn.slot < 3 := by
  cases fn <;> decide

/-- Each function has a slot of its own. -/
theorem DoWork.slot_injective {fn fn' : DoWork} (h : fn.slot = fn'.slot) : fn = fn' := by
  cases fn <;> cases fn' <;> first | rfl | cases h

/-- A task is told by its function and its object. -/
theorem PoolTask.is_iff {fn : DoWork} {i : ℕ} {t : PoolTask} :
    t.is fn i = true ↔ t.fn = fn ∧ t.object = i := by
  simp [PoolTask.is]

/-- Between two objects every task has published. -/
theorem Pooled.Ok.idle (h : s.Ok) (hphase : s.phase.shared = false) :
    ∀ t ∈ s.tasks, t.isDone = true := by
  intro t ht
  by_contra hnot
  have hshared := (h.current t ht (Bool.not_eq_true _ ▸ hnot)).1
  rw [hphase] at hshared
  cases hshared

/-- Behind the spin loop every task has published. -/
theorem Pooled.unfinished_eq_zero (h : ∀ t ∈ s.tasks, t.isDone = true) : s.unfinished = 0 := by
  unfold Pooled.unfinished
  rw [List.countP_eq_zero]
  intro t ht
  simp [h t ht]

theorem leafFrom_of_isDone {f : FirstnInfo} {t : PoolTask} {w : Worker} (h : t.isDone = true)
    (hworker : t.worker = some w) : LeafFrom f w := by
  unfold PoolTask.isDone at h
  rw [hworker] at h
  unfold LeafFrom
  rw [Pc.isDone_iff.mp h]
  trivial

/-- A step of the main thread before it adds tasks. -/
theorem Pooled.Ok.prepare (h : s.Ok) {old phase : Phase} (hphase : s.phase = old)
    (hold : old.added = 0 ∧ old.shared = false) (hnew : phase.added = 0) {firstn : FirstnInfo}
    {sh : Shared} {live : ℕ → Bool} (hsetUp : Pooled.SetUp { s with
      phase := phase, firstn := firstn, sh := sh, live := live })
    (hbound : sh.outpos ≤ 3) (hcount : phase.shared = true → sh.outpos = 0) :
    Pooled.Ok { s with phase := phase, firstn := firstn, sh := sh, live := live } := by
  obtain ⟨hadded, hshared⟩ : s.phase.added = 0 ∧ s.phase.shared = false := by rwa [hphase]
  have hdone := h.idle hshared
  have hsame : ∀ fn i, Pooled.hasAdded { s with
      phase := phase, firstn := firstn, sh := sh, live := live } fn i ↔ s.hasAdded fn i := by
    intro fn i
    simp [Pooled.hasAdded, hadded, hnew]
  refine ⟨hsetUp, hbound, fun t ht hnot => ?_, fun hs => ?_, fun fn i hfn => ?_, fun t ht => ?_,
    fun t ht hobj => ?_, fun t ht w hw => leafFrom_of_isDone (hdone t ht) hw⟩
  · rw [hdone t ht] at hnot
    cases hnot
  · have hzero := Pooled.unfinished_eq_zero hdone
    have hout := hcount hs
    show sh.outpos + s.unfinished = phase.added
    omega
  · exact h.once fn i ((hsame fn i).mp hfn)
  · exact (hsame _ _).mpr (h.added t ht)
  · -- No task has been added for this object yet.
    have hobj' : t.object = s.i := hobj
    rcases h.added t ht with hlt | ⟨-, hslot⟩
    · omega
    · omega

/-- The main thread adds a task. -/
theorem Pooled.Ok.addTask (h : s.Ok) {fn : DoWork} (hphase : s.phase = .add fn) {phase : Phase}
    (hadded : phase.added = fn.slot + 1) (hsetUp : Pooled.SetUp { s with phase := phase })
    (hshared : phase.shared = true) :
    Pooled.Ok { s with tasks := s.tasks ++ [s.newTask fn], phase := phase } := by
  have hold : s.phase.shared = true := by rw [hphase]; rfl
  have hslot : s.phase.added = fn.slot := by rw [hphase]; rfl
  refine ⟨hsetUp, h.bound, fun t ht hnot => ?_, fun _ => ?_, fun fn' i hfn => ?_, fun t ht => ?_,
    fun t ht hobj => ?_, fun t ht w hw => ?_⟩
  · rcases List.mem_append.mp ht with ht | ht
    · exact ⟨hshared, (h.current t ht hnot).2⟩
    · obtain rfl := List.mem_singleton.mp ht
      exact ⟨hshared, rfl⟩
  · have hcount := h.count hold
    have hnew : (s.tasks ++ [s.newTask fn]).countP (fun t => !t.isDone) = s.unfinished + 1 := by
      simp [Pooled.unfinished, Pooled.newTask, PoolTask.isDone]
    show s.sh.outpos + (s.tasks ++ [s.newTask fn]).countP (fun t => !t.isDone) = phase.added
    omega
  · show (s.tasks ++ [s.newTask fn]).countP (fun t => t.is fn' i) = 1
    rw [List.countP_append, List.countP_singleton]
    by_cases hnew : (s.newTask fn).is fn' i = true
    · -- The function has not been added for this object before.
      obtain ⟨rfl, rfl⟩ := PoolTask.is_iff.mp hnew
      have hnone : s.tasks.countP (fun t => t.is (s.newTask fn).fn (s.newTask fn).object) = 0 := by
        rw [List.countP_eq_zero]
        intro t ht his
        obtain ⟨hfn', hobj⟩ := PoolTask.is_iff.mp his
        rcases h.added t ht with hlt | ⟨-, hlt⟩
        · exact absurd (hobj ▸ hlt) (Nat.lt_irrefl _)
        · rw [hfn', hslot] at hlt
          exact absurd hlt (Nat.lt_irrefl _)
      rw [hnone, if_pos hnew]
    · rw [if_neg hnew]
      refine h.once fn' i ?_
      rcases hfn with hlt | ⟨heq, hlt⟩
      · exact .inl hlt
      · have hlt' : fn'.slot < phase.added := hlt
        have hne : fn'.slot ≠ fn.slot := fun hslot' =>
          hnew (PoolTask.is_iff.mpr ⟨(DoWork.slot_injective hslot').symm, heq.symm⟩)
        exact .inr ⟨heq, by omega⟩
  · rcases List.mem_append.mp ht with ht | ht
    · rcases h.added t ht with hlt | ⟨heq, hlt⟩
      · exact .inl hlt
      · refine .inr ⟨heq, ?_⟩
        show t.fn.slot < phase.added
        omega
    · obtain rfl := List.mem_singleton.mp ht
      refine .inr ⟨rfl, ?_⟩
      show fn.slot < phase.added
      omega
  · rcases List.mem_append.mp ht with ht | ht
    · exact h.buf t ht hobj
    · obtain rfl := List.mem_singleton.mp ht
      rfl
  · rcases List.mem_append.mp ht with ht | ht
    · exact h.leaf t ht w hw
    · obtain rfl := List.mem_singleton.mp ht
      cases hw

/-- The spin ends. -/
theorem Pooled.Ok.leave (h : s.Ok) (hphase : s.phase = .spin) (hout : s.sh.outpos = 3) :
    Pooled.Ok { s with phase := .free } := by
  obtain ⟨hshared, hadded⟩ : s.phase.shared = true ∧ s.phase.added = 3 := by
    rw [hphase]
    exact ⟨rfl, rfl⟩
  -- All tasks have published, since three have been added.
  have hdone : ∀ t ∈ s.tasks, t.isDone = true := by
    have hcount := h.count hshared
    have hzero : s.unfinished = 0 := by omega
    unfold Pooled.unfinished at hzero
    simpa using List.countP_eq_zero.mp hzero
  have hsame : ∀ fn i, Pooled.hasAdded { s with phase := .free } fn i ↔ s.hasAdded fn i := by
    intro fn i
    unfold Pooled.hasAdded
    rw [hadded]
    rfl
  have hsetUp := h.setUp
  unfold Pooled.SetUp at hsetUp
  rw [hphase] at hsetUp
  refine ⟨hsetUp, h.bound, fun t ht hnot => ?_, nofun,
    fun fn i hfn => h.once fn i ((hsame fn i).mp hfn),
    fun t ht => (hsame _ _).mpr (h.added t ht), h.buf, h.leaf⟩
  rw [hdone t ht] at hnot
  cases hnot

/-- The buffer is freed, and the next object comes. -/
theorem Pooled.Ok.free (h : s.Ok) (hphase : s.phase = .free) :
    Pooled.Ok { s with
      live := Function.update s.live s.firstn.out false, i := s.i + 1, phase := .head } := by
  -- All three tasks have ended before the buffer is freed.
  have hdone := h.idle (by rw [hphase]; rfl)
  have hadded : s.phase.added = 3 := by rw [hphase]; rfl
  -- No task belongs to an object after `i`.
  have hle : ∀ t ∈ s.tasks, t.object ≤ s.i := by
    intro t ht
    rcases h.added t ht with hlt | ⟨heq, -⟩ <;> omega
  refine ⟨trivial, h.bound, fun t ht hnot => ?_, nofun, fun fn i hfn => h.once fn i ?_,
    fun t ht => .inl (Nat.lt_succ_of_le (hle t ht)), fun t ht hobj => ?_,
    fun t ht w hw => leafFrom_of_isDone (hdone t ht) hw⟩
  · rw [hdone t ht] at hnot
    cases hnot
  · have hslot := fn.slot_lt
    rcases hfn with hlt | ⟨-, hlt⟩
    · have hlt' : i < s.i + 1 := hlt
      unfold Pooled.hasAdded
      omega
    · cases hlt
  · have hobj' : t.object = s.i + 1 := hobj
    have hlt := hle t ht
    omega

/-- **Step lemma of the main thread.** -/
theorem Pooled.Ok.main (h : s.Ok) (hs : MainStep objectNum s s') : s'.Ok := by
  have hsetUp := h.setUp
  unfold Pooled.SetUp at hsetUp
  -- The steps before `add` build up what `SetUp` says, one assignment each.
  cases hs with
  | setX hphase hlt => exact h.prepare hphase ⟨rfl, rfl⟩ rfl rfl h.bound nofun
  | alloc addr hphase hnew =>
    rw [hphase] at hsetUp
    exact h.prepare hphase ⟨rfl, rfl⟩ rfl ⟨hsetUp, Function.update_self _ _ _⟩ h.bound nofun
  | setOut out hphase =>
    rw [hphase] at hsetUp
    obtain ⟨hx, hlive⟩ := hsetUp
    exact h.prepare hphase ⟨rfl, rfl⟩ rfl ⟨hx, hlive, rfl⟩ h.bound nofun
  | setOut2 out hphase =>
    rw [hphase] at hsetUp
    obtain ⟨hx, hlive, hout⟩ := hsetUp
    exact h.prepare hphase ⟨rfl, rfl⟩ rfl ⟨hx, hout ▸ hlive, hout.symm⟩ h.bound nofun
  | setOutpos hphase =>
    rw [hphase] at hsetUp
    exact h.prepare hphase ⟨rfl, rfl⟩ rfl hsetUp (Nat.zero_le 3) fun _ => rfl
  | add fn hphase =>
    rw [hphase] at hsetUp
    cases fn with
    | doWork1 | doWork2 | doWork3 => exact h.addTask hphase rfl hsetUp rfl
  | spins hphase hout => exact h
  | leaves hphase hout => exact h.leave hphase hout
  | free hphase => exact h.free hphase

/-- A task moves on. -/
theorem Pooled.Ok.move (h : s.Ok) {j : ℕ} {t : PoolTask} (htask : s.tasks[j]? = some t)
    (hnot : t.isDone = false) {sh : Shared} {w : Worker} (hleaf : LeafFrom s.firstn w)
    (hout : sh.outpos = s.sh.outpos + if w.pc.isDone then 1 else 0) :
    Pooled.Ok { s with sh := sh, tasks := s.tasks.set j { t with worker := some w } } := by
  have ht : t ∈ s.tasks := List.mem_of_getElem? htask
  obtain ⟨hshared, hobj⟩ := h.current t ht hnot
  have hcount := h.count hshared
  have hadded : s.phase.added ≤ 3 := by
    cases hphase : s.phase with
    | add fn => exact Nat.le_of_lt fn.slot_lt
    | spin => exact Nat.le_refl 3
    | _ =>
      rw [hphase] at hshared
      cases hshared
  -- A task that publishes moves from the one summand to the other.
  have hmoved : sh.outpos + (s.tasks.set j { t with worker := some w }).countP (fun t => !t.isDone)
      = s.phase.added := by
    have hset := countP_set_add (fun t => !t.isDone) { t with worker := some w } htask
    have hpos : 0 < s.unfinished := List.countP_pos_iff.mpr ⟨t, ht, by simp [hnot]⟩
    have hdone : PoolTask.isDone { t with worker := some w } = w.pc.isDone := rfl
    simp only [hnot, hdone, Bool.not_false, if_true] at hset
    unfold Pooled.unfinished at hcount hpos
    cases hw : w.pc.isDone <;> simp [hw] at hset hout <;> omega
  refine ⟨h.setUp, ?_, fun t' ht' hnot' => ?_, fun _ => hmoved, fun fn i hfn => ?_,
    fun t' ht' => ?_, fun t' ht' hobj' => ?_, fun t' ht' w' hw' => ?_⟩
  · show sh.outpos ≤ 3
    omega
  · rcases List.mem_or_eq_of_mem_set ht' with ht' | rfl
    · exact h.current t' ht' hnot'
    · exact ⟨hshared, hobj⟩
  · rw [← h.once fn i hfn]
    exact countP_set_eq htask rfl
  · rcases List.mem_or_eq_of_mem_set ht' with ht' | rfl
    · exact h.added t' ht'
    · exact h.added t ht
  · rcases List.mem_or_eq_of_mem_set ht' with ht' | rfl
    · exact h.buf t' ht' hobj'
    · exact h.buf t ht hobj'
  · rcases List.mem_or_eq_of_mem_set ht' with ht' | rfl
    · exact h.leaf t' ht' w' hw'
    · cases hw'
      exact hleaf

/-- **Step lemma of the pooled run.** -/
theorem Pooled.Ok.step (h : s.Ok) (hs : PooledStep H glob objectNum s a s') : s'.Ok := by
  cases hs with
  | main hmain => exact h.main hmain
  | start htask hworker =>
    exact h.move htask (by simp [PoolTask.isDone, hworker]) trivial rfl
  | work htask hworker hstep =>
    have hwork := doWork_step hstep
    exact h.move htask (by simp [PoolTask.isDone, hworker, hwork.not_done])
      (doWork_leafFrom (h.leaf _ (List.mem_of_getElem? htask) _ hworker) hstep) hwork.outpos_eq

theorem init_tasks (m : CrushMap) (root : CrushBucket) (reweight : ℤ → UInt32) (weightMax : ℤ)
    (live : ℕ → Bool) (μ : Store) :
    ∀ t, t ∉ (Pooled.init m root reweight weightMax live μ).tasks := fun _ => List.not_mem_nil

theorem Pooled.Ok.init (m : CrushMap) (root : CrushBucket) (reweight : ℤ → UInt32) (weightMax : ℤ)
    (live : ℕ → Bool) (μ : Store) : (Pooled.init m root reweight weightMax live μ).Ok := by
  have hnone : ∀ fn i, ¬ (Pooled.init m root reweight weightMax live μ).hasAdded fn i := by
    simp [Pooled.hasAdded, Pooled.init, Phase.added]
  have htasks := init_tasks m root reweight weightMax live μ
  exact ⟨trivial, Nat.zero_le 3, fun t ht => absurd ht (htasks t), nofun,
    fun fn i hfn => absurd hfn (hnone fn i), fun t ht => absurd ht (htasks t),
    fun t ht => absurd ht (htasks t), fun t ht => absurd ht (htasks t)⟩

/-! ### What the slots hold -/

/-- A worker that places devices writes no slot but its own, and its item there at last. -/
theorem doWork_cells {f : FirstnInfo} {parentR : ℤ} {outpos : ℕ} {sh sh' : Shared} {w w' : Worker}
    (htype : f.type = 0) (htold : Told glob f w)
    (hstep : WorkStep H glob f parentR outpos sh w sh' w') :
    (∀ arr k, k ≠ outpos → sh'.μ.cells arr k = sh.μ.cells arr k) ∧
      (w'.pc.isDone = true → sh'.μ.cells f.out outpos = w'.item) := by
  have hiff := hstep.isDone_iff
  -- There is no leaf to look for.
  have hnoLeaf : ¬ (w.pc = .callLeaf ∨ ∃ c, w.pc = .leaf c) := by
    unfold Told at htold
    rintro (hpc | ⟨c, hpc⟩)
    · rw [hpc] at htold
      have hpos := htold.2.1
      omega
    · rw [hpc] at htold
      have hpos := htold.1.2.1
      omega
  cases hstep with
  | leafFault e μ hpc | leafMove c μ hpc => exact absurd hpc hnoLeaf
  | leafEnd p μ hpc => exact absurd (.inr hpc) hnoLeaf
  | writeOut2 hpc =>
    refine ⟨fun arr k hk => Store.write_cells_of_ne _ _ fun hcell => hk hcell.2, fun hdone => ?_⟩
    have hpublish := hiff.mp hdone
    rw [hpc] at hpublish
    cases hpublish
  | publish hpc =>
    exact ⟨fun arr k hk => Store.write_cells_of_ne _ _ fun hcell => hk hcell.2, fun _ =>
      Store.write_cells_self _ _ _ _⟩
  | start hpc | drawFault e hpc | drawEmpty hpc | drawSkip item hpc | descend item b hpc
  | candidate item hpc | collide hpc | noCollide hpc | noLeafFound p hpc | leafFound p hpc
  | out hpc | accept hpc =>
    refine ⟨fun arr k _ => rfl, fun hdone => ?_⟩
    have hpublish := hiff.mp hdone
    rw [hpc] at hpublish
    cases hpublish

/-- On a well-formed map the slots of the tasks that are through hold their items. -/
structure Pooled.Kept (glob : Globals) (s : Pooled) : Prop where
  map : s.firstn.map.WellFormed
  type : s.firstn.type = 0
  told : ∀ t ∈ s.tasks, ∀ w, t.worker = some w → Told glob s.firstn w
  held : ∀ t ∈ s.tasks, t.object = s.i → ∀ w, t.worker = some w → w.pc.isDone = true →
    s.sh.μ.cells s.firstn.out t.fn.slot = w.item

theorem told_of_isDone {f : FirstnInfo} {t : PoolTask} {w : Worker} (h : t.isDone = true)
    (hworker : t.worker = some w) : Told glob f w := by
  unfold PoolTask.isDone at h
  rw [hworker] at h
  unfold Told
  rw [Pc.isDone_iff.mp h]
  trivial

/-- Step lemma for the main thread. -/
theorem Pooled.Kept.main (h : s.Kept glob) (hok : s.Ok) (hs : MainStep objectNum s s') :
    s'.Kept glob := by
  obtain ⟨hmap, htype, htold, hheld⟩ := h
  -- Before the first task of an object is added there is none.
  have hnone : ∀ {old : Phase}, s.phase = old → old.added = 0 → ∀ t ∈ s.tasks, t.object ≠ s.i := by
    intro old hphase hadded t ht hobj
    rw [← hphase] at hadded
    rcases hok.added t ht with hlt | ⟨-, hlt⟩ <;> omega
  have hdone : ∀ {old : Phase}, s.phase = old → old.shared = false → ∀ firstn, ∀ t ∈ s.tasks, ∀ w,
      t.worker = some w → Told glob firstn w := by
    intro old hphase hshared firstn t ht w hw
    rw [← hphase] at hshared
    exact told_of_isDone (hok.idle hshared t ht) hw
  cases hs with
  | setX hphase hlt => exact ⟨hmap, htype, hdone hphase rfl _, hheld⟩
  | alloc addr hphase hnew =>
    exact ⟨hmap, htype, htold, fun t ht hobj => absurd hobj (hnone hphase rfl t ht)⟩
  | setOut out hphase | setOut2 out hphase =>
    exact ⟨hmap, htype, hdone hphase rfl _, fun t ht hobj => absurd hobj (hnone hphase rfl t ht)⟩
  | setOutpos hphase | spins hphase hout | leaves hphase hout => exact ⟨hmap, htype, htold, hheld⟩
  | add fn hphase =>
    refine ⟨hmap, htype, fun t ht w hw => ?_, fun t ht hobj w hw hd => ?_⟩
    · rcases List.mem_append.mp ht with ht | ht
      · exact htold t ht w hw
      · obtain rfl := List.mem_singleton.mp ht
        cases hw
    · rcases List.mem_append.mp ht with ht | ht
      · exact hheld t ht hobj w hw hd
      · obtain rfl := List.mem_singleton.mp ht
        cases hw
  | free hphase =>
    refine ⟨hmap, htype, htold, fun t ht hobj => ?_⟩
    have hobj' : t.object = s.i + 1 := hobj
    rcases hok.added t ht with hlt | ⟨heq, -⟩ <;> omega

theorem Pooled.Kept.init {m : CrushMap} (hmap : m.WellFormed) (root : CrushBucket)
    (reweight : ℤ → UInt32) (weightMax : ℤ) (live : ℕ → Bool) (μ : Store) :
    (Pooled.init m root reweight weightMax live μ).Kept glob := by
  have htasks := init_tasks m root reweight weightMax live μ
  exact ⟨hmap, rfl, fun t ht => absurd ht (htasks t), fun t ht => absurd ht (htasks t)⟩

/-- Step lemma. -/
theorem Pooled.Kept.step (h : s.Kept glob) (hok : s.Ok)
    (hs : PooledStep H glob objectNum s a s') : s'.Kept glob := by
  cases hs with
  | main hmain => exact h.main hok hmain
  | start htask hworker =>
    refine ⟨h.map, h.type, fun t' ht' w' hw' => ?_, fun t' ht' hobj w' hw' hdone => ?_⟩
    · rcases List.mem_or_eq_of_mem_set ht' with ht' | rfl
      · exact h.told t' ht' w' hw'
      · cases hw'
        trivial
    · rcases List.mem_or_eq_of_mem_set ht' with ht' | rfl
      · exact h.held t' ht' hobj w' hw' hdone
      · cases hw'
        cases hdone
  | @work j t w w' sh htask hworker hstep =>
    have ht : t ∈ s.tasks := List.mem_of_getElem? htask
    have htold := h.told t ht w hworker
    have hwork := doWork_step hstep
    obtain ⟨hothers, hown⟩ := doWork_cells h.type htold hwork
    have hnot : t.isDone = false := by simp [PoolTask.isDone, hworker, hwork.not_done]
    have hobj := (hok.current t ht hnot).2
    refine ⟨h.map, h.type, fun t' ht' w₁ hw₁ => ?_, fun t' ht' hobj' w₁ hw₁ hdone => ?_⟩
    · rcases List.mem_or_eq_of_mem_set ht' with ht' | rfl
      · exact h.told t' ht' w₁ hw₁
      · cases hw₁
        exact htold.step h.map hstep
    · rcases List.mem_or_eq_of_mem_set ht' with ht' | rfl
      · -- Another task of the object has another slot.
        have hslot : t'.fn.slot ≠ t.fn.slot := by
          intro hslot
          have heq := eq_of_countP_eq_one (hok.once t.fn s.i (hobj ▸ hok.added t ht)) ht' ht
            (PoolTask.is_iff.mpr ⟨DoWork.slot_injective hslot, hobj'⟩)
            (PoolTask.is_iff.mpr ⟨rfl, hobj⟩)
          rw [heq, hworker] at hw₁
          cases hw₁
          rw [hwork.not_done] at hdone
          cases hdone
        exact (hothers _ _ hslot).trans (h.held t' ht' hobj' w₁ hw₁ hdone)
      · cases hw₁
        exact hown hdone

/-! ### Runs -/

/-- The task that takes the step, or that is started by it. -/
def Pooled.taskOf (s : Pooled) : PooledAction → Option PoolTask
  | .main _ => none
  | .start j | .work j => s.tasks[j]?

/-- `firstn` and the buffers are those of the task's object: the main thread is in the pass for
    this object, behind the set-up and before the end of the spin. -/
structure Pooled.Within (s : Pooled) (t : PoolTask) : Prop where
  object : s.i = t.object
  phase : (∃ fn, s.phase = .add fn) ∨ s.phase = .spin
  x : s.firstn.x = 222 + t.object
  out : s.firstn.out = t.buf
  out2 : s.firstn.out2 = t.buf
  live : s.live t.buf = true
  leaf : ∀ w c, t.worker = some w → w.pc = .leaf c →
    c.info.x = 222 + t.object ∧ c.info.out = t.buf

/-- Before `firstn->out[outpos] = item; firstn->outpos++;`. -/
def PoolTask.publishes (t : PoolTask) : Bool :=
  match t.worker with
  | some ⟨.publish, _, _, _, _⟩ => true
  | _ => false

/-- The step is the final store of the task that runs `fn` for object `i`. -/
def finalStore (fn : DoWork) (i : ℕ) (p : Pooled × PooledAction) : Bool :=
  match p.2 with
  | .work j => (p.1.tasks[j]?).any fun t => t.is fn i && t.publishes
  | _ => false

/-- A task publishes when its worker stands before its last step. -/
theorem PoolTask.publishes_iff {t : PoolTask} {w : Worker} (hworker : t.worker = some w) :
    t.publishes = true ↔ w.pc = .publish := by
  obtain ⟨pc, rep, search, item, skipRep⟩ := w
  unfold PoolTask.publishes
  rw [hworker]
  cases pc <;> simp

/-- A task that is not through has everything for itself. -/
theorem Pooled.Ok.within (h : s.Ok) {t : PoolTask} (ht : t ∈ s.tasks) (hnot : t.isDone = false) :
    s.Within t := by
  obtain ⟨hshared, hobj⟩ := h.current t ht hnot
  have hbuf := h.buf t ht hobj
  have hsetUp := h.setUp
  -- Tasks run from the first `threadPoolAdd` to the end of the spin loop.
  have hphase : (∃ fn, s.phase = .add fn) ∨ s.phase = .spin := by
    cases hphase : s.phase with
    | add fn => exact .inl ⟨fn, rfl⟩
    | spin => exact .inr rfl
    | _ =>
      rw [hphase] at hshared
      cases hshared
  obtain ⟨hx, hlive, hout2⟩ : s.firstn.x = 222 + s.i ∧ s.live s.firstn.out = true ∧
      s.firstn.out2 = s.firstn.out := by
    unfold Pooled.SetUp at hsetUp
    rcases hphase with ⟨fn, hphase⟩ | hphase
    · rwa [hphase] at hsetUp
    · rwa [hphase] at hsetUp
  refine ⟨hobj.symm, hphase, hobj ▸ hx, hbuf.symm, hbuf ▸ hout2, hbuf ▸ hlive, fun w c hw hpc => ?_⟩
  have hleaf := h.leaf t ht w hw
  unfold LeafFrom at hleaf
  rw [hpc] at hleaf
  obtain ⟨hleafX, hleafOut⟩ := hleaf
  exact ⟨hleafX.trans (hobj ▸ hx), hleafOut.trans (hbuf ▸ hout2)⟩

/-- A step of a task, or its start, finds it not through. -/
theorem PooledStep.not_done (hs : PooledStep H glob objectNum s a s') {t : PoolTask}
    (htask : s.taskOf a = some t) : t ∈ s.tasks ∧ t.isDone = false := by
  cases hs with
  | main hmain => cases htask
  | start htask' hworker =>
    obtain rfl := Option.some.inj (htask.symm.trans htask')
    exact ⟨List.mem_of_getElem? htask', by simp [PoolTask.isDone, hworker]⟩
  | work htask' hworker hstep =>
    obtain rfl := Option.some.inj (htask.symm.trans htask')
    exact ⟨List.mem_of_getElem? htask',
      by simp [PoolTask.isDone, hworker, (doWork_step hstep).not_done]⟩

/-- The main thread adds a task that has not been started, or none. -/
theorem MainStep.tasks (h : MainStep objectNum s s') :
    s'.tasks = s.tasks ∨ ∃ fn, s'.tasks = s.tasks ++ [s.newTask fn] := by
  cases h with
  | add fn hphase => exact .inr ⟨fn, rfl⟩
  | _ => exact .inl rfl

/-- **Run lemma**: a task that is through has made one final store, and another one none. -/
theorem countP_finalStore {s₀ : Pooled} {tr : List (Pooled × PooledAction)} (hempty : s₀.tasks = [])
    (hrun : Run (pooledStep H glob objectNum) s₀ tr s) (fn : DoWork) (i : ℕ) :
    tr.countP (finalStore fn i) = s.tasks.countP fun t => t.is fn i && t.isDone := by
  induction hrun with
  | start =>
    rw [hempty]
    rfl
  | @step tr s s' a hrun hs ih =>
    rw [List.countP_cons, ih]
    cases pooledStep_step hs with
    | main hmain =>
      rcases hmain.tasks with htasks | ⟨fn', htasks⟩
      · rw [htasks]
        rfl
      · rw [htasks, List.countP_append]
        simp [finalStore, Pooled.newTask, PoolTask.isDone]
    | @start j t htask hworker =>
      refine (countP_set_eq htask ?_).symm
      simp [PoolTask.isDone, hworker, Worker.init, Pc.isDone]
    | @work j t w w' sh htask hworker hstep =>
      have hwork := doWork_step hstep
      have hset :=
        countP_set_add (fun t => t.is fn i && t.isDone) { t with worker := some w' } htask
      have hnot : t.isDone = false := by simp [PoolTask.isDone, hworker, hwork.not_done]
      -- The store is the step after which the task is through.
      have hstore : finalStore fn i (s, .work j)
          = (PoolTask.is { t with worker := some w' } fn i &&
            PoolTask.isDone { t with worker := some w' }) := by
        have hiff := hwork.isDone_iff
        rw [← PoolTask.publishes_iff hworker] at hiff
        have hpublishes : t.publishes = w'.pc.isDone := by rw [Bool.eq_iff_iff, hiff]
        simp only [finalStore, htask, Option.any_some, hpublishes]
        rfl
      rw [hstore]
      simp only [hnot, Bool.and_false, Bool.false_eq_true, if_false, Nat.add_zero] at hset
      exact hset.symm

/-- **Objects do not leak into each other.**  In every run of `test_pthreadPool` with its tasks
    `outpos` is at most 3; when the spin for an object has ended each of its three functions
    has made its final store once, and on a well-formed map the buffer holds their items;
    and whenever a task is started or moves, `x` is that of its object, and its buffer is the
    one in `firstn` and has not been freed. -/
theorem pooled_isolated (H : CrushHash) (glob : Globals) (m : CrushMap) (root : CrushBucket)
    (reweight : ℤ → UInt32) (weightMax : ℤ) (objectNum : ℕ) (live : ℕ → Bool) (μ : Store)
    (tr : List (Pooled × PooledAction)) (s : Pooled)
    (hrun : Run (pooledStep H glob objectNum) (Pooled.init m root reweight weightMax live μ) tr s) :
    s.sh.outpos ≤ 3 ∧
      (∀ i, i < s.i ∨ i = s.i ∧ s.phase = .free → ∀ fn, tr.countP (finalStore fn i) = 1) ∧
      (m.WellFormed → s.phase = .free → ∀ t ∈ s.tasks, t.object = s.i →
        t.buf = s.firstn.out ∧ ∃ w, t.worker = some w ∧ w.pc = .done ∧
          s.sh.μ.cells t.buf t.fn.slot = w.item) ∧
      ∀ p ∈ tr, ∀ t, p.1.taskOf p.2 = some t → p.1.Within t := by
  have hok : ∀ tr s, Run (pooledStep H glob objectNum)
      (Pooled.init m root reweight weightMax live μ) tr s → s.Ok := fun tr s hrun =>
    hrun.invariant' Pooled.Ok (Pooled.Ok.init m root reweight weightMax live μ)
      fun s a s' hI hs => hI.step (pooledStep_step hs)
  have hs := hok tr s hrun
  refine ⟨hs.bound, fun i hi fn => ?_, fun hmap hphase t ht hobj => ?_, fun p hp t htask => ?_⟩
  · -- All tasks of the object are through, and the function has been added for it once.
    have hadded : s.hasAdded fn i := by
      rcases hi with hlt | ⟨heq, hphase⟩
      · exact .inl hlt
      · refine .inr ⟨heq, ?_⟩
        rw [hphase]
        exact fn.slot_lt
    have hdone : ∀ t ∈ s.tasks, t.object = i → t.isDone = true := by
      intro t ht hobj
      by_contra hnot
      obtain ⟨hshared, hcurrent⟩ := hs.current t ht (Bool.not_eq_true _ ▸ hnot)
      rcases hi with hlt | ⟨-, hphase⟩
      · omega
      · rw [hphase] at hshared
        cases hshared
    rw [countP_finalStore rfl hrun, ← hs.once fn i hadded]
    refine List.countP_congr fun t ht => ?_
    rw [Bool.and_eq_true, and_iff_left_iff_imp]
    exact fun his => hdone t ht (PoolTask.is_iff.mp his).2
  · have hkept : s.Ok ∧ s.Kept glob :=
      hrun.invariant' (fun s => s.Ok ∧ s.Kept glob)
        ⟨Pooled.Ok.init m root reweight weightMax live μ,
          Pooled.Kept.init hmap root reweight weightMax live μ⟩
        fun s a s' hI hs =>
          ⟨hI.1.step (pooledStep_step hs), hI.2.step hI.1 (pooledStep_step hs)⟩
    have hdone := hs.idle (by rw [hphase]; rfl) t ht
    have hbuf := hs.buf t ht hobj
    cases hworker : t.worker with
    | none => simp [PoolTask.isDone, hworker] at hdone
    | some w =>
      have hpc : w.pc.isDone = true := by simpa [PoolTask.isDone, hworker] using hdone
      exact ⟨hbuf, w, rfl, Pc.isDone_iff.mp hpc, hbuf ▸ hkept.2.held t ht hobj w hworker hpc⟩
  · obtain ⟨⟨tr', hrun'⟩, s', hstep⟩ := hrun.of_mem hp
    obtain ⟨ht, hnot⟩ := (pooledStep_step hstep).not_done htask
    exact (hok tr' p.1 hrun').within ht hnot

/-- Two objects, the second one in the buffer of the first.  The first task of the first object is
    through before the second one is added, and the third one starts before the second.  The
    first task of the second object is through as well. -/
def twoObjects : List PooledAction :=
  List.flatten
    [[.main 0, .main 1, .main 0, .main 0, .main 0, .main 0, .start 0], List.replicate 7 (.work 0),
      [.main 0, .main 0, .main 0, .start 2, .start 1], List.replicate 10 (.work 1),
      List.replicate 13 (.work 2), [.main 0, .main 0],
      [.main 0, .main 1, .main 0, .main 0, .main 0, .main 0, .main 0, .main 0],
      [.start 3, .start 4, .start 5], List.replicate 7 (.work 3)]

/-- A run over two objects, up to the spin loop of the second one. -/
theorem pooled_isolated_twoObjects : ∃ tr s,
    Run (pooledStep rjenkins smallGlobals 2)
      (Pooled.init smallMap smallRoot (fun _ => 0x10000) 4 (fun _ => false) zeroStore) tr s ∧
      s.i = 1 ∧ s.phase = .spin ∧ (∀ fn, tr.countP (finalStore fn 0) = 1) ∧
      ∀ p ∈ tr, ∀ t, p.1.taskOf p.2 = some t → p.1.Within t := by
  obtain ⟨⟨tr, s⟩, hfollow, hres⟩ := Option.map_eq_some_iff.mp
    (show (follow (pooledStep rjenkins smallGlobals 2) twoObjects []
        (Pooled.init smallMap smallRoot (fun _ => 0x10000) 4 (fun _ => false) zeroStore)).map
      (fun r => (r.2.i, r.2.phase)) = some (1, .spin) by decide +kernel)
  obtain ⟨hi, hphase⟩ : s.i = 1 ∧ s.phase = .spin := by simpa using hres
  have hrun := Run.start.of_follow hfollow
  obtain ⟨-, hstores, -, hwithin⟩ := pooled_isolated rjenkins smallGlobals smallMap smallRoot
    (fun _ => 0x10000) 4 2 (fun _ => false) zeroStore tr s hrun
  exact ⟨tr, s, hrun, hi, hphase, hstores 0 (.inl (by omega)), hwithin⟩

end MyCeph.Crush
