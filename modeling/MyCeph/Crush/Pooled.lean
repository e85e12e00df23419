import MyCeph.Crush.Globals

namespace MyCeph.Crush

open Lib

/-!
# One object after the other in the pool

`test_pthreadPool` places its objects with one `firstn_info`.  For each object it sets `x`,
allocates a buffer, sets `outpos` to 0, adds the three functions to the pool, spins until
`outpos` is 3, and frees the buffer.  Nothing but the counter tells it that the workers
are through with both.

The pool is taken at its word: a task that has been added is started once, at any time and in
any order.  Its steps interleave freely with those of the main thread (`pooledStep`).
-/

/-! ### State -/

/-- The functions that are added to the pool. -/
inductive DoWork where
  | doWork1
  | doWork2
  | doWork3
  deriving DecidableEq

/-- The slot of `out` that the function fills. -/
def DoWork.slot : DoWork → ℕ
  | .doWork1 => 0
  | .doWork2 => 1
  | .doWork3 => 2

/-- One step of the function. -/
def DoWork.run (H : CrushHash) (glob : Globals) (f : FirstnInfo) :
    DoWork → Shared → Worker → Option (Shared × Worker)
  | .doWork1 => Crush.doWork1 H glob f
  | .doWork2 => Crush.doWork2 H glob f
  | .doWork3 => Crush.doWork3 H glob f

/-- A task that has been added to the pool, with the object it was added for and the buffer of
    that object, which the program does not note. -/
structure PoolTask where
  fn : DoWork
  object : ℕ
  buf : ℕ
  /-- `none` until the pool starts the task. -/
  worker : Option Worker

/-- Where the main thread stands in the pass for object `i`. -/
inductive Phase where
  /-- At the test of the loop. -/
  | head
  /-- In `pthreadPool_crush_choose_firstn`, before `new`. -/
  | alloc
  | setOut (out : ℕ)
  | setOut2 (out : ℕ)
  | setOutpos
  /-- Before the call of `threadPoolAdd` for this function. -/
  | add (fn : DoWork)
  /-- At the test of `while(firstn->outpos != 3)`. -/
  | spin
  /-- Before `delete`. -/
  | free
  deriving DecidableEq

/-- Behind the call of `threadPoolAdd` for this function. -/
def DoWork.next : DoWork → Phase
  | .doWork1 => .add .doWork2
  | .doWork2 => .add .doWork3
  | .doWork3 => .spin

/-- The main thread, the `firstn_info` it shares with the workers, the buffers in use, and the
    tasks added so far.  `firstn->outpos` is `sh.outpos`. -/
structure Pooled where
  i : ℕ
  phase : Phase
  firstn : FirstnInfo
  sh : Shared
  live : ℕ → Bool
  tasks : List PoolTask

/-- `test_pthreadPool` before its loop. -/
def Pooled.init (m : CrushMap) (root : CrushBucket) (reweight : ℤ → UInt32) (weightMax : ℤ)
    (live : ℕ → Bool) (μ : Store) : Pooled where
  i := 0
  phase := .head
  firstn := testInfo m root reweight weightMax 0 nullArr
  sh := ⟨0, μ⟩
  live := live
  tasks := []

/-! ### Steps -/

/-- `new int[firstn->numrep]()`. -/
def Store.alloc (μ : Store) (arr : ℕ) : Store :=
  { μ with cells := Function.update μ.cells arr fun _ => 0 }

/-- The task that `threadPoolAdd(threadpool, fn, (void *)firstn)` adds. -/
def Pooled.newTask (s : Pooled) (fn : DoWork) : PoolTask := ⟨fn, s.i, s.firstn.out, none⟩

/-- The next step of `test_pthreadPool` and `pthreadPool_crush_choose_firstn`.  `addr` is the
    address that `new` returns. -/
def Pooled.testPthreadPool (objectNum : ℕ) (s : Pooled) (addr : ℕ) : Option Pooled :=
  match s.phase with
  | .head =>
    if s.i < objectNum then
      some { s with firstn := { s.firstn with x := 222 + s.i }, phase := .alloc }
    else none
  | .alloc =>
    -- The address may be one that has been freed.
    if addr = nullArr ∨ s.live addr then none
    else some { s with
      live := Function.update s.live addr true
      sh := { s.sh with μ := s.sh.μ.alloc addr }
      phase := .setOut addr }
  | .setOut out => some { s with firstn := { s.firstn with out := out }, phase := .setOut2 out }
  | .setOut2 out => some { s with firstn := { s.firstn with out2 := out }, phase := .setOutpos }
  | .setOutpos => some { s with sh := { s.sh with outpos := 0 }, phase := .add .doWork1 }
  | .add fn => some { s with tasks := s.tasks ++ [s.newTask fn], phase := fn.next }
  | .spin => if s.sh.outpos ≠ 3 then some s else some { s with phase := .free }
  -- The value returned is not used.
  | .free =>
    some { s with live := Function.update s.live s.firstn.out false, i := s.i + 1, phase := .head }

/-- The pool starts task `j`. -/
def Pooled.start (s : Pooled) (j : ℕ) : Option Pooled :=
  match s.tasks[j]? with
  | none => none
  | some t =>
    match t.worker with
    | some _ => none
    | none =>
      some { s with tasks := s.tasks.set j { t with worker := some (Worker.init s.firstn) } }

/-- The next step of task `j`. -/
def Pooled.work (H : CrushHash) (glob : Globals) (s : Pooled) (j : ℕ) : Option Pooled :=
  match s.tasks[j]? with
  | none => none
  | some t =>
    match t.worker with
    | none => none
    | some w =>
      match t.fn.run H glob s.firstn s.sh w with
      | none => none
      | some (sh, w) => some { s with sh := sh, tasks := s.tasks.set j { t with worker := some w } }

/-- Who takes the next step. -/
inductive PooledAction where
  | main (addr : ℕ)
  | start (j : ℕ)
  | work (j : ℕ)
  deriving DecidableEq

/-- A step of the pooled run. -/
def pooledStep (H : CrushHash) (glob : Globals) (objectNum : ℕ) (s : Pooled) :
    PooledAction → Option Pooled
  | .main addr => s.testPthreadPool objectNum addr
  | .start j => s.start j
  | .work j => s.work H glob j

/-! ### What a step can do -/

variable {H : CrushHash} {glob : Globals} {objectNum : ℕ} {s s' : Pooled} {a : PooledAction}

/-- The function for a slot is the worker for that slot. -/
theorem DoWork.run_eq (f : FirstnInfo) (fn : DoWork) :
    fn.run H glob f = doWork H glob f fn.slot fn.slot := by
  cases fn <;> rfl

/-- The outcomes of a step of the main thread. -/
inductive MainStep (objectNum : ℕ) (s : Pooled) : Pooled → Prop where
  | setX (hphase : s.phase = .head) (hlt : s.i < objectNum) :
      MainStep objectNum s { s with firstn := { s.firstn with x := 222 + s.i }, phase := .alloc }
  | alloc (addr : ℕ) (hphase : s.phase = .alloc) (hnew : ¬ (addr = nullArr ∨ s.live addr = true)) :
      MainStep objectNum s { s with
        live := Function.update s.live addr true
        sh := { s.sh with μ := s.sh.μ.alloc addr }
        phase := .setOut addr }
  | setOut (out : ℕ) (hphase : s.phase = .setOut out) :
      MainStep objectNum s { s with firstn := { s.firstn with out := out }, phase := .setOut2 out }
  | setOut2 (out : ℕ) (hphase : s.phase = .setOut2 out) :
      MainStep objectNum s { s with firstn := { s.firstn with out2 := out }, phase := .setOutpos }
  | setOutpos (hphase : s.phase = .setOutpos) :
      MainStep objectNum s { s with sh := { s.sh with outpos := 0 }, phase := .add .doWork1 }
  | add (fn : DoWork) (hphase : s.phase = .add fn) :
      MainStep objectNum s { s with tasks := s.tasks ++ [s.newTask fn], phase := fn.next }
  | spins (hphase : s.phase = .spin) (hout : s.sh.outpos ≠ 3) : MainStep objectNum s s
  | leaves (hphase : s.phase = .spin) (hout : s.sh.outpos = 3) :
      MainStep objectNum s { s with phase := .free }
  | free (hphase : s.phase = .free) :
      MainStep objectNum s { s with
        live := Function.update s.live s.firstn.out false, i := s.i + 1, phase := .head }

/-- **All that one step of the main thread can do.** -/
theorem testPthreadPool_step {addr : ℕ} (h : s.testPthreadPool objectNum addr = some s') :
    MainStep objectNum s s' := by
  unfold Pooled.testPthreadPool at h
  -- One case for each phase of the loop body.
  split at h
  · rename_i hphase
    split at h
    · rename_i hlt
      cases h; exact .setX hphase hlt
    · simp at h
  · rename_i hphase
    split at h
    · simp at h
    · rename_i hnew
      cases h; exact .alloc addr hphase hnew
  · rename_i out hphase
    cases h; exact .setOut out hphase
  · rename_i out hphase
    cases h; exact .setOut2 out hphase
  · rename_i hphase
    cases h; exact .setOutpos hphase
  · rename_i fn hphase
    cases h; exact .add fn hphase
  · rename_i hphase
    split at h
    · rename_i hout
      cases h; exact .spins hphase hout
    · rename_i hout
      cases h; exact .leaves hphase (not_not.mp hout)
  · rename_i hphase
    cases h; exact .free hphase

/-- The outcomes of a step. -/
inductive PooledStep (H : CrushHash) (glob : Globals) (objectNum : ℕ) (s : Pooled) :
    PooledAction → Pooled → Prop where
  | main {addr : ℕ} {s' : Pooled} (hmain : MainStep objectNum s s') :
      PooledStep H glob objectNum s (.main addr) s'
  | start {j : ℕ} {t : PoolTask} (htask : s.tasks[j]? = some t) (hworker : t.worker = none) :
      PooledStep H glob objectNum s (.start j)
        { s with tasks := s.tasks.set j { t with worker := some (Worker.init s.firstn) } }
  | work {j : ℕ} {t : PoolTask} {w w' : Worker} {sh : Shared} (htask : s.tasks[j]? = some t)
      (hworker : t.worker = some w)
      (hstep : doWork H glob s.firstn t.fn.slot t.fn.slot s.sh w = some (sh, w')) :
      PooledStep H glob objectNum s (.work j)
        { s with sh := sh, tasks := s.tasks.set j { t with worker := some w' } }

/-- **All that one step can do.** -/
theorem pooledStep_step (h : pooledStep H glob objectNum s a = some s') :
    PooledStep H glob objectNum s a s' := by
  cases a with
  | main addr => exact .main (testPthreadPool_step h)
  | start j =>
    unfold pooledStep Pooled.start at h
    dsimp only at h
    split at h
    · simp at h
    rename_i t htask
    split at h
    · simp at h
    · rename_i hworker
      cases h
      exact .start htask hworker
  | work j =>
    unfold pooledStep Pooled.work at h
    dsimp only at h
    split at h
    · simp at h
    rename_i t htask
    split at h
    · simp at h
    rename_i w hworker
    split at h
    · simp at h
    · rename_i sh w' hstep
      cases h
      rw [DoWork.run_eq] at hstep
      exact .work htask hworker hstep

/-- A worker is through exactly when it was about to publish. -/
theorem WorkStep.isDone_iff {f : FirstnInfo} {parentR : ℤ} {outpos : ℕ} {sh sh' : Shared}
    {w w' : Worker} (h : WorkStep H glob f parentR outpos sh w sh' w') :
    w'.pc.isDone = true ↔ w.pc = .publish := by
  cases h with
  | noCollide hpc hcol =>
    simp only [hpc]
    split
    · split <;> simp [Pc.isDone]
    · simp [Pc.isDone]
  | descend item b hpc hdraw => simp [hpc, Pc.isDone]
  | leafFault e μ hpc | leafMove c μ hpc => rcases hpc with hpc | ⟨c, hpc⟩ <;> simp [hpc, Pc.isDone]
  | leafEnd p μ hpc =>
    obtain ⟨c, hpc⟩ := hpc
    simp [hpc, Pc.isDone]
  | drawEmpty hpc | collide hpc | noLeafFound p hpc | out hpc => simp [hpc]
  | start hpc | drawFault e hpc | drawSkip e hpc | candidate e hpc => simp [hpc, Pc.isDone]
  | leafFound p hpc | writeOut2 hpc | accept hpc | publish hpc => simp [hpc, Pc.isDone]

/-- A leaf search in progress has the worker's own `x` and `out2`. -/
def LeafFrom (f : FirstnInfo) (w : Worker) : Prop :=
  match w.pc with
  | .leaf c => c.info.x = f.x ∧ c.info.out = f.out2
  | _ => True

/-- Behind `reject:` no leaf search is running. -/
theorem leafFrom_reject (f : FirstnInfo) (w : Worker) (collide : Bool) :
    LeafFrom f (w.reject f collide) := by
  unfold Worker.reject
  split <;> trivial

/-- A running leaf search is that of the worker's own parameters. -/
theorem doWork_leafFrom {f : FirstnInfo} {parentR : ℤ} {outpos : ℕ} {sh sh' : Shared}
    {w w' : Worker} (h : LeafFrom f w)
    (hstep : doWork H glob f parentR outpos sh w = some (sh', w')) : LeafFrom f w' := by
  obtain ⟨pc, rep, search, item, skipRep⟩ := w
  -- Only `callLeaf` makes a leaf call, and only `leaf` passes one on.
  cases pc with
  | callLeaf =>
    simp only [doWork] at hstep
    split at hstep
    · cases hstep; trivial
    · cases hstep
      exact ⟨rfl, rfl⟩
  | leaf c =>
    simp only [doWork] at hstep
    split at hstep
    · cases hstep; trivial
    · rename_i c' μ hleaf
      cases hstep
      have hinfo := leafStep_info hleaf
      obtain ⟨hx, hout⟩ := h
      exact ⟨hinfo ▸ hx, hinfo ▸ hout⟩
    · cases hstep; trivial
  | draw =>
    simp only [doWork] at hstep
    split at hstep
    · cases hstep; trivial
    · cases hstep; exact leafFrom_reject _ _ _
    all_goals
      cases hstep
      trivial
  | scan =>
    simp only [doWork] at hstep
    split at hstep
    · cases hstep; exact leafFrom_reject _ _ _
    split at hstep
    · split at hstep
      all_goals
        cases hstep
        trivial
    · cases hstep; trivial
  | leafReturn p | test =>
    simp only [doWork] at hstep
    split at hstep
    · cases hstep; exact leafFrom_reject _ _ _
    · cases hstep; trivial
  | start | writeOut2 | publish =>
    cases hstep
    trivial
  | done | fault => simp [doWork] at hstep

end MyCeph.Crush
