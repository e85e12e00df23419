import Mathlib.Logic.Function.Basic
import Mathlib.Tactic.FinCases
import MyCeph.Crush.Firstn
import MyCeph.Lib.System

namespace MyCeph.Crush

open Lib

/-!
# The parallel workers

`do_work1`, `do_work2` and `do_work3` are three copies of the search for one replica,
with `parent_r` and `outpos` fixed to 0, 1 and 2, that share one `firstn_info`.  A worker
moves in steps: one pass up to the type test, the collision scan (under the mutex), the
calls and passes of the leaf search, the store to `out2` (under the mutex), the overload
test, and the final store to `out` with `outpos++` (under the mutex).  Steps of the
three workers interleave freely (`parStep`).

Three things differ from `crush_choose_firstn`: the leaf search and the overload test
read the global `weight` and `weight_max`, the current `firstn->outpos` stands where the
sequential code has its own position, and the final store does not look at `skip_rep`.
-/

/-! ### State -/

/-- The global variables that the workers read. -/
structure Globals where
  weight : ℤ → UInt32
  weightMax : ℤ

/-- What the workers share: `firstn->outpos` and the arrays. -/
structure Shared where
  outpos : ℕ
  μ : Store

/-- A call of `crush_choose_firstn` for a leaf, in progress. -/
structure LeafCall where
  info : FirstnInfo
  parentR : ℤ
  rep : ℤ
  outpos : ℕ
  count : ℤ
  /-- The search for the current replica, `none` at the head of the loop. -/
  search : Option Search

/-- Where a worker stands. -/
inductive Pc where
  | start
  /-- At the head of the inner loop. -/
  | draw
  /-- Before the collision scan. -/
  | scan
  /-- Before the call of the leaf search. -/
  | callLeaf
  | leaf (c : LeafCall)
  /-- The leaf search has returned `p`. -/
  | leafReturn (p : ℕ)
  | writeOut2
  /-- Before the overload test. -/
  | test
  /-- Behind both loops. -/
  | publish
  | done
  /-- Stopped at an undefined read. -/
  | fault (e : Stop)

/-- A worker's local variables. -/
structure Worker where
  pc : Pc
  rep : ℤ
  search : Search
  item : ℤ
  skipRep : Bool

variable (H : CrushHash) (glob : Globals) (f : FirstnInfo)

/-- A worker that has not started. -/
def Worker.init : Worker where
  pc := .start
  rep := 0
  search := Search.start f
  item := 0
  skipRep := false

/-! ### Steps -/

def Shared.visit (sh : Shared) (b : CrushBucket) : Shared := { sh with μ := sh.μ.visit b }

@[simp] theorem Shared.visit_outpos (sh : Shared) (b : CrushBucket) :
    (sh.visit b).outpos = sh.outpos := rfl

/-- The code at `reject:`, up to the next draw or behind the loops. -/
def Worker.reject (w : Worker) (collide : Bool) : Worker :=
  match w.search.rejected f collide with
  | some s => { w with pc := .draw, search := s }
  | none => { w with pc := .publish, skipRep := true }

/-- The leaf search does not look for leaves itself. -/
def noLeaf : Firstn := fun _ _ μ => .error ⟨.timeout, μ⟩

/-- The call of the leaf search from bucket `b`: `weight` and `weight_max` are the globals. -/
def LeafCall.init (b : CrushBucket) (outpos : ℕ) (r : ℤ) : LeafCall :=
  let info := { leafInfo f b outpos f.outSize with
    weight := glob.weight, weightMax := glob.weightMax }
  ⟨info, subR f r, firstRep info, outpos, info.outSize, none⟩

/-- One step of the leaf search: the head of its loop, or one pass. -/
def leafStep (c : LeafCall) (μ : Store) : Except Fault (Next (LeafCall × Store) (ℕ × Store)) :=
  match c.search with
  | none =>
    if c.rep < c.info.numrep ∧ c.count > 0 then
      .ok (.again ({ c with search := some (Search.start c.info) }, μ))
    else .ok (.exit (c.outpos, μ))
  | some s =>
    match attempt H c.info noLeaf c.parentR c.rep c.outpos c.count (s, μ) with
    | .error e => .error e
    | .ok (.again (s', μ')) => .ok (.again ({ c with search := some s' }, μ'))
    | .ok (.exit (.skip, μ')) => .ok (.again ({ c with rep := c.rep + 1, search := none }, μ'))
    | .ok (.exit (.accept item, μ')) =>
      .ok (.again ({ c with
        rep := c.rep + 1, outpos := c.outpos + 1, count := c.count - 1, search := none },
        μ'.write c.info.out c.outpos item))

/-- One step of a worker with the given `parent_r` and `outpos`. -/
def doWork (parentR : ℤ) (outpos : ℕ) (sh : Shared) (w : Worker) : Option (Shared × Worker) :=
  let r := randomFactor w.rep parentR w.search.ftotal
  match w.pc with
  | .start =>
    some (sh,
      { w with pc := .draw, rep := if f.stable then 0 else outpos, search := Search.start f })
  | .draw =>
    -- The position is the current `firstn->outpos`, not the worker's own.
    match drawItem H f w.search.cur r sh.outpos with
    | .error e => some (sh.visit w.search.cur, { w with pc := .fault e })
    | .ok .empty => some (sh.visit w.search.cur, w.reject f false)
    | .ok (.skip item) =>
      some (sh.visit w.search.cur, { w with pc := .publish, item := item, skipRep := true })
    | .ok (.descend item b) =>
      some (sh.visit w.search.cur, { w with item := item, search := { w.search with cur := b } })
    | .ok (.candidate item) => some (sh.visit w.search.cur, { w with pc := .scan, item := item })
  | .scan =>
    if collides sh.μ f.out outpos w.item then some (sh, w.reject f true)
    else if f.recurseToLeaf then
      if w.item < 0 then some (sh, { w with pc := .callLeaf })
      else some (sh, { w with pc := .writeOut2 })
    else some (sh, { w with pc := .test })
  | .callLeaf =>
    match f.map.readBucket (-1 - w.item) with
    | .error e => some (sh, { w with pc := .fault e })
    | .ok b => some (sh, { w with pc := .leaf (LeafCall.init glob f b sh.outpos r) })
  | .leaf c =>
    match leafStep H c sh.μ with
    | .error e => some ({ sh with μ := e.μ }, { w with pc := .fault e.stop })
    | .ok (.again (c', μ)) => some ({ sh with μ := μ }, { w with pc := .leaf c' })
    | .ok (.exit (p, μ)) => some ({ sh with μ := μ }, { w with pc := .leafReturn p })
  | .leafReturn p =>
    -- `firstn->outpos` may have moved since the leaf search was called.
    if p ≤ sh.outpos then some (sh, w.reject f false) else some (sh, { w with pc := .test })
  | .writeOut2 =>
    some ({ sh with μ := sh.μ.write f.out2 outpos w.item }, { w with pc := .test })
  | .test =>
    -- `firstn->weight`, but the global `weight_max`.
    if f.type == 0 && isOut H f.weight glob.weightMax w.item f.x then some (sh, w.reject f false)
    else some (sh, { w with pc := .publish })
  | .publish =>
    -- The sequential code skips the replica here when `skip_rep` is set.
    some (⟨sh.outpos + 1, sh.μ.write f.out outpos w.item⟩, { w with pc := .done })
  | .done => none
  | .fault _ => none

/-- `do_work1`. -/
def doWork1 : Shared → Worker → Option (Shared × Worker) := doWork H glob f 0 0

/-- `do_work2`. -/
def doWork2 : Shared → Worker → Option (Shared × Worker) := doWork H glob f 1 1

/-- `do_work3`. -/
def doWork3 : Shared → Worker → Option (Shared × Worker) := doWork H glob f 2 2

/-- The workers by number. -/
def work : Fin 3 → Shared → Worker → Option (Shared × Worker)
  | 0 => doWork1 H glob f
  | 1 => doWork2 H glob f
  | 2 => doWork3 H glob f

/-- Each of the three functions is `do_work` with its own number. -/
theorem work_eq (k : Fin 3) : work H glob f k = doWork H glob f k k := by
  fin_cases k <;> rfl

/-- All three workers on one `firstn_info`. -/
structure Par where
  sh : Shared
  w : Fin 3 → Worker

/-- As `pthread_crush_choose_firstn` and `pthreadPool_crush_choose_firstn` start the workers:
    `outpos` is 0, the new arrays are part of `μ`. -/
def Par.init (μ : Store) : Par := ⟨⟨0, μ⟩, fun _ => Worker.init f⟩

/-- Worker `k` moves. -/
def parStep (s : Par) (k : Fin 3) : Option Par :=
  match work H glob f k s.sh (s.w k) with
  | none => none
  | some (sh, w) => some ⟨sh, Function.update s.w k w⟩

/-- The globals next to `smallInfo`: all weights 1.0, four devices. -/
def smallGlobals : Globals := ⟨fun _ => 0x10000, 4⟩

/-! ### What a step can do -/

/-- All that one step of a worker can do. -/
inductive WorkStep (H : CrushHash) (glob : Globals) (f : FirstnInfo) (parentR : ℤ) (outpos : ℕ)
    (sh : Shared) (w : Worker) : Shared → Worker → Prop where
  | start (hpc : w.pc = .start) :
      WorkStep H glob f parentR outpos sh w sh { w with
        pc := .draw, rep := if f.stable then 0 else outpos, search := Search.start f }
  | drawFault (e : Stop) (hpc : w.pc = .draw)
      (hdraw : drawItem H f w.search.cur (randomFactor w.rep parentR w.search.ftotal) sh.outpos
        = .error e) :
      WorkStep H glob f parentR outpos sh w (sh.visit w.search.cur) { w with pc := .fault e }
  | drawEmpty (hpc : w.pc = .draw)
      (hdraw : drawItem H f w.search.cur (randomFactor w.rep parentR w.search.ftotal) sh.outpos
        = .ok .empty) :
      WorkStep H glob f parentR outpos sh w (sh.visit w.search.cur) (w.reject f false)
  | drawSkip (item : ℤ) (hpc : w.pc = .draw)
      (hdraw : drawItem H f w.search.cur (randomFactor w.rep parentR w.search.ftotal) sh.outpos
        = .ok (.skip item)) :
      WorkStep H glob f parentR outpos sh w (sh.visit w.search.cur)
        { w with pc := .publish, item := item, skipRep := true }
  | descend (item : ℤ) (b : CrushBucket) (hpc : w.pc = .draw)
      (hdraw : drawItem H f w.search.cur (randomFactor w.rep parentR w.search.ftotal) sh.outpos
        = .ok (.descend item b)) :
      WorkStep H glob f parentR outpos sh w (sh.visit w.search.cur)
        { w with item := item, search := { w.search with cur := b } }
  | candidate (item : ℤ) (hpc : w.pc = .draw)
      (hdraw : drawItem H f w.search.cur (randomFactor w.rep parentR w.search.ftotal) sh.outpos
        = .ok (.candidate item)) :
      WorkStep H glob f parentR outpos sh w (sh.visit w.search.cur)
        { w with pc := .scan, item := item }
  | collide (hpc : w.pc = .scan) (hcol : collides sh.μ f.out outpos w.item = true) :
      WorkStep H glob f parentR outpos sh w sh (w.reject f true)
  | noCollide (hpc : w.pc = .scan) (hcol : collides sh.μ f.out outpos w.item = false) :
      WorkStep H glob f parentR outpos sh w sh { w with
        pc := if f.recurseToLeaf then if w.item < 0 then .callLeaf else .writeOut2 else .test }
  | leafFault (e : Stop) (μ : Store) (hpc : w.pc = .callLeaf ∨ ∃ c, w.pc = .leaf c) :
      WorkStep H glob f parentR outpos sh w { sh with μ := μ } { w with pc := .fault e }
  | leafMove (c : LeafCall) (μ : Store) (hpc : w.pc = .callLeaf ∨ ∃ c, w.pc = .leaf c) :
      WorkStep H glob f parentR outpos sh w { sh with μ := μ } { w with pc := .leaf c }
  | leafEnd (p : ℕ) (μ : Store) (hpc : ∃ c, w.pc = .leaf c) :
      WorkStep H glob f parentR outpos sh w { sh with μ := μ } { w with pc := .leafReturn p }
  | noLeafFound (p : ℕ) (hpc : w.pc = .leafReturn p) (hp : p ≤ sh.outpos) :
      WorkStep H glob f parentR outpos sh w sh (w.reject f false)
  | leafFound (p : ℕ) (hpc : w.pc = .leafReturn p) (hp : ¬ p ≤ sh.outpos) :
      WorkStep H glob f parentR outpos sh w sh { w with pc := .test }
  | writeOut2 (hpc : w.pc = .writeOut2) :
      WorkStep H glob f parentR outpos sh w
        { sh with μ := sh.μ.write f.out2 outpos w.item } { w with pc := .test }
  | out (hpc : w.pc = .test) (htype : f.type = 0)
      (hout : isOut H f.weight glob.weightMax w.item f.x = true) :
      WorkStep H glob f parentR outpos sh w sh (w.reject f false)
  | accept (hpc : w.pc = .test)
      (hin : f.type = 0 → isOut H f.weight glob.weightMax w.item f.x = false) :
      WorkStep H glob f parentR outpos sh w sh { w with pc := .publish }
  | publish (hpc : w.pc = .publish) :
      WorkStep H glob f parentR outpos sh w
        ⟨sh.outpos + 1, sh.μ.write f.out outpos w.item⟩ { w with pc := .done }

variable {H glob f}

/-- **All that one step of a worker can do.** -/
theorem doWork_step {parentR : ℤ} {outpos : ℕ} {sh sh' : Shared} {w w' : Worker}
    (h : doWork H glob f parentR outpos sh w = some (sh', w')) :
    WorkStep H glob f parentR outpos sh w sh' w' := by
  unfold doWork at h
  dsimp only at h
  -- One case for each program point, and in it one for each branch of the source.
  split at h
  · rename_i hpc
    cases h; exact .start hpc
  · rename_i hpc
    split at h
    · rename_i e hdraw
      cases h; exact .drawFault e hpc hdraw
    · rename_i hdraw
      cases h; exact .drawEmpty hpc hdraw
    · rename_i item hdraw
      cases h; exact .drawSkip item hpc hdraw
    · rename_i item b hdraw
      cases h; exact .descend item b hpc hdraw
    · rename_i item hdraw
      cases h; exact .candidate item hpc hdraw
  · rename_i hpc
    split at h
    · rename_i hcol
      cases h; exact .collide hpc hcol
    · rename_i hcol
      have hnext : WorkStep H glob f parentR outpos sh w sh _ :=
        WorkStep.noCollide hpc (Bool.not_eq_true _ ▸ hcol)
      split at h
      · rename_i hrec
        rw [if_pos hrec] at hnext
        split at h
        · rename_i hneg
          cases h; simpa only [hneg, if_true] using hnext
        · rename_i hneg
          cases h; simpa only [hneg, if_false] using hnext
      · rename_i hrec
        cases h; simpa only [hrec, if_false, Bool.false_eq_true] using hnext
  · rename_i hpc
    split at h
    · rename_i e hread
      cases h; exact .leafFault e sh.μ (Or.inl hpc)
    · cases h; exact .leafMove _ sh.μ (Or.inl hpc)
  · rename_i c hpc
    split at h
    · rename_i e hleaf
      cases h; exact .leafFault e.stop e.μ (Or.inr ⟨c, hpc⟩)
    · cases h; exact .leafMove _ _ (Or.inr ⟨c, hpc⟩)
    · cases h; exact .leafEnd _ _ ⟨c, hpc⟩
  · rename_i p hpc
    split at h
    · rename_i hp
      cases h; exact .noLeafFound p hpc hp
    · rename_i hp
      cases h; exact .leafFound p hpc hp
  · rename_i hpc
    cases h; exact .writeOut2 hpc
  · rename_i hpc
    split at h
    · rename_i hout
      simp only [Bool.and_eq_true, beq_iff_eq] at hout
      cases h; exact .out hpc hout.1 hout.2
    · rename_i hout
      simp only [Bool.and_eq_true, beq_iff_eq, not_and, Bool.not_eq_true] at hout
      cases h; exact .accept hpc hout
  · rename_i hpc
    cases h; exact .publish hpc
  · simp at h
  · simp at h

/-- A step of the system is a step of one worker. -/
theorem parStep_step {s s' : Par} {k : Fin 3} (h : parStep H glob f s k = some s') :
    ∃ w, WorkStep H glob f k k s.sh (s.w k) s'.sh w ∧ s'.w = Function.update s.w k w := by
  unfold parStep at h
  rw [work_eq] at h
  split at h
  · simp at h
  · rename_i sh w hw
    cases h
    exact ⟨w, doWork_step hw, rfl⟩

/-! ### Publications -/

/-- The worker has published its item. -/
def Pc.isDone : Pc → Bool
  | .done => true
  | _ => false

theorem Pc.isDone_iff {pc : Pc} : pc.isDone = true ↔ pc = .done := by
  cases pc <;> simp [Pc.isDone]

/-- The number of workers that have published. -/
def Par.published (s : Par) : ℕ := (List.finRange 3).countP fun k => (s.w k).pc.isDone

/-- The code at `reject:` never ends a worker. -/
@[simp] theorem Worker.reject_isDone (w : Worker) (collide : Bool) :
    (w.reject f collide).pc.isDone = false := by
  unfold Worker.reject
  split <;> rfl

/-- A worker that moves has not published. -/
theorem WorkStep.not_done {parentR : ℤ} {outpos : ℕ} {sh sh' : Shared} {w w' : Worker}
    (h : WorkStep H glob f parentR outpos sh w sh' w') : w.pc.isDone = false := by
  cases h with
  | leafFault e μ hpc | leafMove c μ hpc =>
    rcases hpc with hpc | ⟨c, hpc⟩ <;> simp [hpc, Pc.isDone]
  | leafEnd p μ hpc =>
    obtain ⟨c, hpc⟩ := hpc
    simp [hpc, Pc.isDone]
  | start hpc | writeOut2 hpc | publish hpc => simp [hpc, Pc.isDone]
  | drawFault e hpc | drawSkip e hpc | candidate e hpc => simp [hpc, Pc.isDone]
  | drawEmpty hpc | collide hpc | noCollide hpc | accept hpc => simp [hpc, Pc.isDone]
  | descend item b hpc => simp [hpc, Pc.isDone]
  | noLeafFound p hpc | leafFound p hpc | out hpc => simp [hpc, Pc.isDone]

/-- A worker counts in `outpos` when it publishes. -/
theorem WorkStep.outpos_eq {parentR : ℤ} {outpos : ℕ} {sh sh' : Shared} {w w' : Worker}
    (h : WorkStep H glob f parentR outpos sh w sh' w') :
    sh'.outpos = sh.outpos + if w'.pc.isDone then 1 else 0 := by
  have hnot := h.not_done
  -- Only `publish` ends a worker, and only it counts `outpos` on.
  cases h with
  | noCollide hpc hcol =>
    dsimp only
    split
    · split <;> rfl
    · rfl
  | descend item b hpc hdraw =>
    show sh.outpos = sh.outpos + if w.pc.isDone then 1 else 0
    simp [hnot]
  | drawEmpty hpc | collide hpc | noLeafFound p hpc | out hpc => simp
  | _ => rfl

/-- The number of workers that have published. -/
theorem Par.published_eq (s : Par) :
    s.published = (if (s.w 0).pc.isDone then 1 else 0) + (if (s.w 1).pc.isDone then 1 else 0)
      + (if (s.w 2).pc.isDone then 1 else 0) := by
  simp [Par.published, List.finRange_succ, List.countP_cons]
  omega

/-- A worker that has not published moves, and has published now or not. -/
theorem Par.published_update {s s' : Par} {k : Fin 3} {w : Worker}
    (hw : s'.w = Function.update s.w k w) (hnot : (s.w k).pc.isDone = false) :
    s'.published = s.published + if w.pc.isDone then 1 else 0 := by
  have hself : (s'.w k).pc.isDone = w.pc.isDone := by rw [hw, Function.update_self]
  have hother : ∀ j, j ≠ k → (s'.w j).pc.isDone = (s.w j).pc.isDone := by
    intro j hj
    rw [hw, Function.update_of_ne hj]
  rw [Par.published_eq, Par.published_eq]
  obtain rfl | rfl | rfl : k = 0 ∨ k = 1 ∨ k = 2 := by omega
  · rw [hself, hother 1 (by decide), hother 2 (by decide), hnot, if_neg Bool.false_ne_true]
    omega
  · rw [hself, hother 0 (by decide), hother 2 (by decide), hnot, if_neg Bool.false_ne_true]
    omega
  · rw [hself, hother 0 (by decide), hother 1 (by decide), hnot, if_neg Bool.false_ne_true]
    omega

/-- `firstn->outpos` counts the workers that have published. -/
theorem outpos_eq_published {μ : Store} {tr : List (Par × Fin 3)} {s : Par}
    (h : Run (parStep H glob f) (Par.init f μ) tr s) : s.sh.outpos = s.published := by
  refine h.invariant' (fun s => s.sh.outpos = s.published) rfl fun s k s' hI hs => ?_
  obtain ⟨w, hstep, hw⟩ := parStep_step hs
  rw [hstep.outpos_eq, hI, Par.published_update hw hstep.not_done]

/-- When `outpos` reaches 3 every worker has published. -/
theorem done_of_outpos {μ : Store} {tr : List (Par × Fin 3)} {s : Par}
    (h : Run (parStep H glob f) (Par.init f μ) tr s) (hout : s.sh.outpos = 3) (k : Fin 3) :
    (s.w k).pc = .done := by
  have hall : s.published = (List.finRange 3).length := (outpos_eq_published h).symm.trans hout
  exact Pc.isDone_iff.mp (List.countP_eq_length.mp hall k (List.mem_finRange k))

end MyCeph.Crush
