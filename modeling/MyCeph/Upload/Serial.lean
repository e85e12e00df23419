import MyCeph.Upload.Concurrent

namespace MyCeph.Upload

open Lib

/-!
# Concurrent uploads, one after the other

`UploadFile` as one step (`serialStep`), and what the interleaved calls of `Concurrent` have in
common with it.

* `uploads_linearizable` — when every stream names its file, a call takes effect as a whole in
  the step in which it ends: with the calls in the order of these steps, the server that runs
  one at a time returns the same status to each of them, the same response to those that are OK,
  and leaves the same pool;
* `pool_lastWriter` — whatever the streams, an object holds what the last call that wrote it has
  received, and nothing of any other call.
-/

variable {ι : Type*} [DecidableEq ι] {streams : ι → List UploadFileRequest}

/-! ### The receive loop, in one go -/

/-- What the body of the loop adds up to. -/
theorem foldl_receive (stream : List UploadFileRequest) (st : Receiving) :
    stream.foldl receive st = { name := lastName st.name stream
                                bl := st.bl ++ payload stream
                                response := { st.response with
                                  id := if stream = [] then st.response.id
                                    else lastName st.name stream } } := by
  induction stream generalizing st with
  | nil => simp [lastName, payload]
  | cons part parts ih =>
    rw [List.foldl_cons, ih]
    have hname : lastName (receive st part).name parts = lastName st.name (part :: parts) := rfl
    have hbl : (receive st part).bl ++ payload parts = st.bl ++ payload (part :: parts) := by
      simp [receive, payload, List.append_assoc]
    rw [hname, hbl, if_neg (List.cons_ne_nil _ _)]
    split
    · -- This was the last message: it has set the id to the name.
      rename_i hnil
      subst hnil
      rfl
    · rfl

/-- With a `FileInfo` in the stream, nothing of the default name is left. -/
theorem foldl_receive_start {stream : List UploadFileRequest} (h : infoName stream ≠ none)
    (c c' : ℤ) :
    stream.foldl receive (Receiving.start c) = stream.foldl receive (Receiving.start c') := by
  have hname : lastName (defaultName c) stream = lastName (defaultName c') stream := by
    obtain ⟨name, hname⟩ := Option.ne_none_iff_exists'.mp h
    unfold infoName at hname
    rw [lastName_eq, lastName_eq, hname]
    rfl
  have hnil : stream ≠ [] := by
    rintro rfl
    exact h rfl
  rw [foldl_receive, foldl_receive]
  simp only [Receiving.start, hname, if_neg hnil]

/-- Without exceptions the loop runs the body over all messages. -/
theorem receiveAll_foldl {throws : ℕ → Option String} {i : ℕ} {stream : List UploadFileRequest}
    (h : ∀ j, throws j = none) (st : Receiving) :
    receiveAll throws i stream st = .ok (stream.foldl receive st) := by
  induction stream generalizing i st with
  | nil => rfl
  | cons part parts ih =>
    unfold receiveAll
    rw [h i]
    exact ih (receive st part)

/-- A message that throws leaves the response that the messages before it have made. -/
theorem receiveAll_throws {throws : ℕ → Option String} {what : String} {i : ℕ}
    (got : List UploadFileRequest) {part : UploadFileRequest} {rest : List UploadFileRequest}
    (hbefore : ∀ j < got.length, throws (i + j) = none)
    (hnow : throws (i + got.length) = some what) (st : Receiving) :
    receiveAll throws i (got ++ part :: rest) st
      = .error ⟨what, (got.foldl receive st).response⟩ := by
  induction got generalizing i st with
  | nil =>
    unfold receiveAll
    simp only [List.nil_append, List.length_nil, Nat.add_zero] at hnow ⊢
    rw [hnow]
    rfl
  | cons part' got ih =>
    rw [List.cons_append]
    unfold receiveAll
    rw [show throws i = none from hbefore 0 (by simp)]
    -- The positions shift by the message that has been received.
    apply ih
    · intro j hj
      rw [show i + 1 + j = i + (j + 1) by omega]
      exact hbefore (j + 1) (by simpa using hj)
    · rw [show i + 1 + got.length = i + (got.length + 1) by omega]
      exact hnow

/-! ### The server that runs one call at a time -/

/-- The global variable, the pool, and what the calls that have returned have left behind. -/
structure Serial (ι : Type*) where
  count : ℤ
  pool : Objects
  outcome : ι → Option Outcome

/-- Before the calls. -/
def Serial.start (ι : Type*) (count : ℤ) (pool : Objects) : Serial ι :=
  ⟨count, pool, fun _ => none⟩

/-- All of one call. -/
def serialStep (streams : ι → List UploadFileRequest) (t : Serial ι) (call : ι × Events) :
    Option (Serial ι) :=
  match t.outcome call.1 with
  | some _ => none
  | none =>
    let o := uploadFile call.2 t.count t.pool (streams call.1)
    some ⟨o.count, o.pool, Function.update t.outcome call.1 (some o)⟩

/-- The call that ends in a step of the interleaved server, with what happened around it. -/
def ending (streams : ι → List UploadFileRequest) : World ι × Action ι → Option (ι × Events)
  | (s, .receive i (some what)) =>
    match s.call i with
    | .receiving _ _ rest =>
      -- The message being handled is the first one of `rest`.
      some (i, ⟨fun j => if j + rest.length = (streams i).length then some what else none, 0⟩)
    | _ => none
  | (_, .write i result) => some (i, ⟨fun _ => none, result⟩)
  | _ => none

/-- What a call returns and the response it leaves, and what it has stored. -/
structure Returned where
  status : Status
  response : UploadFileResponse
  stored : Option (String × Bytes)

/-- The same but for the response of a call that is not OK, which no client gets to see. -/
structure Returned.Same (r r' : Returned) : Prop where
  status : r.status = r'.status
  stored : r.stored = r'.stored
  response : r.status = .ok → r.response = r'.response

/-- What a call that has ended returns. -/
def CallPc.returned : CallPc → Option Returned
  | .written _ st result =>
    let (ret, _) := radosWrite result (fun _ => none) st.name st.bl
    some ⟨if ret < 0 then .cancelled else .ok, st.response,
      if result < 0 then none else some (st.name, st.bl)⟩
  | .aborted _ thrown => some ⟨.aborted thrown.what, thrown.response, none⟩
  | .start | .counted | .receiving _ _ _ => none

/-- The same of a call that has run as a whole. -/
def Outcome.returned (o : Outcome) : Returned := ⟨o.status, o.response, o.stored⟩

/-- The call has returned the same in both servers, or in neither of them yet. -/
def SameReturns (o : Option Outcome) (pc : CallPc) : Prop :=
  Option.Rel Returned.Same (o.map Outcome.returned) pc.returned

/-- The call has incremented `count` and has not ended. -/
def CallPc.InFlight : CallPc → Prop
  | .counted | .receiving _ _ _ => True
  | .start | .written _ _ _ | .aborted _ _ => False

theorem CallPc.not_inFlight {pc : CallPc} {r} (h : pc.returned = some r) : ¬ pc.InFlight := by
  cases pc with
  | start => exact id
  | counted => cases h
  | receiving seen st rest => cases h
  | written seen st result => exact id
  | aborted seen thrown => exact id

/-- A call in flight has not returned. -/
theorem CallPc.InFlight.returned_eq_none {pc : CallPc} (h : pc.InFlight) :
    pc.returned = none := by
  cases hret : pc.returned with
  | none => rfl
  | some r => exact absurd h (CallPc.not_inFlight hret)

/-! ### Refinement -/

/-- The loop has run over the messages received. -/
def Local (stream : List UploadFileRequest) : CallPc → Prop
  | .receiving seen st rest => ∃ got, got ++ rest = stream ∧
      st = got.foldl receive (Receiving.start seen)
  | .start | .counted | .written _ _ _ | .aborted _ _ => True

/-- The server that runs one call at a time has run those that have ended. -/
structure Linearized (streams : ι → List UploadFileRequest) (s : World ι) (t : Serial ι) :
    Prop where
  inside : ∀ i, Local (streams i) (s.call i)
  pool : t.pool = s.pool
  returned : ∀ i, SameReturns (t.outcome i) (s.call i)
  count : ∃ calls : Finset ι, (∀ i, i ∈ calls ↔ (s.call i).InFlight) ∧
    s.count = t.count + calls.card

variable {s s' : World ι} {t : Serial ι} {a : Action ι}

/-- **Step lemma.**  Every call's variables are those of its own loop. -/
theorem local_step (h : ∀ i, Local (streams i) (s.call i)) (hs : UploadStep streams s a s') :
    ∀ i, Local (streams i) (s'.call i) := by
  cases hs with
  | increment i hpc => exact s.forall_move h trivial
  | readCount i hpc => exact s.forall_move h ⟨[], rfl, rfl⟩
  | receive i seen st part rest hpc =>
    apply s.forall_move h
    have hi := h i
    rw [hpc] at hi
    obtain ⟨got, hgot, hst⟩ := hi
    refine ⟨got ++ [part], by rw [List.append_assoc]; exact hgot, ?_⟩
    rw [List.foldl_append, ← hst]
    rfl
  | abort i what seen st part rest hpc => exact s.forall_move h trivial
  | write i result seen st hpc => exact s.forall_move h trivial

/-- A call that goes on without ending: nothing that it returns changes. -/
theorem returned_move {i : ι} {pc : CallPc} (h : pc.returned = (s.call i).returned)
    (hret : ∀ i, SameReturns (t.outcome i) (s.call i)) :
    ∀ j, SameReturns (t.outcome j) ((s.move i pc).call j) := by
  apply World.forall_move (Q := fun j pc => SameReturns (t.outcome j) pc) hret
  unfold SameReturns
  rw [h]
  exact hret i

/-- A call that has returned in neither server. -/
theorem SameReturns.outcome_none {o : Option Outcome} {pc : CallPc} (h : SameReturns o pc)
    (hpc : pc.returned = none) : o = none := by
  unfold SameReturns at h
  rw [hpc] at h
  cases o with
  | none => rfl
  | some o => cases h

/-- A call in flight that goes on without ending. -/
theorem Linearized.goesOn (h : Linearized streams s t) {i : ι} {pc : CallPc}
    (hi : (s.call i).InFlight) (hpc : pc.InFlight)
    (hinside : ∀ j, Local (streams j) ((s.move i pc).call j)) :
    Linearized streams (s.move i pc) t := by
  obtain ⟨calls, hcalls, hcount⟩ := h.count
  have hret : pc.returned = (s.call i).returned := by
    rw [hi.returned_eq_none, hpc.returned_eq_none]
  refine ⟨hinside, h.pool, returned_move hret h.returned, calls, ?_, hcount⟩
  apply World.forall_move (Q := fun j pc => j ∈ calls ↔ pc.InFlight) hcalls
  exact iff_of_true ((hcalls i).mpr hi) hpc

/-- **Silent steps**: a step that ends no call. -/
theorem Linearized.silent (h : Linearized streams s t) (hs : UploadStep streams s a s')
    (hlabel : ending streams (s, a) = none) : Linearized streams s' t := by
  have hinside := local_step h.inside hs
  -- Before its end a call changes the counter alone, and counts as one in flight.
  cases hs with
  | increment i hpc =>
    obtain ⟨calls, hcalls, hcount⟩ := h.count
    have hnot : i ∉ calls := by
      intro hi
      have hflight := (hcalls i).mp hi
      rw [hpc] at hflight
      exact hflight
    refine ⟨hinside, h.pool, returned_move (by rw [hpc]; rfl) h.returned,
      insert i calls, ?_, ?_⟩
    · intro j
      by_cases hj : j = i
      · subst hj
        simp only [Finset.mem_insert_self, true_iff]
        show ((s.move j .counted).call j).InFlight
        rw [World.move_self]
        trivial
      · rw [Finset.mem_insert, hcalls j]
        show (j = i ∨ (s.call j).InFlight) ↔ ((s.move i .counted).call j).InFlight
        rw [World.move_of_ne s _ hj]
        simp [hj]
    · rw [Finset.card_insert_of_notMem hnot]
      push_cast
      omega
  | readCount i hpc => exact h.goesOn (by rw [hpc]; trivial) trivial hinside
  | receive i seen st part rest hpc => exact h.goesOn (by rw [hpc]; trivial) trivial hinside
  | abort i what seen st part rest hpc =>
    simp only [ending, hpc] at hlabel
    cases hlabel
  | write i result seen st hpc => cases hlabel

/-- The whole call runs where the interleaved one ends. -/
theorem Linearized.ends (h : Linearized streams s t) {i : ι} {ev : Events} {pc : CallPc}
    {pool : Objects} {r : Returned} (hflight : (s.call i).InFlight)
    (hout : (uploadFile ev t.count t.pool (streams i)).pool = pool)
    (hcount : (uploadFile ev t.count t.pool (streams i)).count = t.count + 1)
    (hpc : pc.returned = some r)
    (hret : (uploadFile ev t.count t.pool (streams i)).returned.Same r)
    (hinside : ∀ j, Local (streams j) ((s.move i pc).call j)) :
    ∃ t', serialStep streams t (i, ev) = some t' ∧
      Linearized streams { s.move i pc with pool := pool } t' := by
  -- A call in flight has not been executed in the serial order yet.
  have hfree : t.outcome i = none :=
    (h.returned i).outcome_none hflight.returned_eq_none
  obtain ⟨calls, hcalls, hin⟩ := h.count
  refine ⟨_, by simp only [serialStep, hfree]; rfl, hinside, hout, ?_, calls.erase i, ?_, ?_⟩
  · intro j
    show SameReturns (Function.update t.outcome i _ j) ((s.move i pc).call j)
    by_cases hj : j = i
    · subst hj
      rw [Function.update_self, World.move_self]
      unfold SameReturns
      rw [hpc]
      exact .some hret
    · rw [Function.update_of_ne hj, World.move_of_ne s pc hj]
      exact h.returned j
  · intro j
    show j ∈ calls.erase i ↔ ((s.move i pc).call j).InFlight
    by_cases hj : j = i
    · subst hj
      rw [World.move_self]
      simp [CallPc.not_inFlight hpc]
    · rw [World.move_of_ne s pc hj]
      simp [hj, hcalls j]
  · -- The serial counter moves on now, so the call is no longer one ahead.
    have hi : i ∈ calls := (hcalls i).mpr hflight
    have hpos : 0 < calls.card := Finset.card_pos.mpr ⟨i, hi⟩
    show s.count = (uploadFile ev t.count t.pool (streams i)).count + _
    rw [hcount, hin, Finset.card_erase_of_mem hi]
    omega

/-- **Visible steps**: a step that ends a call. -/
theorem Linearized.visible (hinfo : ∀ i, infoName (streams i) ≠ none)
    (h : Linearized streams s t) (hs : UploadStep streams s a s') {b : ι × Events}
    (hlabel : ending streams (s, a) = some b) :
    ∃ t', serialStep streams t b = some t' ∧ Linearized streams s' t' := by
  have hinside := local_step h.inside hs
  cases hs with
  | increment i hpc | readCount i hpc | receive i seen st part rest hpc => cases hlabel
  | abort i what seen st part rest hpc =>
    simp only [ending, hpc, Option.some.injEq] at hlabel
    subst hlabel
    have hi := h.inside i
    rw [hpc] at hi
    obtain ⟨got, hgot, -⟩ := hi
    have hrec : receiveAll (fun j => if j + (part :: rest).length = (streams i).length
        then some what else none) 0 (streams i) (Receiving.start (t.count + 1))
        = .error ⟨what, (got.foldl receive (Receiving.start (t.count + 1))).response⟩ := by
      rw [← hgot]
      apply receiveAll_throws
      · intro j hj
        rw [if_neg]
        simp only [List.length_append]
        omega
      · rw [if_pos]
        simp only [List.length_append]
        omega
    have hcall : uploadFile ⟨fun j => if j + (part :: rest).length = (streams i).length
        then some what else none, 0⟩ t.count t.pool (streams i)
        = ⟨.aborted what, (got.foldl receive (Receiving.start (t.count + 1))).response, t.pool,
          none, t.count + 1⟩ := by
      unfold uploadFile
      dsimp only
      rw [hrec]
    apply h.ends
    · rw [hpc]
      trivial
    · rw [hcall]
      exact h.pool
    · rw [hcall]
    · rfl
    · -- The two responses may hold the two default names.
      rw [hcall]
      exact ⟨rfl, rfl, fun hok => by cases hok⟩
    · exact hinside
  | write i result seen st hpc =>
    cases hlabel
    have hi := h.inside i
    rw [hpc] at hi
    obtain ⟨got, hgot, hst⟩ := hi
    rw [List.append_nil] at hgot
    subst hgot
    -- The names come from a `FileInfo`, so the two values of `count` do not matter.
    rw [foldl_receive_start (hinfo i) seen (t.count + 1)] at hst
    have hret : ¬ (radosWrite result t.pool st.name st.bl).1 < 0 :=
      Int.not_lt.mpr (radosWrite_nonneg _ _ _ _)
    have hret' : ¬ (radosWrite result (fun _ => none) st.name st.bl).1 < 0 :=
      Int.not_lt.mpr (radosWrite_nonneg _ _ _ _)
    have hcall : uploadFile ⟨fun _ => none, result⟩ t.count t.pool (streams i)
        = ⟨.ok, st.response, if result < 0 then t.pool else t.pool.insert st.name st.bl,
          if result < 0 then none else some (st.name, st.bl), t.count + 1⟩ := by
      unfold uploadFile
      dsimp only
      rw [receiveAll_foldl (fun _ => rfl), ← hst]
      dsimp only
      rw [if_neg hret]
      rfl
    apply h.ends
    · rw [hpc]
      trivial
    · rw [hcall, h.pool]
    · rw [hcall]
    · rfl
    · rw [hcall]
      exact ⟨(if_neg hret').symm, rfl, fun _ => rfl⟩
    · exact hinside

/-- **Uploads that name their file are linearizable.**  However the steps of the calls
    interleave, the server that runs them one at a time, in the order in which they end and with
    the same exceptions and results of `write_full`, has the same pool, has returned the same
    status to every call that has ended and the same response to those that are OK, has stored the
    same for it, and is behind in `count` by the calls that have not ended. -/
theorem uploads_linearizable (streams : ι → List UploadFileRequest) (count : ℤ) (pool : Objects)
    (tr : List (World ι × Action ι)) (s : World ι) (hinfo : ∀ i, infoName (streams i) ≠ none)
    (hrun : Run (uploadStep streams) (World.start ι count pool) tr s) :
    ∃ tr' t, Run (serialStep streams) (Serial.start ι count pool) tr' t ∧
      tr'.map Prod.snd = tr.filterMap (ending streams) ∧
      t.pool = s.pool ∧
      (∀ i, SameReturns (t.outcome i) (s.call i)) ∧
      ∃ calls : Finset ι, (∀ i, i ∈ calls ↔ (s.call i).InFlight) ∧
        s.count = t.count + calls.card := by
  have hstart : Linearized streams (World.start ι count pool) (Serial.start ι count pool) := by
    refine ⟨fun i => trivial, rfl, fun i => .none, ∅, fun i => ?_, ?_⟩
    · simp [World.start, CallPc.InFlight]
    · simp [World.start, Serial.start]
  obtain ⟨tr', t, hrun', hlabels, h⟩ := hrun.simulates (Linearized streams) (ending streams) hstart
    (fun s a s' t h hs hlabel => h.silent (uploadStep_step hs) hlabel)
    (fun s a s' t b h hs hlabel => h.visible hinfo (uploadStep_step hs) hlabel)
  exact ⟨tr', t, hrun', hlabels, h.pool, h.returned, h.count⟩

/-- Two calls that send a chunk each under one name. -/
def namedStreams (second : Bool) : List UploadFileRequest :=
  [infoRequest "a", .chunkData [if second then 2 else 1]]

/-- The steps of the two calls in turns; handling the chunk of the second one throws. -/
def turns : List (Action Bool) :=
  [.increment false, .increment true, .readCount true, .readCount false, .receive true none,
    .receive false none, .receive true (some "bad_alloc"), .receive false none, .write false 0]

/-- The second call ends first and leaves nothing. -/
theorem uploads_linearizable_turns :
    ∃ tr' t, Run (serialStep namedStreams) (Serial.start Bool 0 fun _ => none) tr' t ∧
      tr'.length = 2 ∧ t.pool "a" = some [1] ∧ t.count = 2 := by
  have hrun : Run (uploadStep namedStreams) (World.start Bool 0 fun _ => none) _ _ :=
    Run.of_follow .start (show follow _ turns [] _ = some (_, _) from rfl)
  obtain ⟨tr', t, hrun', hlabels, hpool, -, calls, hcalls, hcount⟩ :=
    uploads_linearizable namedStreams 0 (fun _ => none) _ _ (fun _ h => by cases h) hrun
  have hnone : calls = ∅ := by
    ext i
    rw [hcalls i]
    cases i
    · exact ⟨fun h => h.elim, fun h => absurd h (Finset.notMem_empty _)⟩
    · exact ⟨fun h => h.elim, fun h => absurd h (Finset.notMem_empty _)⟩
  refine ⟨tr', t, hrun', ?_, ?_, ?_⟩
  · have hlength := congrArg List.length hlabels
    rw [List.length_map] at hlength
    rw [hlength]
    rfl
  · rw [hpool]
    rfl
  · rw [hnone, Finset.card_empty, Nat.cast_zero, add_zero] at hcount
    exact hcount.symm

/-! ### What an object holds -/

/-- What a step writes under `name`: all that the call has received. -/
def uploaded (streams : ι → List UploadFileRequest) (name : String) :
    World ι × Action ι → Option Bytes
  | (s, .write i result) =>
    match s.call i with
    | .receiving _ st [] =>
      if 0 ≤ result ∧ st.name = name then some (payload (streams i)) else none
    | _ => none
  | _ => none

/-- **Step lemma.**  A step changes the object that it writes, and no other. -/
theorem pool_step (hreceives : ∀ i, Receives (streams i) (s.call i))
    (hs : UploadStep streams s a s') (name : String) :
    s'.pool name = (uploaded streams name (s, a)).or (s.pool name) := by
  cases hs with
  | increment i hpc | readCount i hpc | receive i seen st part rest hpc
  | abort i what seen st part rest hpc => rfl
  | write i result seen st hpc =>
    have hi := hreceives i
    rw [hpc] at hi
    have hwritten : Receives (streams i) (.written seen st result) := hi.write
    obtain ⟨-, hbl⟩ := hwritten
    simp only [uploaded, hpc]
    by_cases hneg : result < 0
    · rw [if_pos hneg, if_neg (by omega)]
      rfl
    rw [if_neg hneg]
    -- A successful write shows under its own name only.
    by_cases hname : st.name = name
    · rw [if_pos ⟨by omega, hname⟩, ← hname, Objects.insert_self, hbl]
      rfl
    · rw [if_neg fun h => hname h.2]
      exact if_neg (Ne.symm hname)

/-- **The last writer wins.**  After any interleaving, with or without `FileInfo`s, the object
    under a name is all that the call which wrote it last has received, or what was there before
    if no call has written it. -/
theorem pool_lastWriter (streams : ι → List UploadFileRequest) (count : ℤ) (pool : Objects)
    (tr : List (World ι × Action ι)) (s : World ι)
    (hrun : Run (uploadStep streams) (World.start ι count pool) tr s) (name : String) :
    s.pool name = (tr.findSome? (uploaded streams name)).or (pool name) := by
  induction hrun with
  | start => rfl
  | @step tr s s' a hrun hs ih =>
    have hreceives : ∀ i, Receives (streams i) (s.call i) := by
      refine hrun.invariant' (fun s => ∀ i, Receives (streams i) (s.call i)) ?_
        fun s a s' h hs => receives_step h (uploadStep_step hs)
      intro i
      trivial
    rw [pool_step hreceives (uploadStep_step hs) name, ih, List.findSome?_cons]
    cases uploaded streams name (s, a) with
    | none => rfl
    | some data => rfl

/-- Two calls under the same default name: the object is the chunk of the second one alone. -/
theorem pool_lastWriter_sameName :
    ∃ tr s, Run (uploadStep twoStreams) (World.start Bool 0 fun _ => none) tr s ∧
      s.pool (defaultName 2) = some [2] := by
  have hrun : Run (uploadStep twoStreams) (World.start Bool 0 fun _ => none) _ _ :=
    Run.of_follow .start (show follow _ [.increment false, .increment true, .readCount false,
      .readCount true, .receive false none, .receive true none, .write false 0, .write true 0] [] _
      = some (_, _) from rfl)
  exact ⟨_, _, hrun, pool_lastWriter twoStreams 0 (fun _ => none) _ _ hrun (defaultName 2)⟩

end MyCeph.Upload
