import Mathlib.Data.Nat.Find
import Mathlib.Logic.Relation
import MyCeph.Upload.Client

namespace MyCeph.Upload

open Lib Relation

/-!
# The send loop over failing files

The send loop of `UploadFromLocalFile` with a log of its `Send` calls (`sendPassLogged`, which is
`sendPass` once the log is forgotten).  The only read that ends the loop is `io.EOF`; every other
failed read is sent as an empty chunk, and the loop goes round.  So what a run of the loop has done
after `n` passes is read off the first `n` reads (`Env.after`), and the loop ends if and only if
some read is `io.EOF`.
-/

/-- A call of `Send` in the loop: the read its chunk comes from, and the error it returns. -/
structure SendCall where
  read : ℕ
  err : Option String

/-- The send loop with its calls of `Send` so far. -/
structure Logged where
  sending : Sending
  calls : List SendCall

/-- One pass of the send loop, with its call of `Send` logged. -/
def sendPassLogged (env : Env) (st : Logged) : Except ClientError (Next Logged Logged) :=
  match env.reads st.sending.n with
  | .eof => .ok (.exit st)
  | res =>
    let err := env.sendErr (st.sending.n + 1)
    let calls := st.calls ++ [⟨st.sending.n, err⟩]
    match err with
    | none => .ok (.again
        ⟨⟨st.sending.n + 1, st.sending.delivered ++ [.chunkData res.bytes]⟩, calls⟩)
    | some _ => .ok (.again ⟨⟨st.sending.n + 1, st.sending.delivered⟩, calls⟩)

/-- With the log forgotten, it is the send loop of the client. -/
theorem sendPass_logged (env : Env) (st : Logged) :
    sendPass env st.sending
      = (sendPassLogged env st).map (Next.map Logged.sending Logged.sending) := by
  unfold sendPass sendPassLogged
  cases env.reads st.sending.n with
  | eof => rfl
  | data bytes => cases env.sendErr (st.sending.n + 1) <;> rfl
  | error what => cases env.sendErr (st.sending.n + 1) <;> rfl

/-- The loop is reached: connection, stream, file and the message with the file info are fine. -/
def Env.Enters (env : Env) : Prop :=
  env.dialErr = none ∧ env.streamErr = none ∧ env.openErr = none ∧ env.sendErr 0 = none

/-- The state the loop starts in. -/
def Logged.start (env : Env) : Logged := ⟨⟨0, [infoRequest env.fileName]⟩, []⟩

/-- The states the loop goes through. -/
def Env.LoopReaches (env : Env) (st : Logged) : Prop :=
  ReflTransGen (fun s s' => sendPassLogged env s = .ok (.again s')) (Logged.start env) st

/-- A `Read` that returns bytes, and no error. -/
def ReadResult.IsData (res : ReadResult) : Prop := ∃ bytes, res = .data bytes

/-- The first error that the reader returns is `io.EOF`, at read `n`. -/
def Env.EndsAt (env : Env) (n : ℕ) : Prop :=
  env.reads n = .eof ∧ ∀ i < n, (env.reads i).IsData

/-- What is asked of the send loop, and of a client that returns nil. -/
structure SendLoopSound (env : Env) (ev : Events) (count : ℤ) (pool : Objects) : Prop where
  ends : env.Enters → ∃ fuel st,
    loop sendTimeout (sendPass env) fuel ⟨0, [infoRequest env.fileName]⟩ = .ok st
  no_failed_read : env.Enters → ∀ st, env.LoopReaches st → ∀ call ∈ st.calls,
    (env.reads call.read).IsData
  nil_only : ∀ fuel response pool',
    uploadFromLocalFile env ev count pool fuel = .ok (response, pool') →
      (∃ n, env.EndsAt n) ∧ ∀ st, env.LoopReaches st → ∀ call ∈ st.calls, call.err = none

/-! ### What `n` passes do -/

/-- What gets through of the chunk of read `i`: nothing if its `Send` fails. -/
def Env.chunkArriving (env : Env) (i : ℕ) : List UploadFileRequest :=
  match env.sendErr (i + 1) with
  | none => [.chunkData (env.reads i).bytes]
  | some _ => []

/-- The messages that `n` passes get through. -/
def Env.arriving (env : Env) (n : ℕ) : List UploadFileRequest :=
  infoRequest env.fileName :: (List.range n).flatMap env.chunkArriving

/-- The state after `n` passes. -/
def Env.after (env : Env) (n : ℕ) : Logged :=
  ⟨⟨n, env.arriving n⟩, (List.range n).map fun i => ⟨i, env.sendErr (i + 1)⟩⟩

/-- One pass more, and its chunk if it arrives. -/
theorem Env.arriving_succ (env : Env) (n : ℕ) :
    env.arriving (n + 1) = env.arriving n ++ env.chunkArriving n := by
  simp [Env.arriving, List.range_succ]

/-- The calls of `Send` are those of the passes made. -/
theorem Env.mem_calls_after {env : Env} {n : ℕ} {call : SendCall}
    (h : call ∈ (env.after n).calls) : call.read < n ∧ call.err = env.sendErr (call.read + 1) := by
  obtain ⟨i, hi, rfl⟩ := List.mem_map.mp h
  exact ⟨List.mem_range.mp hi, rfl⟩

/-- A pass that meets `io.EOF` ends the loop. -/
theorem sendPassLogged_eof {env : Env} {n : ℕ} (h : env.reads n = .eof) :
    sendPassLogged env (env.after n) = .ok (.exit (env.after n)) := by
  unfold sendPassLogged
  rw [show (env.after n).sending.n = n from rfl, h]

/-- Every other pass goes round, whatever `Read` and `Send` return. -/
theorem sendPassLogged_again {env : Env} {n : ℕ} (h : env.reads n ≠ .eof) :
    sendPassLogged env (env.after n) = .ok (.again (env.after (n + 1))) := by
  have hcalls : (env.after (n + 1)).calls
      = (env.after n).calls ++ [⟨n, env.sendErr (n + 1)⟩] := by
    simp [Env.after, List.range_succ]
  have hnext : env.after (n + 1) = ⟨⟨n + 1, env.arriving n ++ env.chunkArriving n⟩,
      (env.after n).calls ++ [⟨n, env.sendErr (n + 1)⟩]⟩ := by
    rw [← hcalls, ← env.arriving_succ]
    rfl
  rw [hnext]
  unfold sendPassLogged
  rw [show (env.after n).sending.n = n from rfl]
  cases hread : env.reads n with
  | eof => exact absurd hread h
  | data bytes =>
    cases hsend : env.sendErr (n + 1) with
    | none => simp [Env.chunkArriving, hsend, hread, Env.after]
    | some what => simp [Env.chunkArriving, hsend, Env.after]
  | error what =>
    -- A failed read is sent as an empty chunk.
    cases hsend : env.sendErr (n + 1) with
    | none => simp [Env.chunkArriving, hsend, hread, Env.after]
    | some what => simp [Env.chunkArriving, hsend, Env.after]

/-- **The run of the loop** goes through the states after `n` passes, up to the first `io.EOF`. -/
theorem Env.loopReaches_iff {env : Env} {st : Logged} :
    env.LoopReaches st ↔ ∃ n, st = env.after n ∧ ∀ i < n, env.reads i ≠ .eof := by
  constructor
  · intro h
    induction h with
    | refl => exact ⟨0, rfl, fun i hi => absurd hi (Nat.not_lt_zero i)⟩
    | tail _ hpass ih =>
      obtain ⟨n, rfl, hno⟩ := ih
      -- At the end of the file the pass leaves the loop, so there is no later state.
      by_cases heof : env.reads n = .eof
      · rw [sendPassLogged_eof heof] at hpass
        cases hpass
      · rw [sendPassLogged_again heof] at hpass
        cases hpass
        refine ⟨n + 1, rfl, fun i hi => ?_⟩
        rcases Nat.lt_succ_iff_lt_or_eq.mp hi with hlt | rfl
        · exact hno i hlt
        · exact heof
  · rintro ⟨n, rfl, hno⟩
    induction n with
    | zero => exact ReflTransGen.refl
    | succ n ih =>
      exact (ih fun i hi => hno i (by omega)).tail (sendPassLogged_again (hno n (by omega)))

/-- A loop whose first failed read is `io.EOF`, at read `n`, ends after `n` passes. -/
theorem Env.EndsAt.loop {env : Env} {n : ℕ} (h : env.EndsAt n) {fuel : ℕ} (hfuel : n < fuel) :
    loop sendTimeout (sendPass env) fuel ⟨0, [infoRequest env.fileName]⟩
      = .ok (env.after n).sending := by
  -- The same from every state on the way, by induction on the passes still to make.
  have hfrom : ∀ m k fuel, k + m = n → m < fuel →
      Lib.loop sendTimeout (sendPass env) fuel (env.after k).sending
        = .ok (env.after n).sending := by
    intro m
    induction m with
    | zero =>
      intro k fuel hk hlt
      obtain rfl : k = n := by omega
      obtain ⟨fuel, rfl⟩ : ∃ l, fuel = l + 1 := ⟨fuel - 1, by omega⟩
      exact loop_exit (by rw [sendPass_logged, sendPassLogged_eof h.1]; rfl)
    | succ m ih =>
      intro k fuel hk hlt
      obtain ⟨fuel, rfl⟩ : ∃ l, fuel = l + 1 := ⟨fuel - 1, by omega⟩
      obtain ⟨bytes, hdata⟩ := h.2 k (by omega)
      have hagain : sendPass env (env.after k).sending
          = .ok (.again (env.after (k + 1)).sending) := by
        rw [sendPass_logged, sendPassLogged_again (by rw [hdata]; nofun)]
        rfl
      rw [loop_again hagain]
      exact ih (k + 1) fuel (by omega) (by omega)
  exact hfrom n 0 fuel (Nat.zero_add n) hfuel

/-! ### When the send loop is sound -/

/-- The server's status is not OK if handling a message throws. -/
theorem uploadFile_status_iff (ev : Events) (count : ℤ) (pool : Objects)
    (stream : List UploadFileRequest) :
    (uploadFile ev count pool stream).status = .ok ↔ ∀ i < stream.length, ev.throws i = none := by
  by_cases hthrown : ∃ i < stream.length, ev.throws i ≠ none
  · obtain ⟨thrown, hcall⟩ := uploadFile_aborts ev count pool hthrown
    rw [hcall]
    obtain ⟨i, hi, hne⟩ := hthrown
    exact iff_of_false nofun fun hall => hne (hall i hi)
  · obtain ⟨response, -, hcall⟩ := uploadFile_writes ev count pool hthrown
    rw [hcall]
    exact iff_of_true rfl fun i hi => not_not.mp fun hne => hthrown ⟨i, hi, hne⟩

/-- An upload that gets through all of its calls returns what the server answers. -/
theorem Env.Enters.upload_eq {env : Env} (h : env.Enters) (ev : Events) (count : ℤ)
    (pool : Objects) {fuel : ℕ} {st : Sending}
    (hloop : Lib.loop sendTimeout (sendPass env) fuel ⟨0, [infoRequest env.fileName]⟩ = .ok st)
    (hrecv : env.recvErr = none) (hstatus : (uploadFile ev count pool st.delivered).status = .ok) :
    uploadFromLocalFile env ev count pool fuel
      = .ok ((uploadFile ev count pool st.delivered).response,
          (uploadFile ev count pool st.delivered).pool) := by
  obtain ⟨hdial, hstream, hopen, hinfo⟩ := h
  unfold uploadFromLocalFile
  simp only [hdial, hstream, hopen, hinfo, hloop, hrecv, hstatus, if_true]

/-- An upload that returns has opened the stream and the file. -/
theorem enters_of_ok {env : Env} {ev : Events} {count : ℤ} {pool pool' : Objects} {fuel : ℕ}
    {response : UploadFileResponse}
    (h : uploadFromLocalFile env ev count pool fuel = .ok (response, pool')) : env.Enters := by
  unfold uploadFromLocalFile at h
  split at h
  · simp at h
  · simp at h
  · simp at h
  · simp at h
  · rename_i hdial hstream hopen hinfo
    exact ⟨hdial, hstream, hopen, hinfo⟩

/-- A reader that keeps failing has a first read that is not data. -/
theorem Env.exists_first_failed {env : Env} (hfail : ∃ N, ∀ n ≥ N, ¬ (env.reads n).IsData) :
    ∃ n, ¬ (env.reads n).IsData ∧ ∀ i < n, (env.reads i).IsData := by
  classical
  obtain ⟨N, hN⟩ := hfail
  have hex : ∃ n, ¬ (env.reads n).IsData := ⟨N, hN N (le_refl N)⟩
  exact ⟨Nat.find hex, Nat.find_spec hex, fun i hi => not_not.mp (Nat.find_min hex hi)⟩

theorem ReadResult.IsData.ne_eof {res : ReadResult} (h : res.IsData) : res ≠ .eof := by
  obtain ⟨bytes, rfl⟩ := h
  nofun

section Sound

variable {env : Env} {ev : Events} {count : ℤ} {pool : Objects}

/-- While there is data the loop goes on. -/
theorem Env.loopReaches_after {n k : ℕ} (hbefore : ∀ i < n, (env.reads i).IsData) (hk : k ≤ n) :
    env.LoopReaches (env.after k) :=
  Env.loopReaches_iff.mpr ⟨k, rfl, fun i hi => (hbefore i (by omega)).ne_eof⟩

/-- No run of the loop gets past the first `io.EOF`. -/
theorem Env.EndsAt.le {n k : ℕ} (hends : env.EndsAt n) (hno : ∀ i < k, env.reads i ≠ .eof) :
    k ≤ n := by
  by_contra hlt
  exact hno n (by omega) hends.1

/-- In a sound loop the first error is `io.EOF`: the pass of any other one sends a chunk. -/
theorem SendLoopSound.endsAt (h : SendLoopSound env ev count pool) (henters : env.Enters)
    (hfail : ∃ N, ∀ n ≥ N, ¬ (env.reads n).IsData) : ∃ n, env.EndsAt n := by
  obtain ⟨n, hnot, hbefore⟩ := Env.exists_first_failed hfail
  refine ⟨n, ?_, hbefore⟩
  by_contra hne
  have hpass : env.LoopReaches (env.after (n + 1)) :=
    (Env.loopReaches_after hbefore (le_refl n)).tail (sendPassLogged_again hne)
  have hcall : (⟨n, env.sendErr (n + 1)⟩ : SendCall) ∈ (env.after (n + 1)).calls :=
    List.mem_map.mpr ⟨n, List.mem_range.mpr (Nat.lt_succ_self n), rfl⟩
  exact hnot (h.no_failed_read henters _ hpass _ hcall)

/-- In a sound loop every `Send` succeeds, unless the client does not return nil. -/
theorem SendLoopSound.sends (h : SendLoopSound env ev count pool) (henters : env.Enters) {n : ℕ}
    (hends : env.EndsAt n) : (∀ i < n, env.sendErr (i + 1) = none) ∨ env.recvErr ≠ none ∨
      ∃ i < (env.arriving n).length, ev.throws i ≠ none := by
  by_cases hrecv : env.recvErr = none
  · by_cases hthrows : ∃ i < (env.arriving n).length, ev.throws i ≠ none
    · exact Or.inr (Or.inr hthrows)
    · left
      have hstatus := (uploadFile_status_iff ev count pool (env.arriving n)).mpr fun i hi =>
        not_not.mp fun hne => hthrows ⟨i, hi, hne⟩
      have hnil := henters.upload_eq ev count pool (hends.loop (Nat.lt_succ_self n)) hrecv hstatus
      intro i hi
      exact (h.nil_only _ _ _ hnil).2 _ (Env.loopReaches_after hends.2 (le_refl n))
        ⟨i, env.sendErr (i + 1)⟩ (List.mem_map.mpr ⟨i, List.mem_range.mpr hi, rfl⟩)
  · exact Or.inr (Or.inl hrecv)

/-- A client that returns nil has ended its loop at the first `io.EOF`. -/
theorem Env.EndsAt.of_ok {n fuel : ℕ} (hends : env.EndsAt n) {response : UploadFileResponse}
    {pool' : Objects} (hnil : uploadFromLocalFile env ev count pool fuel = .ok (response, pool')) :
    env.recvErr = none ∧ ∀ i < (env.arriving n).length, ev.throws i = none := by
  obtain ⟨sending, hloop, hrecv, hstatus, -, -⟩ := uploadFromLocalFile_ok hnil
  have hmore := loop_mono (fun _ _ hb => hb) (Nat.le_add_right fuel (n + 1)) hloop
  rw [hends.loop (by omega)] at hmore
  obtain rfl : (env.after n).sending = sending := Except.ok.inj hmore
  exact ⟨hrecv, (uploadFile_status_iff ev count pool _).mp hstatus⟩

/-- The loop is sound if it ends, and without a lost chunk unless the upload fails. -/
theorem sendLoopSound_of_endsAt (h : env.Enters → ∃ n, env.EndsAt n ∧
    ((∀ i < n, env.sendErr (i + 1) = none) ∨ env.recvErr ≠ none ∨
      ∃ i < (env.arriving n).length, ev.throws i ≠ none)) : SendLoopSound env ev count pool where
  ends := by
    intro henters
    obtain ⟨n, hends, -⟩ := h henters
    exact ⟨n + 1, _, hends.loop (Nat.lt_succ_self n)⟩
  no_failed_read := by
    intro henters st hst call hcall
    obtain ⟨n, hends, -⟩ := h henters
    obtain ⟨k, rfl, hno⟩ := Env.loopReaches_iff.mp hst
    exact hends.2 _ (lt_of_lt_of_le (Env.mem_calls_after hcall).1 (hends.le hno))
  nil_only := by
    intro fuel response pool' hnil
    obtain ⟨n, hends, hsends⟩ := h (enters_of_ok hnil)
    obtain ⟨hrecv, hthrows⟩ := hends.of_ok hnil
    refine ⟨⟨n, hends⟩, fun st hst call hcall => ?_⟩
    obtain ⟨k, rfl, hno⟩ := Env.loopReaches_iff.mp hst
    obtain ⟨hlt, herr⟩ := Env.mem_calls_after hcall
    -- A `Send` fails behind the client's back only where the call fails too.
    rcases hsends with hsent | hrecv' | ⟨i, hi, hne⟩
    · rw [herr]
      exact hsent _ (lt_of_lt_of_le hlt (hends.le hno))
    · exact absurd hrecv hrecv'
    · exact absurd (hthrows i hi) hne

end Sound

/-- **When the send loop is sound.**  The reader fails from some read on.  If the loop is reached,
    its first error is `io.EOF`; and if a `Send` fails, the client gets an error from
    `CloseAndRecv`, or from the server because handling a message that got through throws. -/
theorem sendLoopSound_iff (env : Env) (ev : Events) (count : ℤ) (pool : Objects)
    (hfail : ∃ N, ∀ n ≥ N, ¬ (env.reads n).IsData) :
    SendLoopSound env ev count pool ↔ (env.Enters → ∃ n, env.EndsAt n ∧
      ((∀ i < n, env.sendErr (i + 1) = none) ∨ env.recvErr ≠ none ∨
        ∃ i < (env.arriving n).length, ev.throws i ≠ none)) := by
  constructor
  · intro h henters
    obtain ⟨n, hends⟩ := h.endsAt henters hfail
    exact ⟨n, hends, h.sends henters hends⟩
  · exact sendLoopSound_of_endsAt

/-- The upload of a one-byte file is sound. -/
theorem sendLoopSound_iff_oneByte :
    SendLoopSound oneByteEnv ⟨fun _ => none, 0⟩ 0 fun _ => none := by
  refine (sendLoopSound_iff oneByteEnv _ 0 _ ⟨1, ?_⟩).mpr fun _ =>
    ⟨1, ⟨rfl, ?_⟩, Or.inl fun _ _ => rfl⟩
  · rintro n hn ⟨bytes, hdata⟩
    rw [show oneByteEnv.reads n = .eof from if_neg (by omega)] at hdata
    cases hdata
  · intro i hi
    obtain rfl : i = 0 := by omega
    exact ⟨[1], rfl⟩

/-- The upload of a directory: it can be opened, and every read of it fails. -/
def directoryEnv : Env :=
  { oneByteEnv with reads := fun _ => .error "is a directory" }

/-- **An endless upload.**  The send loop over a directory does not end, and sends an empty chunk
    for its first failed read. -/
theorem directory_endless :
    (∀ n ≥ 0, ¬ (directoryEnv.reads n).IsData) ∧ directoryEnv.Enters ∧
      (∃ st, directoryEnv.LoopReaches st ∧
        st.sending.delivered = [infoRequest "a", .chunkData []]) ∧
      (∀ fuel st, loop sendTimeout (sendPass directoryEnv) fuel
        ⟨0, [infoRequest directoryEnv.fileName]⟩ ≠ .ok st) ∧
      ¬ SendLoopSound directoryEnv ⟨fun _ => none, 0⟩ 0 fun _ => none := by
  have hfails : ∀ n ≥ 0, ¬ (directoryEnv.reads n).IsData := by
    rintro n - ⟨bytes, hdata⟩
    cases hdata
  -- No pass exits, because no read of a directory is the end of the file.
  have hendless : ∀ fuel st, loop sendTimeout (sendPass directoryEnv) fuel
      ⟨0, [infoRequest directoryEnv.fileName]⟩ ≠ .ok st := by
    intro fuel st hloop
    refine loop_rule (fun _ => True) (fun _ => False) (fun _ _ _ _ => trivial) ?_ trivial hloop
    intro s w _ hb
    cases hb
  have hempty : directoryEnv.LoopReaches (directoryEnv.after 1) :=
    Env.loopReaches_iff.mpr ⟨1, rfl, fun i _ => nofun⟩
  refine ⟨hfails, ⟨rfl, rfl, rfl, rfl⟩, ⟨_, hempty, rfl⟩, hendless, fun h => ?_⟩
  obtain ⟨fuel, st, hloop⟩ := h.ends ⟨rfl, rfl, rfl, rfl⟩
  exact hendless fuel st hloop

end MyCeph.Upload
