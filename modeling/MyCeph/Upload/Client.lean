import MyCeph.Lib.Loop
import MyCeph.Upload.Server

namespace MyCeph.Upload

open Lib

/-!
# The upload client

`UploadFromLocalFile` against the server.  The connection, the file and the stream are
parameters (`Env`): what each `Read` of the buffered reader returns, whether each `Send`
succeeds, and whether the final `CloseAndRecv` reaches a response.

* `Env.ReadsFile` — the reader returns the bytes of the file and then `io.EOF`;
* `Env.SendEnds` — a stream on which a `Send` has failed has ended, and `CloseAndRecv`
  returns its error;
* `sendLoop_delivers` — a loop that ends at `io.EOF` has sent the file's bytes;
* `upload_truthful` — what OK and nil say about the pool.
-/

/-- What `reader.Read(buffer)` returns: `n` bytes, or 0 bytes with an error. -/
inductive ReadResult where
  | data (bytes : Bytes)
  | eof
  | error (what : String)

/-- The errors `UploadFromLocalFile` ends with; a failed `grpc.Dial` panics. -/
inductive ClientError where
  | dial (what : String)
  | openStream (what : String)
  | openFile (what : String)
  | sendInfo (what : String)
  | recv (what : String)
  | status (status : Status)
  /-- The model's fuel is used up. -/
  | timeout

/-- The client's surroundings.  `none` stands for a nil error, and `sendErr 0` belongs to the
    message with the file info. -/
structure Env where
  fileName : String
  dialErr : Option String
  streamErr : Option String
  openErr : Option String
  sendErr : ℕ → Option String
  reads : ℕ → ReadResult
  recvErr : Option String

/-- The bytes read, `buffer[:n]`: none with an error. -/
def ReadResult.bytes : ReadResult → Bytes
  | .data bytes => bytes
  | _ => []

/-- The first message. -/
def infoRequest (fileName : String) : UploadFileRequest := .info ⟨fileName, 0⟩

/-- The send loop: the number of reads and sends so far, and the messages delivered. -/
structure Sending where
  n : ℕ
  delivered : List UploadFileRequest

/-- One pass of the send loop.  A failed `Send` is only printed. -/
def sendPass (env : Env) (st : Sending) : Except ClientError (Next Sending Sending) :=
  match env.reads st.n with
  | .eof => .ok (.exit st)
  | res =>
    match env.sendErr (st.n + 1) with
    | none => .ok (.again ⟨st.n + 1, st.delivered ++ [.chunkData res.bytes]⟩)
    | some _ => .ok (.again ⟨st.n + 1, st.delivered⟩)

/-- A send loop that has used up its fuel. -/
def sendTimeout (_ : Sending) : ClientError := .timeout

/-- `UploadFromLocalFile`, with the response it prints and the pool it leaves on nil. -/
def uploadFromLocalFile (env : Env) (ev : Events) (count : ℤ) (pool : Objects) (fuel : ℕ) :
    Except ClientError (UploadFileResponse × Objects) :=
  match env.dialErr, env.streamErr, env.openErr, env.sendErr 0 with
  | some what, _, _, _ => .error (.dial what)
  | none, some what, _, _ => .error (.openStream what)
  | none, none, some what, _ => .error (.openFile what)
  | none, none, none, some what => .error (.sendInfo what)
  | none, none, none, none =>
    match loop sendTimeout (sendPass env) fuel ⟨0, [infoRequest env.fileName]⟩ with
    | .error e => .error e
    | .ok st =>
      match env.recvErr with
      | some what => .error (.recv what)
      | none =>
        let o := uploadFile ev count pool st.delivered
        if o.status = .ok then .ok (o.response, o.pool) else .error (.status o.status)

/-! ### The stream -/

/-- The bytes of the first `n` reads. -/
def Env.bytesRead (env : Env) (n : ℕ) : Bytes := (List.range n).flatMap fun i => (env.reads i).bytes

/-- The reader reads `file`: when it first returns `io.EOF` it has returned all its bytes. -/
def Env.ReadsFile (env : Env) (file : Bytes) : Prop :=
  ∀ n, env.reads n = .eof → (∀ i < n, env.reads i ≠ .eof) → env.bytesRead n = file

/-- A `Send` that fails means that the stream has ended, and `CloseAndRecv` returns its error.
    Send number `i` is made when the reads before it have not met the end of the file. -/
def Env.SendEnds (env : Env) : Prop :=
  env.recvErr = none → ∀ i, (∀ j < i, env.reads j ≠ .eof) → env.sendErr i = none

/-- The messages sent after `n` reads. -/
def Env.sent (env : Env) (n : ℕ) : List UploadFileRequest :=
  infoRequest env.fileName :: (List.range n).map fun i => .chunkData (env.reads i).bytes

/-- One pass sends one chunk more. -/
theorem Env.sent_succ (env : Env) (n : ℕ) :
    env.sent (n + 1) = env.sent n ++ [.chunkData (env.reads n).bytes] := by
  simp [Env.sent, List.range_succ]

/-- The chunks sent are the bytes read. -/
theorem Env.payload_sent (env : Env) (n : ℕ) : payload (env.sent n) = env.bytesRead n := by
  simp [Env.sent, payload, infoRequest, Env.bytesRead, UploadFileRequest.mutableChunkData,
    List.flatMap_map]

/-- Chunks do not change the name. -/
theorem Env.lastName_sent (env : Env) (default : String) (n : ℕ) :
    lastName default (env.sent n) = env.fileName := by
  induction n with
  | zero => rfl
  | succ n ih =>
    rw [env.sent_succ]
    simp only [lastName, List.foldl_append] at ih ⊢
    rw [ih]
    rfl

/-- What the send loop keeps when `CloseAndRecv` will succeed: everything has been sent. -/
structure SendingFile (env : Env) (st : Sending) : Prop where
  no_eof : ∀ i < st.n, env.reads i ≠ .eof
  delivered : st.delivered = env.sent st.n

/-- **Step lemma of the send loop.** -/
theorem SendingFile.step {env : Env} (hsend : env.SendEnds) (hrecv : env.recvErr = none)
    {st st' : Sending} (h : SendingFile env st) (hb : sendPass env st = .ok (.again st')) :
    SendingFile env st' := by
  unfold sendPass at hb
  split at hb
  · simp at hb
  rename_i hne
  -- The reads so far have not met the end of the file, so this `Send` has been made.
  have hno : ∀ j < st.n + 1, env.reads j ≠ .eof := by
    intro j hj
    rcases Nat.lt_succ_iff_lt_or_eq.mp hj with hlt | rfl
    · exact h.no_eof j hlt
    · exact hne
  rw [hsend hrecv (st.n + 1) hno] at hb
  cases hb
  exact ⟨hno, by rw [h.delivered, env.sent_succ]⟩

/-- **A send loop that ends** has met `io.EOF` and sent the bytes read before. -/
theorem sendLoop_delivers {env : Env} (hsend : env.SendEnds) (hrecv : env.recvErr = none)
    {fuel : ℕ} {st : Sending}
    (h : loop sendTimeout (sendPass env) fuel ⟨0, [infoRequest env.fileName]⟩ = .ok st) :
    env.reads st.n = .eof ∧ SendingFile env st := by
  refine loop_rule (SendingFile env) (fun st => env.reads st.n = .eof ∧ SendingFile env st)
    (fun _ _ hst hb => hst.step hsend hrecv hb) ?_
    ⟨fun i hi => absurd hi (Nat.not_lt_zero i), rfl⟩ h
  intro st w hst hb
  unfold sendPass at hb
  split at hb
  · rename_i heof
    cases hb
    exact ⟨heof, hst⟩
  · split at hb <;> cases hb

/-- What a client that returns nil has gone through. -/
theorem uploadFromLocalFile_ok {env : Env} {ev : Events} {count : ℤ} {pool pool' : Objects}
    {fuel : ℕ} {response : UploadFileResponse}
    (h : uploadFromLocalFile env ev count pool fuel = .ok (response, pool')) :
    ∃ st, loop sendTimeout (sendPass env) fuel ⟨0, [infoRequest env.fileName]⟩ = .ok st ∧
      env.recvErr = none ∧ (uploadFile ev count pool st.delivered).status = .ok ∧
      response = (uploadFile ev count pool st.delivered).response ∧
      pool' = (uploadFile ev count pool st.delivered).pool := by
  unfold uploadFromLocalFile at h
  split at h
  · simp at h
  · simp at h
  · simp at h
  · simp at h
  split at h
  · simp at h
  rename_i st hloop
  split at h
  · simp at h
  rename_i hrecv
  dsimp only at h
  split at h
  · rename_i hstatus
    cases h
    exact ⟨st, hloop, hrecv, hstatus, rfl, rfl⟩
  · simp at h

/-- **When an upload's outcome is reported truthfully.**  The server's status and id are right
    if the call was aborted, or `write_full` succeeded and there was a message; nil means
    that the pool holds the file if `write_full` succeeded, or the pool held it before. -/
theorem upload_truthful (ev : Events) (count : ℤ) (pool : Objects) :
    (∀ stream, Truthful (uploadFile ev count pool stream) ↔
      (∃ i < stream.length, ev.throws i ≠ none) ∨ (0 ≤ ev.result ∧ stream ≠ [])) ∧
    ∀ env fuel file response pool', env.ReadsFile file → env.SendEnds →
      uploadFromLocalFile env ev count pool fuel = .ok (response, pool') →
      (pool' response.id = some file ↔ 0 ≤ ev.result ∨ pool env.fileName = some file) := by
  refine ⟨uploadFile_truthful_iff ev count pool, ?_⟩
  intro env fuel file response pool' hreads hsend hnil
  obtain ⟨st, hloop, hrecv, hstatus, rfl, rfl⟩ := uploadFromLocalFile_ok hnil
  obtain ⟨heof, hno, hdelivered⟩ := sendLoop_delivers hsend hrecv hloop
  have hfile := hreads st.n heof hno
  by_cases hthrown : ∃ i < st.delivered.length, ev.throws i ≠ none
  · obtain ⟨thrown, hcall⟩ := uploadFile_aborts ev count pool hthrown
    rw [hcall] at hstatus
    cases hstatus
  obtain ⟨r, hid, hcall⟩ := uploadFile_writes ev count pool hthrown
  -- The server has received the file's name and bytes.
  have hname : lastName (defaultName (count + 1)) st.delivered = env.fileName := by
    rw [hdelivered, env.lastName_sent]
  have hbl : payload st.delivered = file := by
    rw [hdelivered, env.payload_sent, hfile]
  rw [if_neg (by simp [hdelivered, Env.sent]), hname] at hid
  rw [hname, hbl] at hcall
  rw [hcall]
  show (if ev.result < 0 then pool else pool.insert env.fileName file) r.id = some file ↔ _
  rw [hid]
  by_cases hneg : ev.result < 0
  · simp [hneg, Int.not_le.mpr hneg]
  · simp [hneg, Int.not_lt.mp hneg]

/-- The upload of a file `a` with the one byte 1, nothing failing on the way. -/
def oneByteEnv : Env where
  fileName := "a"
  dialErr := none
  streamErr := none
  openErr := none
  sendErr := fun _ => none
  reads := fun i => if i = 0 then .data [1] else .eof
  recvErr := none

theorem oneByteEnv_readsFile : oneByteEnv.ReadsFile [1] := by
  intro n heof hno
  cases n with
  | zero => cases heof
  | succ n =>
    cases n with
    | zero => rfl
    | succ n => exact absurd rfl (hno 1 (by omega))

/-- With a `write_full` that succeeds, nil means that the file is in the pool. -/
theorem upload_truthful_oneByte :
    ∃ response pool', uploadFromLocalFile oneByteEnv ⟨fun _ => none, 0⟩ 0 (fun _ => none) 3
        = .ok (response, pool') ∧ pool' response.id = some [1] := by
  refine ⟨_, _, rfl, ?_⟩
  exact ((upload_truthful ⟨fun _ => none, 0⟩ 0 fun _ => none).2 oneByteEnv 3 [1] _ _
    oneByteEnv_readsFile (fun _ _ _ => rfl) rfl).mpr (Or.inl (Int.le_refl 0))

/-- **A lost file.**  `write_full` fails with -5: the server returns OK, the client nil, and
    the pool stays empty. -/
theorem upload_lost :
    ¬ Truthful (uploadFile ⟨fun _ => none, -5⟩ 0 (fun _ => none)
        [infoRequest "a", .chunkData [1]]) ∧
      ∃ response pool', uploadFromLocalFile oneByteEnv ⟨fun _ => none, -5⟩ 0 (fun _ => none) 3
          = .ok (response, pool') ∧ response.id = "a" ∧ pool' "a" = none := by
  constructor
  · intro h
    have hstored := h.1.mp rfl
    cases hstored
  · exact ⟨_, _, rfl, rfl, rfl⟩

end MyCeph.Upload
