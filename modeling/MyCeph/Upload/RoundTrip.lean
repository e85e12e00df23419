import MyCeph.Upload.Client

namespace MyCeph.Upload

open Lib

/-!
# The upload round trip

The client once more, now with the one buffer it reads into, against the server, now with a
log of its `write_full` calls (`Rados`).  With the logs forgotten these are the programs of
`Client` and `Server` (`serve_eq`, `sendLoop_buffered`).

* `serve_writes` — the server writes once, whatever the order of the messages: the chunks
  in their order, under the last name;
* `sendLoop_yields` — the client sends a file in the pieces the reader returns;
* `upload_roundTrip` — together they make one `write_full` of the file under its name.
-/

/-! ### The server, with a log -/

/-- The pool, and the `write_full` calls made on it so far. -/
structure Rados where
  objects : Objects
  writes : List (String × Bytes)

/-- `io_ctx.write_full`. -/
def Rados.writeFull (result : ℤ) (rados : Rados) (name : String) (data : Bytes) : ℤ × Rados :=
  let (ret, objects) := Upload.writeFull result rados.objects name data
  (ret, ⟨objects, rados.writes ++ [(name, data)]⟩)

/-- `RadosClient::write`. -/
def Rados.write (result : ℤ) (rados : Rados) (name : String) (data : Bytes) : ℤ × Rados :=
  let (ret, rados) := rados.writeFull result name data
  (if ret < 0 then exitFailure else ret, rados)

/-- `LaptopServiceImpl::UploadFile`. -/
def serve (ev : Events) (count : ℤ) (rados : Rados) (stream : List UploadFileRequest) :
    Status × UploadFileResponse × Rados :=
  let count := count + 1
  match receiveAll ev.throws 0 stream (Receiving.start count) with
  | .error thrown => (.aborted thrown.what, thrown.response, rados)
  | .ok st =>
    let (ret, rados) := rados.write ev.result st.name st.bl
    if ret < 0 then (.cancelled, st.response, rados) else (.ok, st.response, rados)

/-- Without the log, this is the server of before. -/
theorem serve_eq (ev : Events) (count : ℤ) (rados : Rados) (stream : List UploadFileRequest) :
    (serve ev count rados stream).1 = (uploadFile ev count rados.objects stream).status ∧
      (serve ev count rados stream).2.1 = (uploadFile ev count rados.objects stream).response ∧
      (serve ev count rados stream).2.2.objects
        = (uploadFile ev count rados.objects stream).pool := by
  unfold serve uploadFile
  dsimp only
  cases receiveAll ev.throws 0 stream (Receiving.start (count + 1)) with
  | error thrown => exact ⟨rfl, rfl, rfl⟩
  | ok st =>
    dsimp only
    by_cases hneg : (rados.write ev.result st.name st.bl).1 < 0
    · have hneg' : (radosWrite ev.result rados.objects st.name st.bl).1 < 0 := hneg
      rw [if_pos hneg, if_pos hneg']
      exact ⟨rfl, rfl, rfl⟩
    · have hneg' : ¬ (radosWrite ev.result rados.objects st.name st.bl).1 < 0 := hneg
      rw [if_neg hneg, if_neg hneg']
      exact ⟨rfl, rfl, rfl⟩

/-- The payload of a chunk message. -/
def UploadFileRequest.chunk? : UploadFileRequest → Option Bytes
  | .chunkData bytes => some bytes
  | _ => none

/-- The payload is the chunks behind each other. -/
theorem payload_eq (stream : List UploadFileRequest) :
    payload stream = (stream.filterMap UploadFileRequest.chunk?).flatten := by
  induction stream with
  | nil => rfl
  | cons part parts ih =>
    have hcons : payload (part :: parts) = part.mutableChunkData ++ payload parts := rfl
    rw [hcons, ih]
    cases part <;> rfl

/-- The last name is that of the last `FileInfo`. -/
theorem lastName_eq (default : String) (stream : List UploadFileRequest) :
    lastName default stream
      = (stream.filterMap UploadFileRequest.name?).getLast?.getD default := by
  induction stream generalizing default with
  | nil => rfl
  | cons part parts ih =>
    have hcons : lastName default (part :: parts) = lastName (part.name?.getD default) parts := rfl
    rw [hcons, ih, List.filterMap_cons]
    cases part.name? with
    | none => rfl
    | some name => rw [List.getLast?_cons]; rfl

/-- **The server writes once**, if handling the messages does not throw. -/
theorem serve_writes (ev : Events) (count : ℤ) (rados : Rados) {stream : List UploadFileRequest}
    (h : ¬ ∃ i < stream.length, ev.throws i ≠ none) :
    (serve ev count rados stream).2.2.writes = rados.writes ++
      [(lastName (defaultName (count + 1)) stream, payload stream)] := by
  unfold serve
  dsimp only
  cases hrec : receiveAll ev.throws 0 stream (Receiving.start (count + 1)) with
  | error thrown =>
    refine absurd ?_ h
    simpa only [Nat.zero_add] using (receiveAll_error_iff 0 stream _).mp ⟨thrown, hrec⟩
  | ok st =>
    obtain ⟨hname, hbl, -⟩ := receiveAll_ok hrec
    have hbl' : st.bl = payload stream := by
      rw [hbl]
      exact List.nil_append _
    have hname' : st.name = lastName (defaultName (count + 1)) stream := hname
    dsimp only
    rw [← hname', ← hbl']
    split <;> rfl

/-! ### The client, with its buffer -/

/-- `make([]byte, 1024)`. -/
def bufferSize : ℕ := 1024

/-- `reader.Read(buffer)` stores what it returns at the front of the buffer. -/
def fill (buffer bytes : Bytes) : Bytes := bytes ++ buffer.drop bytes.length

@[simp] theorem fill_take (buffer bytes : Bytes) :
    (fill buffer bytes).take bytes.length = bytes := List.take_left

/-- The send loop with the buffer, which keeps the rest of earlier reads. -/
structure Buffered where
  buffer : Bytes
  sending : Sending

/-- One pass of the send loop. -/
def bufferedPass (env : Env) (st : Buffered) : Except ClientError (Next Buffered Sending) :=
  match env.reads st.sending.n with
  | .eof => .ok (.exit st.sending)
  | res =>
    let buffer := fill st.buffer res.bytes
    match env.sendErr (st.sending.n + 1) with
    | none => .ok (.again ⟨buffer, st.sending.n + 1,
        st.sending.delivered ++ [.chunkData (buffer.take res.bytes.length)]⟩)
    | some _ => .ok (.again ⟨buffer, st.sending.n + 1, st.sending.delivered⟩)

/-- The buffer as `make` returns it, and the first message sent. -/
def Buffered.start (env : Env) : Buffered :=
  ⟨List.replicate bufferSize 0, 0, [infoRequest env.fileName]⟩

/-- A send loop with a buffer that has used up its fuel. -/
def bufferedTimeout (_ : Buffered) : ClientError := .timeout

/-- `UploadFromLocalFile`. -/
def upload (env : Env) (ev : Events) (count : ℤ) (rados : Rados) (fuel : ℕ) :
    Except ClientError (UploadFileResponse × Rados) :=
  match env.dialErr, env.streamErr, env.openErr, env.sendErr 0 with
  | some what, _, _, _ => .error (.dial what)
  | none, some what, _, _ => .error (.openStream what)
  | none, none, some what, _ => .error (.openFile what)
  | none, none, none, some what => .error (.sendInfo what)
  | none, none, none, none =>
    match loop bufferedTimeout (bufferedPass env) fuel (Buffered.start env) with
    | .error e => .error e
    | .ok st =>
      match env.recvErr with
      | some what => .error (.recv what)
      | none =>
        let (status, response, rados) := serve ev count rados st.delivered
        if status = .ok then .ok (response, rados) else .error (.status status)

/-- What earlier reads have left in the buffer never gets into a message. -/
theorem bufferedPass_eq (env : Env) (st : Buffered) :
    Passes (fun (b : Buffered) s => b.sending = s) (bufferedPass env st)
      (sendPass env st.sending) := by
  unfold bufferedPass sendPass
  cases env.reads st.sending.n with
  | eof => exact .exit _
  | data bytes | error what =>
    dsimp only
    rw [fill_take]
    cases env.sendErr (st.sending.n + 1) with
    | none => exact .again rfl
    | some what => exact .again rfl

/-- The loop with the buffer sends what the loop without it sends. -/
theorem sendLoop_buffered (env : Env) (fuel : ℕ) :
    loop bufferedTimeout (bufferedPass env) fuel (Buffered.start env)
      = loop sendTimeout (sendPass env) fuel ⟨0, [infoRequest env.fileName]⟩ :=
  loop_related (fun b s => b.sending = s) (fun _ _ _ => rfl)
    (fun b _ h => h ▸ bufferedPass_eq env b) rfl

/-- Without the log, this is the client of before. -/
theorem upload_eq (env : Env) (ev : Events) (count : ℤ) (rados : Rados) (fuel : ℕ) :
    (upload env ev count rados fuel).map (fun r => (r.1, r.2.objects))
      = uploadFromLocalFile env ev count rados.objects fuel := by
  unfold upload uploadFromLocalFile
  rw [sendLoop_buffered]
  -- The errors of the client, in the order in which it meets them.
  cases env.dialErr with
  | some what => rfl
  | none =>
  cases env.streamErr with
  | some what => rfl
  | none =>
  cases env.openErr with
  | some what => rfl
  | none =>
  cases env.sendErr 0 with
  | some what => rfl
  | none =>
  dsimp only
  cases loop sendTimeout (sendPass env) fuel ⟨0, [infoRequest env.fileName]⟩ with
  | error e => rfl
  | ok st =>
    cases env.recvErr with
    | some what => rfl
    | none =>
      obtain ⟨hstatus, hresponse, hobjects⟩ := serve_eq ev count rados st.delivered
      dsimp only
      rw [hstatus, ← hresponse, ← hobjects]
      split <;> rfl

/-! ### The round trip -/

/-- Nothing fails on the way: the stream is opened and delivers every message. -/
structure Env.Lossless (env : Env) : Prop where
  dialErr : env.dialErr = none
  streamErr : env.streamErr = none
  openErr : env.openErr = none
  sendErr : ∀ i, env.sendErr i = none
  recvErr : env.recvErr = none

/-- The reader returns `file` in runs of 1 to 1024 bytes, and then `io.EOF`. -/
structure Env.ReadsRuns (env : Env) (file : Bytes) (runs : List Bytes) : Prop where
  flatten : runs.flatten = file
  length : ∀ run ∈ runs, 1 ≤ run.length ∧ run.length ≤ bufferSize
  data : ∀ i run, runs[i]? = some run → env.reads i = .data run
  eof : env.reads runs.length = .eof

/-- The runs are the file. -/
theorem Env.ReadsRuns.bytesRead {env : Env} {file : Bytes} {runs : List Bytes}
    (h : env.ReadsRuns file runs) : env.bytesRead runs.length = file := by
  have htake : ∀ n ≤ runs.length, env.bytesRead n = (runs.take n).flatten := by
    intro n
    induction n with
    | zero => intro _; rfl
    | succ n ih =>
      intro hn
      have hlt : n < runs.length := by omega
      have hget : runs[n]? = some runs[n] := List.getElem?_eq_getElem hlt
      have hsucc : env.bytesRead (n + 1) = env.bytesRead n ++ (env.reads n).bytes := by
        simp [Env.bytesRead, List.range_succ]
      rw [hsucc, ih (by omega), h.data n _ hget, List.take_add_one, hget, List.flatten_append]
      simp [ReadResult.bytes]
  rw [htake _ (Nat.le_refl _), List.take_length, h.flatten]

/-- **The client sends the file** in the runs the reader returns. -/
theorem sendLoop_yields {env : Env} {file : Bytes} {runs : List Bytes}
    (hsend : ∀ i, env.sendErr i = none) (hreads : env.ReadsRuns file runs) {fuel : ℕ}
    (hfuel : runs.length < fuel) :
    loop sendTimeout (sendPass env) fuel ⟨0, [infoRequest env.fileName]⟩
      = .ok ⟨runs.length, env.sent runs.length⟩ := by
  -- With `k` runs to come the first `n` have been sent.
  have hfrom : ∀ k n, n + k = runs.length → ∀ fuel, k < fuel →
      loop sendTimeout (sendPass env) fuel ⟨n, env.sent n⟩
        = .ok ⟨runs.length, env.sent runs.length⟩ := by
    intro k
    induction k with
    | zero =>
      intro n hn fuel hfuel
      obtain rfl : n = runs.length := hn
      obtain ⟨fuel, rfl⟩ : ∃ m, fuel = m + 1 := ⟨fuel - 1, by omega⟩
      refine loop_exit ?_
      unfold sendPass
      dsimp only
      rw [hreads.eof]
    | succ k ih =>
      intro n hn fuel hfuel
      obtain ⟨fuel, rfl⟩ : ∃ m, fuel = m + 1 := ⟨fuel - 1, by omega⟩
      have hlt : n < runs.length := by omega
      have hdata := hreads.data n runs[n] (List.getElem?_eq_getElem hlt)
      have hpass : sendPass env ⟨n, env.sent n⟩ = .ok (.again ⟨n + 1, env.sent (n + 1)⟩) := by
        rw [env.sent_succ]
        unfold sendPass
        dsimp only
        rw [hdata, hsend]
      rw [loop_again hpass]
      exact ih (n + 1) (by omega) fuel (by omega)
  exact hfrom runs.length 0 (Nat.zero_add _) fuel hfuel

/-- **The upload round trip.**  If handling messages does not throw, the server makes one
    `write_full` of any stream, with the chunks in the order they came, under the last name or
    else the default one; and an upload over a lossless stream makes one `write_full` of the file
    under its name, however the reads split it. -/
theorem upload_roundTrip (ev : Events) (count : ℤ) (rados : Rados)
    (hthrows : ∀ i, ev.throws i = none) :
    (∀ stream, (serve ev count rados stream).2.2.writes = rados.writes ++
      [((stream.filterMap UploadFileRequest.name?).getLast?.getD (defaultName (count + 1)),
        (stream.filterMap UploadFileRequest.chunk?).flatten)]) ∧
    ∀ env file runs, env.Lossless → env.ReadsRuns file runs →
      ∃ n response rados', (∀ fuel, n ≤ fuel →
          upload env ev count rados fuel = .ok (response, rados')) ∧
        rados'.writes = rados.writes ++ [(env.fileName, file)] := by
  have hno : ∀ stream : List UploadFileRequest, ¬ ∃ i < stream.length, ev.throws i ≠ none :=
    fun stream ⟨i, _, hne⟩ => hne (hthrows i)
  refine ⟨fun stream => ?_, fun env file runs hlossless hreads => ?_⟩
  · rw [serve_writes ev count rados (hno stream), lastName_eq, payload_eq]
  · -- Nothing throws, so the call ends well and the client reports it.
    have hstatus : (serve ev count rados (env.sent runs.length)).1 = .ok := by
      obtain ⟨response, -, hcall⟩ := uploadFile_writes ev count rados.objects
        (hno (env.sent runs.length))
      rw [(serve_eq ev count rados _).1, hcall]
    refine ⟨runs.length + 1, (serve ev count rados (env.sent runs.length)).2.1,
      (serve ev count rados (env.sent runs.length)).2.2, fun fuel hfuel => ?_, ?_⟩
    · unfold upload
      rw [hlossless.dialErr, hlossless.streamErr, hlossless.openErr, hlossless.sendErr,
        hlossless.recvErr, sendLoop_buffered, sendLoop_yields hlossless.sendErr hreads hfuel]
      exact if_pos hstatus
    · rw [serve_writes ev count rados (hno _), env.lastName_sent, env.payload_sent,
        hreads.bytesRead]

/-- The file `a` with the bytes 1, 2, 3, read in two runs. -/
def twoRunsEnv : Env where
  fileName := "a"
  dialErr := none
  streamErr := none
  openErr := none
  sendErr := fun _ => none
  reads := fun i => if i = 0 then .data [1, 2] else if i = 1 then .data [3] else .eof
  recvErr := none

theorem twoRunsEnv_data (i : ℕ) (run : Bytes) (h : [[1, 2], [3]][i]? = some run) :
    twoRunsEnv.reads i = .data run := by
  match i, h with
  | 0, h => cases h; rfl
  | 1, h => cases h; rfl

/-- The pool gets one `write_full`, of the three bytes. -/
theorem upload_roundTrip_twoRuns :
    ∃ n response rados', (∀ fuel, n ≤ fuel →
        upload twoRunsEnv ⟨fun _ => none, 0⟩ 0 ⟨fun _ => none, []⟩ fuel
          = .ok (response, rados')) ∧
      rados'.writes = [("a", [1, 2, 3])] :=
  (upload_roundTrip ⟨fun _ => none, 0⟩ 0 ⟨fun _ => none, []⟩ (fun _ => rfl)).2 twoRunsEnv
    [1, 2, 3] [[1, 2], [3]] ⟨rfl, rfl, rfl, fun _ => rfl, rfl⟩
    ⟨rfl, by decide, twoRunsEnv_data, rfl⟩

end MyCeph.Upload
