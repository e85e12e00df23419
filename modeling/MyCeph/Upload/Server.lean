import Mathlib.Data.Int.Notation
import Mathlib.Data.Nat.Notation
import Mathlib.Tactic.Common

namespace MyCeph.Upload

/-!
# The upload server

`LaptopServiceImpl::UploadFile` and `RadosClient::write`.  The messages of a stream are a
list; `ServerReader::Read` hands them out one after the other and then returns false.  What
librados does is a parameter: `write_full` returns an arbitrary integer and stores the
object exactly when that integer is not negative.  Handling a message may throw, which ends the
call with the response as the messages before it have left it.

* `receiveAll_ok` — the loop concatenates the chunks and keeps the last name;
* `uploadFile_truthful_iff` — the status and the id tell the truth exactly if the call was
  aborted, or `write_full` succeeded and there was a message to set the id.
-/

abbrev Bytes := List UInt8

/-- `message FileInfo`. -/
structure FileInfo where
  name : String
  size : UInt32

/-- `message UploadFileRequest`: the `oneof data`, which may be unset. -/
inductive UploadFileRequest where
  | info (info : FileInfo)
  | chunkData (bytes : Bytes)
  | notSet

/-- `message UploadFileResponse`, all fields at their defaults. -/
structure UploadFileResponse where
  id : String := ""
  size : UInt32 := 0

/-- The values of `grpc::Status` that `UploadFile` returns. -/
inductive Status where
  | ok
  | cancelled
  | aborted (what : String)
deriving DecidableEq

/-- The objects in the pool, by name. -/
abbrev Objects := String → Option Bytes

/-- The pool with an object created or replaced. -/
def Objects.insert (pool : Objects) (name : String) (data : Bytes) : Objects :=
  fun n => if n = name then some data else pool n

@[simp] theorem Objects.insert_self (pool : Objects) (name : String) (data : Bytes) :
    pool.insert name data name = some data := if_pos rfl

/-- `EXIT_FAILURE`. -/
def exitFailure : ℤ := 1

/-- `io_ctx.write_full`, returning `result`. -/
def writeFull (result : ℤ) (pool : Objects) (name : String) (data : Bytes) : ℤ × Objects :=
  (result, if result < 0 then pool else pool.insert name data)

/-- `RadosClient::write`. -/
def radosWrite (result : ℤ) (pool : Objects) (name : String) (data : Bytes) : ℤ × Objects :=
  let (ret, pool) := writeFull result pool name data
  (if ret < 0 then exitFailure else ret, pool)

/-! ### Receiving -/

/-- The local variables of `UploadFile` and the response under construction. -/
structure Receiving where
  name : String
  bl : Bytes
  response : UploadFileResponse

/-- `mutable_chunk_data`: switches the `oneof` to chunk data, empty unless it was set. -/
def UploadFileRequest.mutableChunkData : UploadFileRequest → Bytes
  | .chunkData bytes => bytes
  | _ => []

/-- The name that a message carries. -/
def UploadFileRequest.name? : UploadFileRequest → Option String
  | .info fileInfo => some fileInfo.name
  | _ => none

/-- The body of the receive loop. -/
def receive (st : Receiving) (uploadFilePart : UploadFileRequest) : Receiving :=
  let name := uploadFilePart.name?.getD st.name
  { name := name
    bl := st.bl ++ uploadFilePart.mutableChunkData
    response := { st.response with id := name } }

/-- What handling a message throws, and the response as it is then. -/
structure Thrown where
  what : String
  response : UploadFileResponse

/-- The receive loop from message number `i` on, where `throws i` is what handling message
    `i` throws. -/
def receiveAll (throws : ℕ → Option String) :
    ℕ → List UploadFileRequest → Receiving → Except Thrown Receiving
  | _, [], st => .ok st
  | i, part :: parts, st =>
    match throws i with
    -- `set_id` comes last in the body, so this message has not set the id.
    | some what => .error ⟨what, st.response⟩
    | none => receiveAll throws (i + 1) parts (receive st part)

/-- The name of an upload that sends none, `count` being incremented already. -/
def defaultName (count : ℤ) : String := "/tmp/grpc_cpp_image" ++ toString count

/-- Before the first message. -/
def Receiving.start (count : ℤ) : Receiving := ⟨defaultName count, [], {}⟩

/-! ### The call -/

/-- What a call of `UploadFile` leaves behind. -/
structure Outcome where
  status : Status
  response : UploadFileResponse
  pool : Objects
  /-- The object that `write_full` has stored, if it has. -/
  stored : Option (String × Bytes)
  count : ℤ

/-- What happens around a call: the exceptions thrown, and the result of `write_full`. -/
structure Events where
  throws : ℕ → Option String
  result : ℤ

/-- `LaptopServiceImpl::UploadFile`. -/
def uploadFile (ev : Events) (count : ℤ) (pool : Objects) (stream : List UploadFileRequest) :
    Outcome :=
  let count := count + 1
  match receiveAll ev.throws 0 stream (Receiving.start count) with
  | .error thrown => ⟨.aborted thrown.what, thrown.response, pool, none, count⟩
  | .ok st =>
    let (ret, pool') := radosWrite ev.result pool st.name st.bl
    let stored := if ev.result < 0 then none else some (st.name, st.bl)
    if ret < 0 then ⟨.cancelled, st.response, pool', stored, count⟩
    else ⟨.ok, st.response, pool', stored, count⟩

/-- The bytes of the chunks of a stream. -/
def payload (stream : List UploadFileRequest) : Bytes :=
  stream.flatMap UploadFileRequest.mutableChunkData

/-- The last name of a stream, or `default`. -/
def lastName (default : String) (stream : List UploadFileRequest) : String :=
  stream.foldl (fun name part => part.name?.getD name) default

variable {throws : ℕ → Option String}

/-- **The receive loop** fails exactly if some message throws. -/
theorem receiveAll_error_iff (i : ℕ) (stream : List UploadFileRequest) (st : Receiving) :
    (∃ thrown, receiveAll throws i stream st = .error thrown) ↔
      ∃ j < stream.length, throws (i + j) ≠ none := by
  induction stream generalizing i st with
  | nil => simp [receiveAll]
  | cons part parts ih =>
    unfold receiveAll
    cases hthrow : throws i with
    | some what =>
      constructor
      · intro _
        exact ⟨0, by simp, by simp [hthrow]⟩
      · intro _
        exact ⟨⟨what, st.response⟩, rfl⟩
    | none =>
      -- Message `i` is handled; the others are numbered from `i + 1`.
      show (∃ thrown, receiveAll throws (i + 1) parts (receive st part) = .error thrown) ↔ _
      rw [ih]
      constructor
      · rintro ⟨j, hj, hne⟩
        exact ⟨j + 1, by simpa using hj, by rwa [show i + (j + 1) = i + 1 + j by omega]⟩
      · rintro ⟨j, hj, hne⟩
        cases j with
        | zero => exact absurd hthrow hne
        | succ j => exact ⟨j, by simpa using hj, by rwa [show i + 1 + j = i + (j + 1) by omega]⟩

/-- **What the receive loop collects.** -/
theorem receiveAll_ok {i : ℕ} {stream : List UploadFileRequest} {st st' : Receiving}
    (h : receiveAll throws i stream st = .ok st') :
    st'.name = lastName st.name stream ∧ st'.bl = st.bl ++ payload stream ∧
      st'.response.id = if stream = [] then st.response.id else st'.name := by
  induction stream generalizing i st with
  | nil =>
    cases h
    simp [lastName, payload]
  | cons part parts ih =>
    unfold receiveAll at h
    split at h
    · simp at h
    obtain ⟨hname, hbl, hid⟩ := ih h
    refine ⟨hname, ?_, ?_⟩
    · rw [hbl]
      simp [receive, payload, List.append_assoc]
    · rw [if_neg (List.cons_ne_nil _ _), hid]
      split
      · -- This was the last message: it has set the id to the name.
        rename_i hnil
        subst hnil
        rw [hname]
        rfl
      · rfl

/-! ### Truthful outcomes -/

/-- The outcome tells the truth: the status is OK exactly if the object was stored, and then
    the id is the name it was stored under. -/
def Truthful (o : Outcome) : Prop :=
  (o.status = .ok ↔ o.stored.isSome) ∧
    (o.status = .ok → ∃ data, o.stored = some (o.response.id, data))

/-- `RadosClient::write` never fails in a way that `UploadFile` notices. -/
theorem radosWrite_nonneg (result : ℤ) (pool : Objects) (name : String) (data : Bytes) :
    0 ≤ (radosWrite result pool name data).1 := by
  unfold radosWrite writeFull exitFailure
  dsimp only
  split
  · omega
  · omega

/-- The two ways a call ends. -/
theorem uploadFile_cases (ev : Events) (count : ℤ) (pool : Objects)
    (stream : List UploadFileRequest) :
    (∃ thrown, receiveAll ev.throws 0 stream (Receiving.start (count + 1)) = .error thrown ∧
        uploadFile ev count pool stream
          = ⟨.aborted thrown.what, thrown.response, pool, none, count + 1⟩) ∨
      ∃ st, receiveAll ev.throws 0 stream (Receiving.start (count + 1)) = .ok st ∧
        uploadFile ev count pool stream = ⟨.ok, st.response,
          if ev.result < 0 then pool else pool.insert st.name st.bl,
          if ev.result < 0 then none else some (st.name, st.bl), count + 1⟩ := by
  unfold uploadFile
  dsimp only
  cases receiveAll ev.throws 0 stream (Receiving.start (count + 1)) with
  | error thrown => exact Or.inl ⟨thrown, rfl, rfl⟩
  | ok st =>
    -- `RadosClient::write` never returns a negative number, so the status is OK.
    have hret := radosWrite_nonneg ev.result pool st.name st.bl
    refine Or.inr ⟨st, rfl, ?_⟩
    dsimp only
    rw [if_neg (Int.not_lt.mpr hret)]
    simp only [radosWrite, writeFull]

/-- **A call aborts** if handling one of its messages throws. -/
theorem uploadFile_aborts (ev : Events) (count : ℤ) (pool : Objects)
    {stream : List UploadFileRequest} (h : ∃ i < stream.length, ev.throws i ≠ none) :
    ∃ thrown : Thrown, uploadFile ev count pool stream
      = ⟨.aborted thrown.what, thrown.response, pool, none, count + 1⟩ := by
  obtain ⟨thrown, hrec⟩ := (receiveAll_error_iff 0 stream (Receiving.start (count + 1))).mpr
    (by simpa only [Nat.zero_add] using h)
  refine ⟨thrown, ?_⟩
  unfold uploadFile
  dsimp only
  rw [hrec]

/-- **A call writes** the payload under the last name, if handling its messages does not throw. -/
theorem uploadFile_writes (ev : Events) (count : ℤ) (pool : Objects)
    {stream : List UploadFileRequest} (h : ¬ ∃ i < stream.length, ev.throws i ≠ none) :
    ∃ response : UploadFileResponse,
      response.id = (if stream = [] then "" else lastName (defaultName (count + 1)) stream) ∧
      uploadFile ev count pool stream = ⟨.ok, response,
        if ev.result < 0 then pool
        else pool.insert (lastName (defaultName (count + 1)) stream) (payload stream),
        if ev.result < 0 then none
        else some (lastName (defaultName (count + 1)) stream, payload stream), count + 1⟩ := by
  -- Without an exception all messages are received.
  rcases uploadFile_cases ev count pool stream with ⟨thrown, hrec, -⟩ | ⟨st, hrec, hcall⟩
  · refine absurd ?_ h
    simpa only [Nat.zero_add] using (receiveAll_error_iff 0 stream _).mp ⟨thrown, hrec⟩
  · obtain ⟨hname, hbl, hid⟩ := receiveAll_ok hrec
    have hname' : st.name = lastName (defaultName (count + 1)) stream := hname
    have hbl' : st.bl = payload stream := by
      rw [hbl]
      exact List.nil_append _
    refine ⟨st.response, ?_, ?_⟩
    · rw [hid, hname']
      rfl
    · rw [hcall, hname', hbl']

/-- An object always has a name. -/
theorem defaultName_ne_empty (count : ℤ) : defaultName count ≠ "" := by
  intro h
  have hlen : (defaultName count).length = "/tmp/grpc_cpp_image".length + (toString count).length :=
    String.length_append _ _
  have hpos : 0 < "/tmp/grpc_cpp_image".length := by decide
  rw [h, String.length_empty] at hlen
  omega

/-- **When the server tells the truth**: the call was aborted, or `write_full` succeeded and
    there was a message to set the id. -/
theorem uploadFile_truthful_iff (ev : Events) (count : ℤ) (pool : Objects)
    (stream : List UploadFileRequest) :
    Truthful (uploadFile ev count pool stream) ↔
      (∃ i < stream.length, ev.throws i ≠ none) ∨ (0 ≤ ev.result ∧ stream ≠ []) := by
  by_cases hthrown : ∃ i < stream.length, ev.throws i ≠ none
  · -- Aborted: nothing was stored and the status says so.
    obtain ⟨thrown, hcall⟩ := uploadFile_aborts ev count pool hthrown
    rw [hcall]
    simp [Truthful, hthrown]
  · obtain ⟨response, hid, hcall⟩ := uploadFile_writes ev count pool hthrown
    rw [hcall]
    simp only [Truthful, hthrown, false_or]
    by_cases hneg : ev.result < 0
    · -- The status is OK although nothing was stored.
      simp [hneg, Int.not_le.mpr hneg]
    · by_cases hnil : stream = []
      · -- The object went to the default name, and no message has set the id.
        subst hnil
        rw [if_pos rfl] at hid
        have hne : lastName (defaultName (count + 1)) [] ≠ response.id := by
          rw [hid]
          exact defaultName_ne_empty _
        simp [hneg, hne]
      · rw [if_neg hnil] at hid
        have hnonneg : 0 ≤ ev.result := by omega
        simp [hneg, hnil, hid, hnonneg]

end MyCeph.Upload
