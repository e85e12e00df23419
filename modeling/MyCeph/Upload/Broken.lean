import MyCeph.Upload.Client

namespace MyCeph.Upload

/-!
# Uploads that break off

`ServerReader::Read` returns false when the client has half-closed the stream, and also when
the call was cancelled or the connection lost.  `UploadFile` does not tell the two apart: a
broken stream ends its receive loop like a complete one, and what has arrived so far is
written (`uploadFile_broken_iff`).  Of a file, that is a prefix (`uploadFile_sent_take`).
-/

/-- A stream as it arrives at the server: what the client sends before its half-close, and
    after how many of these messages the stream breaks, if it does. -/
structure Arrival where
  sent : List UploadFileRequest
  breaksAfter : Option ℕ

/-- The messages for which `Read` returns true.  After them it returns false in both cases. -/
def Arrival.received (a : Arrival) : List UploadFileRequest :=
  match a.breaksAfter with
  | none => a.sent
  | some n => a.sent.take n

/-! ### When a call leaves the pool alone -/

/-- Writing what is there already changes nothing. -/
theorem Objects.insert_eq_self_iff {pool : Objects} {name : String} {data : Bytes} :
    pool.insert name data = pool ↔ pool name = some data := by
  constructor
  · intro h
    rw [← h, Objects.insert_self]
  · intro h
    funext n
    unfold Objects.insert
    split
    · rename_i hn
      rw [hn, h]
    · rfl

/-- A call leaves the pool alone if handling a message throws or `write_full` fails, or if the
    pool held the object before. -/
theorem uploadFile_pool_iff (ev : Events) (count : ℤ) (pool : Objects)
    (stream : List UploadFileRequest) :
    (uploadFile ev count pool stream).pool = pool ↔
      (∃ i < stream.length, ev.throws i ≠ none) ∨ ev.result < 0 ∨
        pool (lastName (defaultName (count + 1)) stream) = some (payload stream) := by
  by_cases hthrown : ∃ i < stream.length, ev.throws i ≠ none
  · obtain ⟨thrown, hcall⟩ := uploadFile_aborts ev count pool hthrown
    rw [hcall]
    simp only [hthrown, true_or]
  · obtain ⟨response, -, hcall⟩ := uploadFile_writes ev count pool hthrown
    rw [hcall]
    simp only [hthrown, false_or]
    by_cases hneg : ev.result < 0
    · simp only [hneg, if_true, true_or]
    · -- The one case that writes.
      rw [if_neg hneg, Objects.insert_eq_self_iff]
      simp only [hneg, false_or]

/-- **When a broken upload leaves the pool as it was**: only if the server does not get to
    write, or the pool holds just the truncated object already. -/
theorem uploadFile_broken_iff (ev : Events) (count : ℤ) (pool : Objects)
    (sent : List UploadFileRequest) (n : ℕ) :
    (uploadFile ev count pool (Arrival.received ⟨sent, some n⟩)).pool = pool ↔
      (∃ i < min n sent.length, ev.throws i ≠ none) ∨ ev.result < 0 ∨
        pool (lastName (defaultName (count + 1)) (sent.take n)) = some (payload (sent.take n)) := by
  have h := uploadFile_pool_iff ev count pool (sent.take n)
  rw [List.length_take] at h
  exact h

/-- **A broken upload replaces an object.**  The pool holds `a` with the bytes 1, 2; the upload of
    1, 3 breaks after its first chunk. -/
theorem uploadFile_broken_replaces :
    (uploadFile ⟨fun _ => none, 0⟩ 0 (fun name => if name = "a" then some [1, 2] else none)
      (Arrival.received ⟨[infoRequest "a", .chunkData [1], .chunkData [3]], some 2⟩)).pool
      ≠ fun name => if name = "a" then some [1, 2] else none := by
  intro h
  have hobject := congrFun h "a"
  have hprefix : some ([1] : Bytes) = some [1, 2] := hobject
  cases hprefix

/-! ### Broken uploads of a file -/

theorem Env.take_sent (env : Env) {k n : ℕ} (hk : k ≤ n) :
    (env.sent n).take (k + 1) = env.sent k := by
  unfold Env.sent
  rw [List.take_succ_cons, ← List.map_take, List.take_range, Nat.min_eq_left hk]

/-- Fewer reads give a prefix. -/
theorem Env.bytesRead_prefix (env : Env) {k n : ℕ} (hk : k ≤ n) :
    env.bytesRead k <+: env.bytesRead n := by
  obtain ⟨m, rfl⟩ := Nat.exists_eq_add_of_le hk
  refine ⟨(List.range m).flatMap fun i => (env.reads (k + i)).bytes, ?_⟩
  unfold Env.bytesRead
  rw [List.range_add, List.flatMap_append, List.flatMap_map]

/-- The client has sent `n` reads of a file when the stream breaks, and `k` of them arrive: the
    server stores these under the file's name, a prefix of what was sent. -/
theorem uploadFile_sent_take (env : Env) (ev : Events) (count : ℤ) (pool : Objects) {k n : ℕ}
    (hk : k ≤ n) (hthrows : ∀ i, ev.throws i = none) (hresult : 0 ≤ ev.result) :
    (uploadFile ev count pool (Arrival.received ⟨env.sent n, some (k + 1)⟩)).pool
        = pool.insert env.fileName (env.bytesRead k) ∧
      env.bytesRead k <+: env.bytesRead n := by
  refine ⟨?_, env.bytesRead_prefix hk⟩
  have hreceived : Arrival.received ⟨env.sent n, some (k + 1)⟩ = env.sent k := env.take_sent hk
  rw [hreceived]
  have hno : ¬ ∃ i < (env.sent k).length, ev.throws i ≠ none := fun ⟨i, _, hne⟩ =>
    hne (hthrows i)
  obtain ⟨response, -, hcall⟩ := uploadFile_writes ev count pool hno
  rw [hcall, env.lastName_sent, env.payload_sent]
  exact if_neg (Int.not_lt.mpr hresult)

end MyCeph.Upload
