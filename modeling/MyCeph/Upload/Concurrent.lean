import Mathlib
import MyCeph.Lib.System
import MyCeph.Upload.RoundTrip

namespace MyCeph.Upload

open Lib

/-!
# Concurrent uploads

gRPC runs the calls of `UploadFile` on several threads.  Everything a call works on is its
own but for the pool and the global `count`, which it increments in one step and reads
into its default name in a later one (`uploadStep`).

The calls are isolated when the default names of those without a `FileInfo` differ, that is
when none of them reads a `count` that another one has read already (`uploads_isolated_iff`).
Nothing in the code sees to that (`same_default_name`).
-/

variable {ι : Type*} [DecidableEq ι]

/-! ### State and steps -/

/-- Where a call stands; `seen` is the `count` its default name was built from. -/
inductive CallPc where
  | start
  /-- Behind `count += 1`. -/
  | counted
  | receiving (seen : ℤ) (st : Receiving) (rest : List UploadFileRequest)
  /-- Behind `write_full`, which returned `result`. -/
  | written (seen : ℤ) (st : Receiving) (result : ℤ)
  /-- Handling a message has thrown. -/
  | aborted (seen : ℤ) (thrown : Thrown)

/-- The global variable, the pool and the calls. -/
structure World (ι : Type*) where
  count : ℤ
  pool : Objects
  call : ι → CallPc

/-- Before the calls. -/
def World.start (ι : Type*) (count : ℤ) (pool : Objects) : World ι := ⟨count, pool, fun _ => .start⟩

/-- Call `i` goes on to `pc`. -/
def World.move (s : World ι) (i : ι) (pc : CallPc) : World ι :=
  { s with call := Function.update s.call i pc }

@[simp] theorem World.move_self (s : World ι) (i : ι) (pc : CallPc) :
    (s.move i pc).call i = pc := by
  simp only [World.move, Function.update_self]

theorem World.move_of_ne (s : World ι) {i j : ι} (pc : CallPc) (h : j ≠ i) :
    (s.move i pc).call j = s.call j := by
  simp only [World.move, Function.update_of_ne h]

/-- A step of call `i`. -/
inductive Action (ι : Type*) where
  /-- `count += 1`. -/
  | increment (i : ι)
  /-- `string name = "/tmp/grpc_cpp_image" + std::to_string(count)`. -/
  | readCount (i : ι)
  /-- The next message is received and handled, and the handling may throw. -/
  | receive (i : ι) (throws : Option String)
  /-- `Read` returns false and the object is written; `result` is what `write_full` returns. -/
  | write (i : ι) (result : ℤ)

/-- One step of the calls that receive `streams`. -/
def uploadStep (streams : ι → List UploadFileRequest) (s : World ι) : Action ι → Option (World ι)
  | .increment i =>
    match s.call i with
    | .start => some { s.move i .counted with count := s.count + 1 }
    | _ => none
  | .readCount i =>
    match s.call i with
    | .counted => some (s.move i (.receiving s.count (Receiving.start s.count) (streams i)))
    | _ => none
  | .receive i throws =>
    match s.call i with
    | .receiving seen st (part :: rest) =>
      match throws with
      | some what => some (s.move i (.aborted seen ⟨what, st.response⟩))
      | none => some (s.move i (.receiving seen (receive st part) rest))
    | _ => none
  | .write i result =>
    match s.call i with
    | .receiving seen st [] =>
      let (_, pool) := radosWrite result s.pool st.name st.bl
      some { s.move i (.written seen st result) with pool := pool }
    | _ => none

variable {streams : ι → List UploadFileRequest} {s s' : World ι} {a : Action ι}

/-- All that one step can do. -/
inductive UploadStep (streams : ι → List UploadFileRequest) (s : World ι) :
    Action ι → World ι → Prop where
  | increment (i : ι) (hpc : s.call i = .start) :
      UploadStep streams s (.increment i) { s.move i .counted with count := s.count + 1 }
  | readCount (i : ι) (hpc : s.call i = .counted) :
      UploadStep streams s (.readCount i)
        (s.move i (.receiving s.count (Receiving.start s.count) (streams i)))
  | receive (i : ι) (seen : ℤ) (st : Receiving) (part : UploadFileRequest)
      (rest : List UploadFileRequest) (hpc : s.call i = .receiving seen st (part :: rest)) :
      UploadStep streams s (.receive i none) (s.move i (.receiving seen (receive st part) rest))
  | abort (i : ι) (what : String) (seen : ℤ) (st : Receiving) (part : UploadFileRequest)
      (rest : List UploadFileRequest) (hpc : s.call i = .receiving seen st (part :: rest)) :
      UploadStep streams s (.receive i (some what)) (s.move i (.aborted seen ⟨what, st.response⟩))
  | write (i : ι) (result seen : ℤ) (st : Receiving) (hpc : s.call i = .receiving seen st []) :
      UploadStep streams s (.write i result) { s.move i (.written seen st result) with
        pool := if result < 0 then s.pool else s.pool.insert st.name st.bl }

/-- **All that one step can do.** -/
theorem uploadStep_step (h : uploadStep streams s a = some s') : UploadStep streams s a s' := by
  cases a with
  | increment i =>
    simp only [uploadStep] at h
    split at h
    · rename_i hpc
      cases h; exact .increment i hpc
    · simp at h
  | readCount i =>
    simp only [uploadStep] at h
    split at h
    · rename_i hpc
      cases h; exact .readCount i hpc
    · simp at h
  | receive i throws =>
    simp only [uploadStep] at h
    split at h
    · rename_i seen st part rest hpc
      cases throws with
      | some what => cases h; exact .abort i what seen st part rest hpc
      | none => cases h; exact .receive i seen st part rest hpc
    · simp at h
  | write i result =>
    simp only [uploadStep] at h
    split at h
    · rename_i seen st hpc
      cases h; exact .write i result seen st hpc
    · simp at h

/-! ### What a call knows -/

/-- The `count` a call has read. -/
def CallPc.seen? : CallPc → Option ℤ
  | .start | .counted => none
  | .receiving seen _ _ | .written seen _ _ | .aborted seen _ => some seen

/-- The local variables of call `i` come from the messages it has received. -/
def Receives (stream : List UploadFileRequest) : CallPc → Prop
  | .receiving seen st rest => ∃ got, got ++ rest = stream ∧
      st.name = lastName (defaultName seen) got ∧ st.bl = payload got
  | .written seen st _ => st.name = lastName (defaultName seen) stream ∧ st.bl = payload stream
  | _ => True

theorem Receives.receive {stream rest : List UploadFileRequest} {part : UploadFileRequest}
    {seen : ℤ} {st : Receiving} (h : Receives stream (.receiving seen st (part :: rest))) :
    Receives stream (.receiving seen (Upload.receive st part) rest) := by
  obtain ⟨got, hgot, hname, hbl⟩ := h
  refine ⟨got ++ [part], by rw [List.append_assoc]; exact hgot, ?_, ?_⟩
  · simp only [lastName, List.foldl_append] at hname ⊢
    rw [← hname]
    rfl
  · simp only [payload, List.flatMap_append] at hbl ⊢
    rw [← hbl]
    simp [Upload.receive]

theorem Receives.write {stream : List UploadFileRequest} {seen result : ℤ} {st : Receiving}
    (h : Receives stream (.receiving seen st [])) : Receives stream (.written seen st result) := by
  obtain ⟨got, hgot, hname, hbl⟩ := h
  rw [List.append_nil] at hgot
  subst hgot
  exact ⟨hname, hbl⟩

/-- What holds of every call and of the new position of the one that moves. -/
theorem World.forall_move {Q : ι → CallPc → Prop} {i : ι} {pc : CallPc}
    (h : ∀ j, Q j (s.call j)) (hi : Q i pc) : ∀ j, Q j ((s.move i pc).call j) := by
  intro j
  by_cases hj : j = i
  · subst hj
    rw [World.move_self]
    exact hi
  · rw [World.move_of_ne s pc hj]
    exact h j

/-- **Step lemma**: every call's variables come from its own messages. -/
theorem receives_step (h : ∀ i, Receives (streams i) (s.call i))
    (hs : UploadStep streams s a s') : ∀ i, Receives (streams i) (s'.call i) := by
  cases hs with
  | increment i hpc => exact s.forall_move h trivial
  | readCount i hpc => exact s.forall_move h ⟨[], rfl, rfl, rfl⟩
  | receive i seen st part rest hpc => exact s.forall_move h (hpc ▸ h i).receive
  | abort i what seen st part rest hpc => exact s.forall_move h trivial
  | write i result seen st hpc => exact s.forall_move h (hpc ▸ h i).write

/-- A call that has read `count` keeps its value. -/
theorem seen_step {i : ι} {c : ℤ} (h : (s.call i).seen? = some c)
    (hs : UploadStep streams s a s') : (s'.call i).seen? = some c := by
  have hmove : ∀ {j : ι} {pc : CallPc}, ((s.call j).seen? = some c → pc.seen? = some c) →
      ((s.move j pc).call i).seen? = some c := by
    intro j pc hpc
    by_cases hij : i = j
    · subst hij
      rw [World.move_self]
      exact hpc h
    · rw [World.move_of_ne s pc hij]
      exact h
  cases hs with
  | increment j hpc => exact hmove fun hj => by rw [hpc] at hj; cases hj
  | readCount j hpc => exact hmove fun hj => by rw [hpc] at hj; cases hj
  | receive j seen st part rest hpc => exact hmove fun hj => by rw [hpc] at hj; exact hj
  | abort j what seen st part rest hpc => exact hmove fun hj => by rw [hpc] at hj; exact hj
  | write j result seen st hpc => exact hmove fun hj => by rw [hpc] at hj; exact hj

/-! ### Names -/

/-- The name of the last `FileInfo` in a stream, if there is one. -/
def infoName (stream : List UploadFileRequest) : Option String :=
  (stream.filterMap UploadFileRequest.name?).getLast?

/-- The names that clients send differ from each other and from all default names. -/
structure DistinctNames (streams : ι → List UploadFileRequest) : Prop where
  distinct : ∀ i j name, i ≠ j → infoName (streams i) = some name →
    infoName (streams j) ≠ some name
  not_default : ∀ i name count, infoName (streams i) = some name → name ≠ defaultName count

/-- Calls that have read different counts build different default names. -/
theorem defaultName_injective {c c' : ℤ} (h : defaultName c = defaultName c') : c = c' := by
  unfold defaultName at h
  -- That numbers are written differently is in no module of Mathlib but the whole.
  exact Int.repr_injective ((String.append_right_inj _).mp h)

/-- The name of a call that has read `seen`. -/
def nameOf (stream : List UploadFileRequest) (seen : ℤ) : String :=
  (infoName stream).getD (defaultName seen)

omit [DecidableEq ι] in
/-- Two calls have the same name only if neither sends one and both have read the same `count`. -/
theorem nameOf_eq_iff (hnames : DistinctNames streams) {i j : ι} (hij : i ≠ j) {c c' : ℤ} :
    nameOf (streams i) c = nameOf (streams j) c' ↔
      infoName (streams i) = none ∧ infoName (streams j) = none ∧ c = c' := by
  unfold nameOf
  cases hi : infoName (streams i) with
  | some name =>
    cases hj : infoName (streams j) with
    | some name' =>
      -- Both have a name of their own: these differ.
      have hne : name ≠ name' := fun h => hnames.distinct i j name hij hi (h ▸ hj)
      simp [hne]
    | none =>
      -- A name of its own is not the default name of another call.
      simp [hnames.not_default i name c' hi]
  | none =>
    cases hj : infoName (streams j) with
    | some name' =>
      simp [(hnames.not_default j name' c hj).symm]
    | none =>
      -- Two default names agree as the counters do.
      simp only [Option.getD_none, true_and]
      exact ⟨defaultName_injective, fun h => congrArg _ h⟩

/-! ### Isolation -/

/-- Call `i` has written an object under this name. -/
def World.stored (s : World ι) (i : ι) (name : String) : Prop :=
  ∃ seen st result, s.call i = .written seen st result ∧ 0 ≤ result ∧ st.name = name

/-- The calls have written under different names, and the pool holds for each of them an object
    with just its own chunks. -/
structure Isolated (streams : ι → List UploadFileRequest) (s : World ι) : Prop where
  names : ∀ i j name, i ≠ j → s.stored i name → ¬ s.stored j name
  objects : ∀ i name, s.stored i name → s.pool name = some (payload (streams i))

/-- A call without a `FileInfo` reads the `count` that another one has read already. -/
def StaleRead (streams : ι → List UploadFileRequest) (s : World ι) : Action ι → Prop
  | .readCount i => infoName (streams i) = none ∧
      ∃ j, j ≠ i ∧ infoName (streams j) = none ∧ (s.call j).seen? = some s.count
  | _ => False

instance [Fintype ι] (s : World ι) (a : Action ι) : Decidable (StaleRead streams s a) :=
  match a with
  | .readCount i => inferInstanceAs (Decidable (infoName (streams i) = none ∧
      ∃ j, j ≠ i ∧ infoName (streams j) = none ∧ (s.call j).seen? = some s.count))
  | .increment _ | .receive _ _ | .write _ _ => inferInstanceAs (Decidable False)

/-- While the calls run: the names of those that have read `count` differ, and what has been
    written is in the pool. -/
structure Apart (streams : ι → List UploadFileRequest) (s : World ι) : Prop where
  receives : ∀ i, Receives (streams i) (s.call i)
  names : ∀ i j c c', i ≠ j → (s.call i).seen? = some c → (s.call j).seen? = some c' →
    nameOf (streams i) c ≠ nameOf (streams j) c'
  objects : ∀ i name, s.stored i name → s.pool name = some (payload (streams i))

omit [DecidableEq ι] in
/-- A written object has the name of its call. -/
theorem stored_name (h : ∀ i, Receives (streams i) (s.call i)) {i : ι} {name : String}
    (hs : s.stored i name) :
    ∃ c, (s.call i).seen? = some c ∧ name = nameOf (streams i) c := by
  obtain ⟨seen, st, result, hpc, -, rfl⟩ := hs
  refine ⟨seen, by rw [hpc]; rfl, ?_⟩
  have hreceived := h i
  rw [hpc] at hreceived
  rw [hreceived.1, lastName_eq]
  rfl

/-- A move that reads no `count`. -/
theorem World.seen_of_move {i j : ι} {pc : CallPc} {c : ℤ}
    (hpc : ∀ c, pc.seen? = some c → (s.call i).seen? = some c)
    (h : ((s.move i pc).call j).seen? = some c) : (s.call j).seen? = some c :=
  s.forall_move (Q := fun j pc => pc.seen? = some c → (s.call j).seen? = some c) (fun _ h => h)
    (hpc c) j h

/-- A move that writes nothing. -/
theorem World.stored_of_move {i j : ι} {pc : CallPc} {name : String}
    (hpc : ∀ seen st result, pc ≠ .written seen st result) (h : (s.move i pc).stored j name) :
    s.stored j name := by
  obtain ⟨seen, st, result, hj, hresult, hname⟩ := h
  by_cases hij : j = i
  · subst hij
    rw [World.move_self] at hj
    exact absurd hj (hpc seen st result)
  · rw [World.move_of_ne s pc hij] at hj
    exact ⟨seen, st, result, hj, hresult, hname⟩

/-- **Step lemma.**  A step that is no stale read keeps the calls apart. -/
theorem Apart.step (hnames : DistinctNames streams) (h : Apart streams s)
    (hfresh : ¬ StaleRead streams s a) (hs : UploadStep streams s a s') : Apart streams s' := by
  have hreceives := receives_step h.receives hs
  -- Most steps read no `count` and write nothing.
  have hkeep : ∀ (i : ι) (pc : CallPc), (∀ c, pc.seen? = some c → (s.call i).seen? = some c) →
      (∀ seen st result, pc ≠ .written seen st result) →
      (∀ j k c c', j ≠ k → ((s.move i pc).call j).seen? = some c →
        ((s.move i pc).call k).seen? = some c' → nameOf (streams j) c ≠ nameOf (streams k) c') ∧
      ∀ j name, (s.move i pc).stored j name → s.pool name = some (payload (streams j)) :=
    fun i pc hseen hwritten => ⟨fun j k c c' hjk hj hk =>
      h.names j k c c' hjk (World.seen_of_move hseen hj) (World.seen_of_move hseen hk),
      fun j name hj => h.objects j name (World.stored_of_move hwritten hj)⟩
  cases hs with
  | increment i hpc =>
    obtain ⟨hn, ho⟩ := hkeep i (.counted) (fun _ hc => by cases hc) (by simp)
    exact ⟨hreceives, hn, ho⟩
  | receive i seen st part rest hpc =>
    obtain ⟨hn, ho⟩ := hkeep i (.receiving seen (receive st part) rest)
      (fun c hc => by rw [hpc]; exact hc) (by simp)
    exact ⟨hreceives, hn, ho⟩
  | abort i what seen st part rest hpc =>
    obtain ⟨hn, ho⟩ := hkeep i (.aborted seen ⟨what, st.response⟩)
      (fun c hc => by rw [hpc]; exact hc) (by simp)
    exact ⟨hreceives, hn, ho⟩
  | readCount i hpc =>
    -- The name just built differs from those built before.
    have hnew : ∀ j c, j ≠ i → (s.call j).seen? = some c →
        nameOf (streams i) s.count ≠ nameOf (streams j) c := by
      intro j c hj hc heq
      obtain ⟨hi, hj', rfl⟩ := (nameOf_eq_iff hnames (Ne.symm hj)).mp heq
      exact hfresh ⟨hi, j, hj, hj', hc⟩
    refine ⟨hreceives, fun j k c c' hjk hj hk => ?_, fun j name hj =>
      h.objects j name (World.stored_of_move (by simp) hj)⟩
    by_cases hji : j = i
    · subst hji
      rw [World.move_self] at hj
      rw [World.move_of_ne s _ (Ne.symm hjk)] at hk
      cases hj
      exact hnew k c' (Ne.symm hjk) hk
    by_cases hki : k = i
    · subst hki
      rw [World.move_self] at hk
      rw [World.move_of_ne s _ hji] at hj
      cases hk
      exact (hnew j c hji hj).symm
    · rw [World.move_of_ne s _ hji] at hj
      rw [World.move_of_ne s _ hki] at hk
      exact h.names j k c c' hjk hj hk
  | write i result seen st hpc =>
    have hseen : ∀ c, (CallPc.written seen st result).seen? = some c → (s.call i).seen? = some c :=
      fun c hc => by rw [hpc]; exact hc
    have hi := hreceives i
    rw [World.move_self] at hi
    obtain ⟨hname, hbl⟩ := hi
    refine ⟨hreceives, fun j k c c' hjk hj hk =>
      h.names j k c c' hjk (World.seen_of_move hseen hj) (World.seen_of_move hseen hk), ?_⟩
    rintro j name ⟨seen', st', result', hj, hresult, rfl⟩
    by_cases hji : j = i
    · subst hji
      rw [World.move_self] at hj
      cases hj
      simp only [Int.not_lt.mpr hresult, if_false, Objects.insert_self, hbl]
    · rw [World.move_of_ne s _ hji] at hj
      have hstored : s.stored j st'.name := ⟨seen', st', result', hj, hresult, rfl⟩
      -- The other objects have other names.
      have hne : st'.name ≠ st.name := by
        obtain ⟨c, hc, hname'⟩ := stored_name h.receives hstored
        rw [hname', hname, lastName_eq]
        exact h.names j i c seen hji hc (by rw [hpc]; rfl)
      have hobject := h.objects j _ hstored
      dsimp only
      split
      · exact hobject
      · unfold Objects.insert
        rw [if_neg hne]
        exact hobject

/-- **When concurrent uploads are isolated.**  In a run in which every call writes and every write
    succeeds, they are if and only if no call without a `FileInfo` reads the `count` that another
    one has read already. -/
theorem uploads_isolated_iff (streams : ι → List UploadFileRequest) (count : ℤ) (pool : Objects)
    (tr : List (World ι × Action ι)) (s : World ι) (hnames : DistinctNames streams)
    (hrun : Run (uploadStep streams) (World.start ι count pool) tr s)
    (hall : ∀ i, ∃ name, s.stored i name) :
    Isolated streams s ↔ ∀ p ∈ tr, ¬ StaleRead streams p.1 p.2 := by
  have hreceives : ∀ i, Receives (streams i) (s.call i) := by
    refine hrun.invariant' (fun s => ∀ i, Receives (streams i) (s.call i)) ?_
      fun s a s' h hs => receives_step h (uploadStep_step hs)
    intro i
    trivial
  constructor
  · rintro hisolated ⟨s₁, a⟩ hp hstale
    -- From a stale read on, two calls without a `FileInfo` have read the same `count`.
    cases a with
    | readCount i =>
      obtain ⟨hi, j, hji, hj, hseen⟩ := hstale
      have hboth : (s.call i).seen? = some s₁.count ∧ (s.call j).seen? = some s₁.count := by
        refine hrun.since (fun s => (s.call i).seen? = some s₁.count ∧
          (s.call j).seen? = some s₁.count) (fun _ _ => True) ?_ ?_ (fun _ _ => trivial) hp
        · intro tr s' _ hs _
          have hs' := uploadStep_step hs
          refine ⟨?_, seen_step hseen hs'⟩
          cases hs' with
          | readCount i hpc =>
            rw [World.move_self]
            rfl
        · intro tr s a s' _ hQ _ hs
          exact ⟨seen_step hQ.1 (uploadStep_step hs), seen_step hQ.2 (uploadStep_step hs)⟩
      obtain ⟨name, hstored⟩ := hall i
      obtain ⟨name', hstored'⟩ := hall j
      obtain ⟨c, hc, rfl⟩ := stored_name hreceives hstored
      obtain ⟨c', hc', rfl⟩ := stored_name hreceives hstored'
      have heq : nameOf (streams i) c = nameOf (streams j) c' := by
        refine (nameOf_eq_iff hnames (Ne.symm hji)).mpr ⟨hi, hj, ?_⟩
        have hcc := hboth.1.symm.trans hc
        have hcc' := hboth.2.symm.trans hc'
        cases hcc
        cases hcc'
        rfl
      exact hisolated.names i j _ (Ne.symm hji) hstored (heq ▸ hstored')
    | increment i | receive i throws | write i result => exact hstale
  · intro hfresh
    have hapart : Apart streams s := by
      refine hrun.invariant (Apart streams) (fun s a => ¬ StaleRead streams s a) ?_
        (fun s a s' h hf hs => h.step hnames hf (uploadStep_step hs)) hfresh
      refine ⟨fun i => trivial, fun i j c c' _ hc => ?_, fun i name hstored => ?_⟩
      · cases hc
      · obtain ⟨seen, st, result, hpc, -⟩ := hstored
        cases hpc
    refine ⟨fun i j name hij hi hj => ?_, hapart.objects⟩
    obtain ⟨c, hc, hname⟩ := stored_name hreceives hi
    obtain ⟨c', hc', hname'⟩ := stored_name hreceives hj
    exact hapart.names i j c c' hij hc hc' (hname.symm.trans hname')

/-- Two calls with a chunk each and no `FileInfo`. -/
def twoStreams (second : Bool) : List UploadFileRequest := [.chunkData [if second then 2 else 1]]

theorem twoStreams_names : DistinctNames twoStreams := by
  have hnone : ∀ i, infoName (twoStreams i) = none := fun _ => rfl
  constructor
  · intro i j name _ hi
    rw [hnone] at hi
    cases hi
  · intro i name count hi
    rw [hnone] at hi
    cases hi

/-- Everything that call `i` does. -/
def wholeCall (i : Bool) : List (Action Bool) :=
  [.increment i, .readCount i, .receive i none, .write i 0]

/-- One call after the other: both objects are there. -/
theorem uploads_isolated_inTurn :
    ∃ tr s, Run (uploadStep twoStreams) (World.start Bool 0 fun _ => none) tr s ∧
      Isolated twoStreams s := by
  have hrun : Run (uploadStep twoStreams) (World.start Bool 0 fun _ => none) _ _ :=
    Run.of_follow .start
      (show follow _ (wholeCall false ++ wholeCall true) [] _ = some (_, _) from rfl)
  refine ⟨_, _, hrun, (uploads_isolated_iff twoStreams 0 (fun _ => none) _ _ twoStreams_names hrun
    ?_).mpr ?_⟩
  · intro i
    cases i
    · exact ⟨_, _, _, _, rfl, by decide, rfl⟩
    · exact ⟨_, _, _, _, rfl, by decide, rfl⟩
  · decide +kernel

/-- **A lost upload.**  Both calls increment `count` before either reads it: they write under one
    name, and the object of the first one is gone. -/
theorem same_default_name :
    ∃ tr s, Run (uploadStep twoStreams) (World.start Bool 0 fun _ => none) tr s ∧
      (∀ i, ∃ name, s.stored i name) ∧ ¬ Isolated twoStreams s := by
  have hrun : Run (uploadStep twoStreams) (World.start Bool 0 fun _ => none) _ _ :=
    Run.of_follow .start (show follow _ [.increment false, .increment true, .readCount false,
      .readCount true, .receive false none, .receive true none, .write false 0, .write true 0] [] _
      = some (_, _) from rfl)
  refine ⟨_, _, hrun, ?_, ?_⟩
  · intro i
    cases i
    · exact ⟨_, _, _, _, rfl, by decide, rfl⟩
    · exact ⟨_, _, _, _, rfl, by decide, rfl⟩
  · intro hisolated
    exact hisolated.names false true (defaultName 2) (by decide) ⟨_, _, _, rfl, by decide, rfl⟩
      ⟨_, _, _, rfl, by decide, rfl⟩

end MyCeph.Upload
