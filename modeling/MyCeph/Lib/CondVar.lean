import Mathlib.Data.List.Basic
import Mathlib.Tactic.Common

namespace MyCeph.Lib

/-!
# Condition variables

The positions of a group of threads are kept in a list.  `wake` says where a thread that
waits on a condition variable goes on when a signal reaches it; it is `none` for a thread
that does not wait.  `signal` wakes one waiter of the caller's choice and is lost only
when there is none.

* `signalled_of_signal` — what a signal can do;
* `Signalled.countP_eq` — a signal keeps the number of threads of a kind that does not
  distinguish waiting threads from woken ones;
* `Signalled.exists_awake` — behind a signal some thread is awake, if there is a thread.
-/

variable {P : Type*}

/-! ### Counting threads -/

/-- One thread moves from `p` to `p'`. -/
theorem countP_set_add (q : P → Bool) {ts : List P} {i : Nat} {p : P} (p' : P)
    (h : ts[i]? = some p) :
    (ts.set i p').countP q + (if q p then 1 else 0) = ts.countP q + if q p' then 1 else 0 := by
  obtain ⟨hi, rfl⟩ := List.getElem?_eq_some_iff.mp h
  have hle : (if q ts[i] then 1 else 0) ≤ ts.countP q := by
    split
    · rename_i hq
      exact List.countP_pos_iff.mpr ⟨_, List.getElem_mem hi, hq⟩
    · exact Nat.zero_le _
  rw [List.countP_set hi]
  omega

/-- A move that keeps the kind keeps the number. -/
theorem countP_set_eq {q : P → Bool} {ts : List P} {i : Nat} {p p' : P} (h : ts[i]? = some p)
    (hq : q p' = q p) : (ts.set i p').countP q = ts.countP q := by
  have hset := countP_set_add q p' h
  rw [hq] at hset
  omega

/-- Threads of a kind that occurs once are the same. -/
theorem eq_of_countP_eq_one {q : P → Bool} {ts : List P} (h : ts.countP q = 1) {a b : P}
    (ha : a ∈ ts) (hb : b ∈ ts) (hqa : q a = true) (hqb : q b = true) : a = b := by
  rw [List.countP_eq_length_filter] at h
  obtain ⟨x, hx⟩ := List.length_eq_one_iff.mp h
  have hmem : ∀ c ∈ ts, q c = true → c = x := by
    intro c hc hqc
    have hfilter : c ∈ ts.filter q := List.mem_filter.mpr ⟨hc, hqc⟩
    rw [hx] at hfilter
    exact List.mem_singleton.mp hfilter
  exact (hmem a ha hqa).trans (hmem b hb hqb).symm

/-! ### Signals -/

/-- A signal that wakes thread `woken`, or is lost. -/
def signal (wake : P → Option P) (ts : List P) : Option Nat → Option (List P)
  | none => if ts.all fun p => (wake p).isNone then some ts else none
  | some i =>
    match ts[i]? with
    | none => none
    | some p => (wake p).map fun p' => ts.set i p'

/-- What a signal can do: it is lost when no thread waits, or it wakes one. -/
inductive Signalled (wake : P → Option P) (ts : List P) : List P → Prop where
  | lost (h : ∀ p ∈ ts, wake p = none) : Signalled wake ts ts
  | woken {i : Nat} {p p' : P} (hp : ts[i]? = some p) (hw : wake p = some p') :
      Signalled wake ts (ts.set i p')

variable {wake : P → Option P} {ts ts' : List P}

/-- What `signal` does is a signal. -/
theorem signalled_of_signal {woken : Option Nat} (h : signal wake ts woken = some ts') :
    Signalled wake ts ts' := by
  unfold signal at h
  split at h
  · split at h
    · -- A signal without a waiting thread is lost.
      rename_i hall
      obtain rfl := Option.some.inj h
      apply Signalled.lost
      simpa using hall
    · simp at h
  · split at h
    · simp at h
    · rename_i hp
      obtain ⟨p', hw, rfl⟩ := Option.map_eq_some_iff.mp h
      exact Signalled.woken hp hw

/-- A signal can always be sent. -/
theorem exists_signal (wake : P → Option P) (ts : List P) :
    ∃ woken ts', signal wake ts woken = some ts' := by
  by_cases hall : ∀ p ∈ ts, (wake p).isNone = true
  · exact ⟨none, ts, if_pos (List.all_eq_true.mpr hall)⟩
  · obtain ⟨p, hp, hwake⟩ : ∃ p ∈ ts, wake p ≠ none := by simpa using hall
    obtain ⟨p', hp'⟩ := Option.ne_none_iff_exists'.mp hwake
    obtain ⟨i, hi⟩ := List.getElem?_of_mem hp
    exact ⟨some i, ts.set i p', by simp [signal, hi, hp']⟩

/-- What waking does not change is as frequent as before. -/
theorem Signalled.countP_eq (h : Signalled wake ts ts') (q : P → Bool)
    (hq : ∀ p p', wake p = some p' → q p' = q p) : ts'.countP q = ts.countP q := by
  cases h with
  | lost => rfl
  | woken hp hw => exact countP_set_eq hp (hq _ _ hw)

/-- A signal puts no thread to sleep. -/
theorem Signalled.countP_le (h : Signalled wake ts ts') (q : P → Bool)
    (hq : ∀ p p', wake p = some p' → q p' = true) : ts.countP q ≤ ts'.countP q := by
  cases h with
  | lost => exact Nat.le_refl _
  | @woken i p p' hp hw =>
    have hset := countP_set_add q p' hp
    rw [hq _ _ hw, if_pos rfl] at hset
    split at hset <;> omega

/-- **No signal is lost on a sleeping group.**  If each thread of kind `live` is awake or
    waits, then behind a signal one is awake. -/
theorem Signalled.exists_awake (h : Signalled wake ts ts') (live awake : P → Bool)
    (hcases : ∀ p, live p = true → wake p = none → awake p = true)
    (hwoken : ∀ p p', wake p = some p' → awake p' = true) (hlive : 0 < ts.countP live) :
    0 < ts'.countP awake := by
  cases h with
  | lost hnone =>
    obtain ⟨p, hp, hlive⟩ := List.countP_pos_iff.mp hlive
    exact List.countP_pos_iff.mpr ⟨p, hp, hcases p hlive (hnone p hp)⟩
  | woken hp hw =>
    obtain ⟨hi, -⟩ := List.getElem?_eq_some_iff.mp hp
    exact List.countP_pos_iff.mpr ⟨_, List.mem_set hi _, hwoken _ _ hw⟩

end MyCeph.Lib
