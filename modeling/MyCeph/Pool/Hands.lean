import Mathlib.Logic.Function.Basic
import MyCeph.Pool.Queue

namespace MyCeph.Pool

open Lib

/-!
# What the workers have in hand

For those who use the pool it is a queue, and workers of which each has at most one task in hand:
one that it has taken from the queue, and then one whose function it is inside of.  `HandStep`
lists what a step of the pool does to that (`handStep_of_step`); all else that threads do to each
other changes nothing about it.
-/

/-- The task in hand, and whether its function has been called. -/
def Worker.hand : Worker → Option (Task × Bool)
  | .holds task => some (task, false)
  | .running task => some (task, true)
  | _ => none

/-- What worker `i` has in hand. -/
def State.hand (s : State) (i : ℕ) : Option (Task × Bool) := s.workers[i]?.bind Worker.hand

/-- What a step does to the queue and to the hands. -/
inductive HandStep (s : State) : Action → State → Prop where
  | keeps {a : Action} {s' : State} (hhand : s'.hand = s.hand) (hadded : s'.added = s.added)
      (htaken : s'.taken = s.taken) : HandStep s a s'
  | adds {j : ℕ} {task : Task} {woken : Option ℕ} {s' : State}
      (hpc : s.producers[j]? = some (.atLock task) ∨ s.producers[j]? = some (.signalled task))
      (hproducers : s'.producers = s.producers.set j .idle) (hhand : s'.hand = s.hand)
      (hadded : s'.added = s.added ++ [task]) (htaken : s'.taken = s.taken) :
      HandStep s (.producer j woken) s'
  | takes {i : ℕ} {woken : Option ℕ} {s' : State} (hempty : s.hand i = none)
      (hsome : s.queueSize ≠ 0) (hhand : s'.hand = Function.update s.hand i (some (s.front, false)))
      (hadded : s'.added = s.added) (htaken : s'.taken = s.taken ++ [s.front]) :
      HandStep s (.worker i woken) s'
  | starts {i : ℕ} {task : Task} {woken : Option ℕ} {s' : State}
      (hholds : s.workers[i]? = some (.holds task))
      (hhand : s'.hand = Function.update s.hand i (some (task, true)))
      (hadded : s'.added = s.added) (htaken : s'.taken = s.taken) :
      HandStep s (.worker i woken) s'
  | ends {i : ℕ} {task : Task} {woken : Option ℕ} {s' : State}
      (hruns : s.workers[i]? = some (.running task))
      (hhand : s'.hand = Function.update s.hand i none)
      (hadded : s'.added = s.added) (htaken : s'.taken = s.taken) :
      HandStep s (.worker i woken) s'

variable {s s' : State} {a : Action} {i : ℕ} {w w' : Worker}

theorem hand_eq (h : s.workers[i]? = some w) : s.hand i = w.hand := by
  unfold State.hand
  rw [h]
  rfl

/-- One worker moves. -/
theorem hand_set {x : Option (Task × Bool)} (h : s.workers[i]? = some w)
    (hset : s'.workers = s.workers.set i w') (hhand : w'.hand = x) :
    s'.hand = Function.update s.hand i x := by
  subst hhand
  obtain ⟨hi, -⟩ := List.getElem?_eq_some_iff.mp h
  ext1 k
  unfold State.hand
  rw [hset, List.getElem?_set, Function.update_apply]
  by_cases hki : k = i
  · subst hki
    simp [hi]
  · rw [if_neg (Ne.symm hki), if_neg hki]

/-- A move that does not concern the hand. -/
theorem hand_move (h : s.workers[i]? = some w) (hset : s'.workers = s.workers.set i w')
    (hhand : w'.hand = w.hand) : s'.hand = s.hand := by
  rw [hand_set h hset hhand, ← hand_eq h, Function.update_eq_self]

theorem hand_signal (h : Signalled Worker.wake s.workers s'.workers) : s'.hand = s.hand := by
  generalize hws : s'.workers = ws at h
  cases h with
  | lost _ =>
    unfold State.hand
    rw [hws]
  | woken hp hw =>
    refine hand_move hp hws ?_
    unfold Worker.wake at hw
    split at hw
    · cases hw
      rfl
    · cases hw

/-- New workers have nothing in hand. -/
theorem hand_append {n : ℕ} (h : s'.workers = s.workers ++ List.replicate n .atLock) :
    s'.hand = s.hand := by
  ext1 k
  unfold State.hand
  rw [h]
  by_cases hk : k < s.workers.length
  · rw [List.getElem?_append_left hk]
  · rw [List.getElem?_append_right (Nat.le_of_not_lt hk), List.getElem?_replicate,
      List.getElem?_eq_none (Nat.le_of_not_lt hk)]
    split
    · rfl
    · rfl

/-- A worker that comes to the queue has empty hands. -/
theorem Enters.hand {e : ℤ} (h : Enters s i e) : ∃ w, s.workers[i]? = some w ∧ w.hand = none := by
  cases h with
  | locks hpc => exact ⟨_, hpc, rfl⟩
  | notAsked hpc hexit | stays hpc hexit hlive => exact ⟨_, hpc, rfl⟩

/-- **Step lemma of the hands.** -/
theorem handStep_of_step (hs : PoolStep s a s') : HandStep s a s' := by
  -- Only `take`, `starts` and `ends` change what a worker holds.
  cases hs with
  | create howner hlt => exact .keeps (hand_append (n := 1) rfl) rfl rfl
  | add hpc hroom hopen hsignal => exact .adds hpc rfl (hand_signal hsignal) rfl rfl
  | takeWaits henters hempty hopen =>
    obtain ⟨w, hpc, hhand⟩ := henters.hand
    exact .keeps (hand_move hpc rfl hhand.symm) rfl rfl
  | takeQuits henters hshut =>
    obtain ⟨w, hpc, hhand⟩ := henters.hand
    exact .keeps (hand_move hpc rfl hhand.symm) rfl rfl
  | take henters hsome hopen hsignal =>
    obtain ⟨w, hpc, hhand⟩ := henters.hand
    exact .takes ((hand_eq hpc).trans hhand) hsome (hand_set hpc rfl rfl) rfl rfl
  | leave hpc hexit hlive => exact .keeps (hand_move hpc rfl rfl) rfl rfl
  | starts hpc => exact .starts hpc (hand_set hpc rfl rfl) rfl rfl
  | ends hpc => exact .ends hpc (hand_set hpc rfl rfl) rfl rfl
  | threadExit hpc => exact .keeps (hand_move hpc rfl rfl) rfl rfl
  | @grows liveNum woken m hlive =>
    obtain ⟨n, ids, -, heq⟩ := addThreads_eq liveNum s.slots 0 s
    rw [heq]
    exact .keeps (hand_append rfl) rfl rfl
  | managerSignals m hsignal => exact .keeps (hand_signal hsignal) rfl rfl
  | destroySignals o howner ho hsignal => exact .keeps (hand_signal hsignal) rfl rfl
  | _ => exact .keeps rfl rfl rfl

/-- A worker that holds a task calls its function. -/
theorem hand_starts {task : Task} {woken : Option ℕ} (h : s.workers[i]? = some (.holds task))
    (hs : step s (.worker i woken) = some s') :
    s'.hand = Function.update s.hand i (some (task, true)) ∧ s'.added = s.added ∧
      s'.taken = s.taken := by
  unfold step State.worker at hs
  split at hs
  · cases hs
  · simp only [h] at hs
    cases hs
    exact ⟨hand_set h rfl rfl, rfl, rfl⟩

/-- A worker that comes back from the function has empty hands. -/
theorem hand_ends {task : Task} {woken : Option ℕ} (h : s.workers[i]? = some (.running task))
    (hs : step s (.worker i woken) = some s') :
    s'.hand = Function.update s.hand i none ∧ s'.added = s.added ∧ s'.taken = s.taken := by
  unfold step State.worker at hs
  split at hs
  · cases hs
  · simp only [h] at hs
    cases hs
    exact ⟨hand_set h rfl rfl, rfl, rfl⟩

end MyCeph.Pool
