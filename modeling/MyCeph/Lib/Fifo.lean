import Mathlib.Tactic.Common

namespace MyCeph.Lib

/-!
# Bounded queues

What a bounded first-in-first-out queue is: the values in it, with what has been added to
it and what has been taken from it.  `Fifo.Exact` says that the values taken, followed by
those in the queue, are the values added, so that each value is taken at most once, in the
order of the additions, and none is lost.  Every step keeps it (`Fifo.Exact.step`).
-/

/-- A queue with its history. -/
structure Fifo (α : Type*) where
  added : List α
  pending : List α
  taken : List α

variable {α : Type*} {q q' : Fifo α} {cap : Int}

/-- The steps of a queue of capacity `cap`. -/
inductive Fifo.Step (cap : Int) (q : Fifo α) : Fifo α → Prop where
  | idle : Step cap q q
  | add (v : α) (hroom : q.pending.length < cap) :
      Step cap q ⟨q.added ++ [v], q.pending ++ [v], q.taken⟩
  | take (v : α) (rest : List α) (hfirst : q.pending = v :: rest) :
      Step cap q ⟨q.added, rest, q.taken ++ [v]⟩

/-- The queue holds exactly what has been added and not yet taken, and has room for it. -/
structure Fifo.Exact (cap : Int) (q : Fifo α) : Prop where
  length_le : q.pending.length ≤ cap
  history : q.taken ++ q.pending = q.added

/-- **Step lemma of a queue.** -/
theorem Fifo.Exact.step (h : q.Exact cap) (hs : Fifo.Step cap q q') : q'.Exact cap := by
  cases hs with
  | idle => exact h
  | add v hroom =>
    constructor
    · simp only [List.length_append, List.length_singleton]
      omega
    · show q.taken ++ (q.pending ++ [v]) = q.added ++ [v]
      rw [← List.append_assoc, h.history]
  | take v rest hfirst =>
    obtain ⟨hlen, hhist⟩ := h
    rw [hfirst] at hlen hhist
    constructor
    · rw [List.length_cons] at hlen
      show (rest.length : Int) ≤ cap
      omega
    · show q.taken ++ [v] ++ rest = q.added
      rw [List.append_assoc]
      exact hhist

end MyCeph.Lib
