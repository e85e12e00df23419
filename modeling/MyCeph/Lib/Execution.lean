import Mathlib.Logic.Hydra
import Mathlib.Tactic.Abel
import MyCeph.Lib.System

namespace MyCeph.Lib

/-!
# Infinite executions

An execution takes step after step and never stops, under any schedule.

* `Execution.run` — its states are reached by runs;
* `Execution.settles` — when every step that changes the state lowers a well-founded rank, an
  execution changes it finitely often;
* `cutExpand_set` — components that move one at a time: the multiset of their ranks goes down
  when the rank of one of them does.
-/

open Relation

variable {σ α : Type*} {step : σ → α → Option σ} {s₀ : σ} {st : ℕ → σ} {act : ℕ → α}

/-- The steps `act` lead from `s₀` through the states `st`, without end. -/
structure Execution (step : σ → α → Option σ) (s₀ : σ) (st : ℕ → σ) (act : ℕ → α) : Prop where
  start : st 0 = s₀
  step : ∀ n, step (st n) (act n) = some (st (n + 1))

/-- The first steps of an execution are a run. -/
theorem Execution.run (h : Execution step s₀ st act) (n : ℕ) :
    ∃ tr, Run step s₀ tr (st n) := by
  induction n with
  | zero =>
    rw [h.start]
    exact ⟨[], .start⟩
  | succ n ih =>
    obtain ⟨tr, hrun⟩ := ih
    exact ⟨_, hrun.step (h.step n)⟩

/-- **Rule for executions.**  A step from a state that meets `I` lowers the rank or changes
    nothing. -/
theorem Execution.settles {ρ : Type*} {R : ρ → ρ → Prop} (hR : WellFounded R) (rank : σ → ρ)
    (I : σ → Prop) (hI : ∀ n, I (st n))
    (hstep : ∀ s a s', I s → step s a = some s' → s' = s ∨ R (rank s') (rank s))
    (h : Execution step s₀ st act) : ∃ N, ∀ n, N ≤ n → st n = st N := by
  -- From the least rank on, nothing changes.
  obtain ⟨r, ⟨N, rfl⟩, hmin⟩ := hR.has_min (Set.range fun n => rank (st n)) ⟨_, 0, rfl⟩
  refine ⟨N, fun n hn => ?_⟩
  induction n, hn using Nat.le_induction with
  | base => rfl
  | succ n hn ih =>
    rcases hstep (st n) (act n) (st (n + 1)) (hI n) (h.step n) with heq | hlt
    · rw [heq, ih]
    · rw [ih] at hlt
      exact absurd hlt (hmin _ ⟨n + 1, rfl⟩)

/-- Where every step lowers the rank there is no execution. -/
theorem Execution.none {ρ : Type*} {R : ρ → ρ → Prop} (hR : WellFounded R) (rank : σ → ρ)
    (I : σ → Prop) (hI : ∀ n, I (st n))
    (hstep : ∀ s a s', I s → step s a = some s' → R (rank s') (rank s)) :
    ¬ Execution step s₀ st act := by
  intro h
  obtain ⟨N, hN⟩ := h.settles hR rank I hI fun s a s' hs hss => .inr (hstep s a s' hs hss)
  have hlt := hstep _ _ _ (hI N) (h.step N)
  rw [hN (N + 1) (Nat.le_succ N)] at hlt
  exact hR.irrefl.irrefl _ hlt

/-- One component moves down. -/
theorem cutExpand_set {ρ : Type*} {R : ρ → ρ → Prop} {l : List ρ} {j : ℕ} {a b : ρ}
    (h : l[j]? = some a) (hlt : R b a) :
    CutExpand R (l.set j b : Multiset ρ) (l : Multiset ρ) := by
  refine ⟨{b}, a, fun a' ha' => ?_, ?_⟩
  · rw [Multiset.mem_singleton.mp ha']
    exact hlt
  · induction l generalizing j with
    | nil => cases h
    | cons c l ih =>
      cases j with
      | zero =>
        obtain rfl : c = a := by simpa using h
        simp only [List.set_cons_zero, ← Multiset.cons_coe, ← Multiset.singleton_add]
        abel
      | succ j =>
        have ih' := ih (j := j) (by simpa using h)
        simp only [List.set_cons_succ, ← Multiset.cons_coe, ← Multiset.singleton_add, add_assoc,
          ih']

end MyCeph.Lib
