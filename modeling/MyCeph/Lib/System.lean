import Mathlib.Tactic.Common

namespace MyCeph.Lib

/-!
# Runs of a system

A system is a step function on states and actions, where `none` says that the action is
not possible.  A run is recorded as the list of steps taken, each with the state it was
taken in, newest first.

* `Run.invariant` — what holds at the start and is kept by every good step holds after
  every run of good steps;
* `Run.since` — what holds after one step of a run and is kept by every good step holds at the
  end of the run;
* `Run.always_iff` — when each step that is not bad keeps a property and each bad one breaks
  it, the property holds all along a run exactly if no step is bad;
* `Run.exists_of_rank` — a run reaches a goal if some step always brings it closer;
* `Run.exists_of_runs` — the same with several steps at a time and any well-founded rank;
* `Run.mono` — a run of a system is one of any system that can do the same steps;
* `Run.simulates` — forward simulation: a run is matched by a run of a second system that takes
  one step for every step with a label and none for the others;
* `Run.refines` — the same without labels, when the second system may also stand still;
* `Run.of_follow` — runs computed by following a list of actions.
-/

variable {σ α : Type*} {step : σ → α → Option σ} {s₀ s s' : σ} {a : α} {tr : List (σ × α)}

/-- `Run step s₀ tr s`: the steps `tr` lead from `s₀` to `s`. -/
inductive Run (step : σ → α → Option σ) (s₀ : σ) : List (σ × α) → σ → Prop where
  | start : Run step s₀ [] s₀
  | step {tr : List (σ × α)} {s s' : σ} {a : α} (h : Run step s₀ tr s)
      (hs : step s a = some s') : Run step s₀ ((s, a) :: tr) s'

/-- **Invariant rule.**  `I` holds of the start and is kept by every step that meets `G`. -/
theorem Run.invariant (I : σ → Prop) (G : σ → α → Prop) (h₀ : I s₀)
    (hstep : ∀ s a s', I s → G s a → step s a = some s' → I s')
    (h : Run step s₀ tr s) (hgood : ∀ p ∈ tr, G p.1 p.2) : I s := by
  induction h with
  | start => exact h₀
  | step h hs ih =>
    have hold := ih fun p hp => hgood p (List.mem_cons_of_mem _ hp)
    exact hstep _ _ _ hold (hgood _ List.mem_cons_self) hs

/-- The invariant rule when every step is good. -/
theorem Run.invariant' (I : σ → Prop) (h₀ : I s₀)
    (hstep : ∀ s a s', I s → step s a = some s' → I s') (h : Run step s₀ tr s) : I s :=
  h.invariant I (fun _ _ => True) h₀ (fun s a s' hI _ => hstep s a s' hI) fun _ _ => trivial

/-- A step of a run is taken in a state that the run has reached. -/
theorem Run.of_mem {p : σ × α} (h : Run step s₀ tr s) (hp : p ∈ tr) :
    (∃ tr', Run step s₀ tr' p.1) ∧ ∃ s', step p.1 p.2 = some s' := by
  induction h with
  | start => cases hp
  | @step tr s s' a h hs ih =>
    rcases List.mem_cons.mp hp with rfl | hp
    · exact ⟨⟨tr, h⟩, s', hs⟩
    · exact ih hp

/-- What no step brings about holds all along a run at whose end it holds. -/
theorem Run.earlier (Q : σ → Prop) (hstep : ∀ s a s', step s a = some s' → Q s' → Q s)
    (h : Run step s₀ tr s) (hend : Q s) : ∀ p ∈ tr, Q p.1 := by
  induction h with
  | start =>
    intro p hp
    cases hp
  | step h hs ih =>
    have hQ := hstep _ _ _ hs hend
    intro p hp
    rcases List.mem_cons.mp hp with rfl | hp
    · exact hQ
    · exact ih hQ p hp

/-- **Rule for what stays.**  `Q` holds after the step `p` of the run and is kept by every step
    that meets `G`. -/
theorem Run.since (Q : σ → Prop) (G : σ → α → Prop) {p : σ × α}
    (hafter : ∀ tr s', Run step s₀ tr p.1 → step p.1 p.2 = some s' → G p.1 p.2 → Q s')
    (hstep : ∀ tr s a s', Run step s₀ tr s → Q s → G s a → step s a = some s' → Q s')
    (h : Run step s₀ tr s) (hgood : ∀ p ∈ tr, G p.1 p.2) (hp : p ∈ tr) : Q s := by
  induction h with
  | start => cases hp
  | @step tr s s' a h hs ih =>
    have hG := hgood _ List.mem_cons_self
    rcases List.mem_cons.mp hp with rfl | hp
    · exact hafter tr s' h hs hG
    · have hQ := ih (fun p hp => hgood p (List.mem_cons_of_mem _ hp)) hp
      exact hstep tr s a s' h hQ hG hs

/-- **Exact rule.**  `P` holds all along a run if and only if none of its steps is in `B`, when
    `B` holds exactly of the steps that break `P`. -/
theorem Run.always_iff (I P : σ → Prop) (G B : σ → α → Prop) (hI₀ : I s₀) (hP₀ : P s₀)
    (hI : ∀ s a s', I s → G s a → step s a = some s' → I s')
    (hP : ∀ s a s', I s → G s a → step s a = some s' → P s → (P s' ↔ ¬ B s a))
    (h : Run step s₀ tr s) (hgood : ∀ p ∈ tr, G p.1 p.2) :
    ((∀ p ∈ tr, P p.1) ∧ P s) ↔ ∀ p ∈ tr, ¬ B p.1 p.2 := by
  induction h with
  | start => simp [hP₀]
  | step h hs ih =>
    have hgood' := fun p hp => hgood p (List.mem_cons_of_mem _ hp)
    have hG := hgood _ List.mem_cons_self
    -- The invariant holds before the last step, which alone is left to be judged.
    have hold := h.invariant I G hI₀ hI hgood'
    specialize ih hgood'
    simp only [List.forall_mem_cons]
    constructor
    · rintro ⟨⟨hPs, hall⟩, hPs'⟩
      exact ⟨(hP _ _ _ hold hG hs hPs).mp hPs', ih.mp ⟨hall, hPs⟩⟩
    · rintro ⟨hnot, hall⟩
      obtain ⟨hbefore, hPs⟩ := ih.mpr hall
      exact ⟨⟨hPs, hbefore⟩, (hP _ _ _ hold hG hs hPs).mpr hnot⟩

/-- Runs one after the other. -/
theorem Run.trans {tr' : List (σ × α)} (h : Run step s₀ tr s) (h' : Run step s tr' s') :
    Run step s₀ (tr' ++ tr) s' := by
  induction h' with
  | start => exact h
  | step _ hs ih => exact ih.step hs

/-- **Rule for a chosen schedule.**  As long as the goal `Q` is not reached some step keeps `I`
    and lowers the rank, so that a run reaches it. -/
theorem Run.exists_of_rank (step : σ → α → Option σ) (I Q : σ → Prop) (rank : σ → ℕ)
    (hstep : ∀ s, I s → ¬ Q s → ∃ a s', step s a = some s' ∧ I s' ∧ rank s' < rank s)
    (h : I s) : ∃ tr s', Run step s tr s' ∧ I s' ∧ Q s' := by
  induction hn : rank s using Nat.strongRecOn generalizing s with
  | ind n ih =>
    by_cases hQ : Q s
    · exact ⟨[], s, .start, h, hQ⟩
    · obtain ⟨a, s₁, hs, hI, hlt⟩ := hstep s h hQ
      obtain ⟨tr, s', hrun, hend⟩ := ih (rank s₁) (hn ▸ hlt) hI rfl
      exact ⟨_, s', (Run.start.step hs).trans hrun, hend⟩

/-- **Rule for a chosen schedule, in several steps.**  As long as the goal `Q` is not reached some
    run keeps `I` and lowers the rank along a well-founded relation. -/
theorem Run.exists_of_runs {ρ : Type*} {R : ρ → ρ → Prop} (hR : WellFounded R)
    (step : σ → α → Option σ) (I Q : σ → Prop) (rank : σ → ρ)
    (hstep : ∀ s, I s → ¬ Q s → ∃ tr s', Run step s tr s' ∧ I s' ∧ R (rank s') (rank s))
    (h : I s) : ∃ tr s', Run step s tr s' ∧ I s' ∧ Q s' := by
  induction hr : rank s using hR.induction generalizing s with
  | _ r ih =>
    by_cases hQ : Q s
    · exact ⟨[], s, .start, h, hQ⟩
    · obtain ⟨tr, s₁, hrun, hI, hlt⟩ := hstep s h hQ
      obtain ⟨tr', s', hrun', hend⟩ := ih (rank s₁) (hr ▸ hlt) hI rfl
      exact ⟨_, s', hrun.trans hrun', hend⟩

/-- A run of a system is one of every system that can do more. -/
theorem Run.mono {step' : σ → α → Option σ}
    (hstep : ∀ s a s', step s a = some s' → step' s a = some s') (h : Run step s₀ tr s) :
    Run step' s₀ tr s := by
  induction h with
  | start => exact .start
  | step _ hs ih => exact ih.step (hstep _ _ _ hs)

/-- **Simulation rule.**  Steps without a label keep the relation to the same state of the second
    system; a step with a label is matched by the step that the label names. -/
theorem Run.simulates {τ β : Type*} {step' : τ → β → Option τ} {t₀ : τ} (R : σ → τ → Prop)
    (label : σ × α → Option β) (h₀ : R s₀ t₀)
    (hsilent : ∀ s a s' t, R s t → step s a = some s' → label (s, a) = none → R s' t)
    (hvisible : ∀ s a s' t b, R s t → step s a = some s' → label (s, a) = some b →
      ∃ t', step' t b = some t' ∧ R s' t')
    (h : Run step s₀ tr s) :
    ∃ tr' t, Run step' t₀ tr' t ∧ tr'.map Prod.snd = tr.filterMap label ∧ R s t := by
  induction h with
  | start => exact ⟨[], t₀, .start, rfl, h₀⟩
  | @step tr s s' a h hs ih =>
    obtain ⟨tr', t, hrun, hlabels, hR⟩ := ih
    cases hlabel : label (s, a) with
    | none =>
      refine ⟨tr', t, hrun, ?_, hsilent s a s' t hR hs hlabel⟩
      rw [List.filterMap_cons_none hlabel]
      exact hlabels
    | some b =>
      obtain ⟨t', hs', hR'⟩ := hvisible s a s' t b hR hs hlabel
      refine ⟨(t, b) :: tr', t', hrun.step hs', ?_, hR'⟩
      rw [List.filterMap_cons_some hlabel, List.map_cons, hlabels]

/-- **Refinement rule.**  Each step keeps the relation to the same state of the second system, or
    is matched by a step of it. -/
theorem Run.refines {τ β : Type*} {step' : τ → β → Option τ} {t₀ : τ} (R : σ → τ → Prop)
    (h₀ : R s₀ t₀)
    (hstep : ∀ s a s' t, R s t → step s a = some s' →
      R s' t ∨ ∃ b t', step' t b = some t' ∧ R s' t')
    (h : Run step s₀ tr s) : ∃ tr' t, Run step' t₀ tr' t ∧ R s t := by
  induction h with
  | start => exact ⟨[], t₀, .start, h₀⟩
  | @step tr s s' a h hs ih =>
    obtain ⟨tr', t, hrun, hR⟩ := ih
    rcases hstep s a s' t hR hs with hR' | ⟨b, t', hs', hR'⟩
    · exact ⟨tr', t, hrun, hR'⟩
    · exact ⟨_, t', hrun.step hs', hR'⟩

/-- Take the actions one after the other, from a run that has taken `tr`. -/
def follow (step : σ → α → Option σ) : List α → List (σ × α) → σ → Option (List (σ × α) × σ)
  | [], tr, s => some (tr, s)
  | a :: as, tr, s =>
    match step s a with
    | none => none
    | some s' => follow step as ((s, a) :: tr) s'

/-- A run, from a list of actions that can be followed. -/
theorem Run.of_follow {as : List α} {tr' : List (σ × α)} (h : Run step s₀ tr s)
    (hf : follow step as tr s = some (tr', s')) : Run step s₀ tr' s' := by
  induction as generalizing tr s with
  | nil => cases hf; exact h
  | cons a as ih =>
    unfold follow at hf
    split at hf
    · simp at hf
    · rename_i s'' hs
      exact ih (h.step hs) hf

end MyCeph.Lib
