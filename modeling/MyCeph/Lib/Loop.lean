import Mathlib.Tactic.Common

namespace MyCeph.Lib

/-!
# Fuelled loops over `Except`

A C loop becomes `loop timeout body`, where one pass of `body` either goes round
again with a new state or leaves the loop with a result, and where an error (an
undefined read, say) stops everything.  The fuel bounds the number of passes; a
loop that uses it up in state `s` ends in the error `timeout s`.

The rules the developments below use:

* `loop_ok` — what the first pass of a successful loop did;
* `loop_rule` and `loop_rule_error` — the invariant rule, for the result of a successful
  loop and for the error of a loop that stops short;
* `loop_agree_or` — two loops that agree pass by pass, until the first of them
  has done something (`Bs`) that shows in its result (`Bw`);
* `loop_project` — a loop on a part of the state that follows another loop pass by pass;
* `loop_agree_until` — the same two loops, with the state where they part;
* `loop_related` — two loops whose passes lead to related states end in the same way;
* `loop_simulates` — two loops whose passes are alike end alike, where results and errors
  may be related in any way (`Outcomes`);
* `loop_mono` — more fuel, and a body that succeeds more often, give the same result;
* `loop_terminates` — a loop whose passes go down along a well-founded relation succeeds;
* `loop_diverges` — a loop whose passes all go round uses up whatever fuel it gets;
* `Yields` — the loop succeeds with this result for some fuel, with the rules that
  move it along one pass;
* `forLoop_rule` — the invariant rule of a counted loop, which always ends.
-/

variable {σ ω ε : Type*}

/-- Where one pass of a loop body leads. -/
inductive Next (σ ω : Type*) where
  | again (s : σ)
  | exit (w : ω)
deriving DecidableEq

/-- Apply a function to the state, or to the result. -/
def Next.map {σ' ω' : Type*} (g : σ → σ') (gw : ω → ω') : Next σ ω → Next σ' ω'
  | .again s => .again (g s)
  | .exit w => .exit (gw w)

/-- Run `body` until it exits, at most `fuel` times. -/
def loop (timeout : σ → ε) (body : σ → Except ε (Next σ ω)) : ℕ → σ → Except ε ω
  | 0, s => .error (timeout s)
  | n + 1, s =>
    match body s with
    | .error e => .error e
    | .ok (.exit w) => .ok w
    | .ok (.again s') => loop timeout body n s'

variable {t : σ → ε} {body body' : σ → Except ε (Next σ ω)}

/-- A pass that goes round uses up one unit of fuel. -/
theorem loop_again {n : ℕ} {s s' : σ} (h : body s = .ok (.again s')) :
    loop t body (n + 1) s = loop t body n s' := by
  simp only [loop, h]

/-- A pass that leaves ends the loop. -/
theorem loop_exit {n : ℕ} {s : σ} {w : ω} (h : body s = .ok (.exit w)) :
    loop t body (n + 1) s = .ok w := by
  simp only [loop, h]

/-- **First pass.**  A loop that succeeds either left at once or went round and
    succeeded from the next state with one unit of fuel less. -/
theorem loop_ok {n : ℕ} {s : σ} {w : ω} (h : loop t body n s = .ok w) :
    ∃ m, n = m + 1 ∧ (body s = .ok (.exit w) ∨
      ∃ s', body s = .ok (.again s') ∧ loop t body m s' = .ok w) := by
  cases n with
  | zero => simp [loop] at h
  | succ m =>
    refine ⟨m, rfl, ?_⟩
    cases hb : body s with
    | error e => simp [loop, hb] at h
    | ok nx =>
      cases nx with
      | exit w' =>
        rw [loop_exit hb] at h
        cases h
        exact Or.inl rfl
      | again s' =>
        rw [loop_again hb] at h
        exact Or.inr ⟨s', rfl, h⟩

/-- **Invariant rule.**  An invariant kept by every pass that goes round again, and
    that gives `Q` of the result on the pass that leaves, gives `Q` of the result of
    the whole loop. -/
theorem loop_rule (I : σ → Prop) (Q : ω → Prop)
    (hagain : ∀ s s', I s → body s = .ok (.again s') → I s')
    (hexit : ∀ s w, I s → body s = .ok (.exit w) → Q w) :
    ∀ {n : ℕ} {s : σ} {w : ω}, I s → loop t body n s = .ok w → Q w := by
  intro n
  induction n with
  | zero => intro s w _ h; simp [loop] at h
  | succ n ih =>
    intro s w hI h
    obtain ⟨m, hm, hb | ⟨s', hb, h'⟩⟩ := loop_ok h
    · exact hexit s w hI hb
    · obtain rfl : n = m := by omega
      exact ih (hagain s s' hI hb) h'

/-- **Invariant rule for errors.**  An invariant kept by every pass that goes round again,
    and that gives `Q` of the error when a pass fails or the fuel runs out, gives `Q` of
    the error of the whole loop. -/
theorem loop_rule_error (I : σ → Prop) (Q : ε → Prop)
    (hagain : ∀ s s', I s → body s = .ok (.again s') → I s')
    (herror : ∀ s e, I s → body s = .error e → Q e) (htimeout : ∀ s, I s → Q (t s)) :
    ∀ {n : ℕ} {s : σ} {e : ε}, I s → loop t body n s = .error e → Q e := by
  intro n
  induction n with
  | zero =>
    intro s e hI h
    cases h
    exact htimeout s hI
  | succ n ih =>
    intro s e hI h
    cases hb : body s with
    | error e' =>
      simp only [loop, hb, Except.error.injEq] at h
      exact h ▸ herror s e' hI hb
    | ok nx =>
      cases nx with
      | exit w => rw [loop_exit hb] at h; cases h
      | again s' =>
        rw [loop_again hb] at h
        exact ih (hagain s s' hI hb) h

/-- **Agreement rule.**  `body'` does what `body` does on every pass, unless that pass
    brings the first loop into a state where `Bs` holds.  `Bs` is never lost again
    and shows as `Bw` in the result.  Then the loops succeed with the same result, or
    the first one ends in `Bw`. -/
theorem loop_agree_or (I Bs : σ → Prop) (Bw : ω → Prop)
    (hinv : ∀ s s', I s → body s = .ok (.again s') → I s')
    (hagain : ∀ s s', I s → body s = .ok (.again s') → Bs s' ∨ body' s = .ok (.again s'))
    (hexit : ∀ s w, I s → body s = .ok (.exit w) → Bw w ∨ body' s = .ok (.exit w))
    (hkeep : ∀ s s', I s → Bs s → body s = .ok (.again s') → Bs s')
    (hshow : ∀ s w, I s → Bs s → body s = .ok (.exit w) → Bw w) :
    ∀ {n : ℕ} {s : σ} {w : ω}, I s → loop t body n s = .ok w →
      Bw w ∨ loop t body' n s = .ok w := by
  intro n
  induction n with
  | zero => intro s w _ h; simp [loop] at h
  | succ n ih =>
    intro s w hI h
    obtain ⟨m, hm, hb | ⟨s', hb, h'⟩⟩ := loop_ok h
    · rcases hexit s w hI hb with hw | hb'
      · exact Or.inl hw
      · exact Or.inr (loop_exit hb')
    · obtain rfl : n = m := by omega
      have hI' := hinv s s' hI hb
      -- From the first pass that differs on, the run stays on the bad side.
      rcases hagain s s' hI hb with hbad | hb'
      · left
        refine loop_rule (fun s => I s ∧ Bs s) Bw ?_ ?_ ⟨hI', hbad⟩ h'
        · intro u u' hu hbu
          exact ⟨hinv u u' hu.1 hbu, hkeep u u' hu.1 hu.2 hbu⟩
        · intro u v hu hbu
          exact hshow u v hu.1 hu.2 hbu
      · rw [loop_again hb']
        exact ih hI' h'

/-- **Parting rule.**  `body'` does what `body` does on every pass, unless that pass brings the
    first loop into a state where `Bs` holds.  Then the loops give the same result, or there is
    a state `u` both go through from which the first goes on to such a state. -/
theorem loop_agree_until (I Bs : σ → Prop)
    (hinv : ∀ s s', I s → body s = .ok (.again s') → I s')
    (hagain : ∀ s s', I s → body s = .ok (.again s') → Bs s' ∨ body' s = .ok (.again s'))
    (hexit : ∀ s w, I s → body s = .ok (.exit w) → body' s = .ok (.exit w)) :
    ∀ {n : ℕ} {s : σ} {w : ω}, I s → loop t body n s = .ok w →
      loop t body' n s = .ok w ∨ ∃ u u' m, I u ∧ body u = .ok (.again u') ∧ Bs u' ∧
        loop t body m u' = .ok w ∧ loop t body' n s = loop t body' (m + 1) u := by
  intro n
  induction n with
  | zero => intro s w _ h; simp [loop] at h
  | succ n ih =>
    intro s w hI h
    obtain ⟨m, hm, hb | ⟨s', hb, h'⟩⟩ := loop_ok h
    · exact Or.inl (loop_exit (hexit s w hI hb))
    · obtain rfl : n = m := by omega
      rcases hagain s s' hI hb with hbad | hb'
      · exact Or.inr ⟨s, s', n, hI, hb, hbad, h', rfl⟩
      · rw [loop_again hb']
        exact ih (hinv s s' hI hb) h'

/-- **Projection rule.**  When each pass of `body'` does on the image of the state what `body`
    does on the state, the loops do so as well. -/
theorem loop_project {σ' ω' ε' : Type*} {t' : σ' → ε'} {body' : σ' → Except ε' (Next σ' ω')}
    (g : σ → σ') (gw : ω → ω') (I : σ → Prop)
    (hinv : ∀ s s', I s → body s = .ok (.again s') → I s')
    (hpass : ∀ s nx, I s → body s = .ok nx → body' (g s) = .ok (nx.map g gw)) :
    ∀ {n : ℕ} {s : σ} {w : ω}, I s → loop t body n s = .ok w →
      loop t' body' n (g s) = .ok (gw w) := by
  intro n
  induction n with
  | zero => intro s w _ h; simp [loop] at h
  | succ n ih =>
    intro s w hI h
    obtain ⟨m, hm, hb | ⟨s', hb, h'⟩⟩ := loop_ok h
    · exact loop_exit (hpass s _ hI hb)
    · obtain rfl : n = m := by omega
      rw [loop_again (hpass s _ hI hb)]
      exact ih (hinv s s' hI hb) h'

/-- The two passes fail or leave with the same outcome, or go round with related states. -/
inductive Passes {σ' : Type*} (R : σ → σ' → Prop) :
    Except ε (Next σ ω) → Except ε (Next σ' ω) → Prop where
  | error (e : ε) : Passes R (.error e) (.error e)
  | exit (w : ω) : Passes R (.ok (.exit w)) (.ok (.exit w))
  | again {s : σ} {s' : σ'} (h : R s s') : Passes R (.ok (.again s)) (.ok (.again s'))

/-- **Simulation rule.**  Loops whose passes are related, from related states, end in the same
    way. -/
theorem loop_related {σ' : Type*} {t' : σ' → ε} {body' : σ' → Except ε (Next σ' ω)}
    (R : σ → σ' → Prop) (htimeout : ∀ s s', R s s' → t s = t' s')
    (hpass : ∀ s s', R s s' → Passes R (body s) (body' s')) :
    ∀ {n : ℕ} {s : σ} {s' : σ'}, R s s' → loop t body n s = loop t' body' n s' := by
  intro n
  induction n with
  | zero =>
    intro s s' h
    exact congrArg Except.error (htimeout s s' h)
  | succ n ih =>
    intro s s' h
    have hp := hpass s s' h
    unfold loop
    generalize body s = x at hp ⊢
    generalize body' s' = x' at hp ⊢
    cases hp with
    | error e => rfl
    | exit w => rfl
    | again h => exact ih h

/-- Two outcomes are alike: both fail, with errors related by `E`, or both succeed, with
    results related by `Q`. -/
inductive Outcomes {ε' α α' : Type*} (E : ε → ε' → Prop) (Q : α → α' → Prop) :
    Except ε α → Except ε' α' → Prop where
  | error {e : ε} {e' : ε'} (h : E e e') : Outcomes E Q (.error e) (.error e')
  | ok {a : α} {a' : α'} (h : Q a a') : Outcomes E Q (.ok a) (.ok a')

/-- Two passes are alike: both go round, to related states, or both leave, with related
    results. -/
inductive Nexts {σ' ω' : Type*} (R : σ → σ' → Prop) (Q : ω → ω' → Prop) :
    Next σ ω → Next σ' ω' → Prop where
  | again {s : σ} {s' : σ'} (h : R s s') : Nexts R Q (.again s) (.again s')
  | exit {w : ω} {w' : ω'} (h : Q w w') : Nexts R Q (.exit w) (.exit w')

/-- Outcomes that are alike are so by every coarser relation. -/
theorem Outcomes.mono {ε' α α' : Type*} {E E' : ε → ε' → Prop} {Q Q' : α → α' → Prop}
    {x : Except ε α} {x' : Except ε' α'} (h : Outcomes E Q x x') (hE : ∀ e e', E e e' → E' e e')
    (hQ : ∀ a a', Q a a' → Q' a a') : Outcomes E' Q' x x' := by
  cases h with
  | error he => exact .error (hE _ _ he)
  | ok ha => exact .ok (hQ _ _ ha)

/-- **Simulation rule**, for loops that need not end with the same value: when the passes from
    related states are alike, so are the loops. -/
theorem loop_simulates {σ' ω' ε' : Type*} {t' : σ' → ε'} {body' : σ' → Except ε' (Next σ' ω')}
    (R : σ → σ' → Prop) (E : ε → ε' → Prop) (Q : ω → ω' → Prop)
    (htimeout : ∀ s s', R s s' → E (t s) (t' s'))
    (hpass : ∀ s s', R s s' → Outcomes E (Nexts R Q) (body s) (body' s')) :
    ∀ {n : ℕ} {s : σ} {s' : σ'}, R s s' → Outcomes E Q (loop t body n s) (loop t' body' n s') := by
  intro n
  induction n with
  | zero =>
    intro s s' h
    exact .error (htimeout s s' h)
  | succ n ih =>
    intro s s' h
    have hp := hpass s s' h
    unfold loop
    generalize body s = x at hp ⊢
    generalize body' s' = x' at hp ⊢
    cases hp with
    | error he => exact .error he
    | ok hn =>
      cases hn with
      | exit hw => exact .ok hw
      | again hs => exact ih hs

/-- **Fuel.**  A loop that succeeds does so with more fuel, and with a body that succeeds
    whenever the first one does. -/
theorem loop_mono (hbody : ∀ s nx, body s = .ok nx → body' s = .ok nx) {n n' : ℕ} (hle : n ≤ n')
    {s : σ} {w : ω} (h : loop t body n s = .ok w) : loop t body' n' s = .ok w := by
  induction n generalizing n' s with
  | zero => simp [loop] at h
  | succ n ih =>
    obtain ⟨k, rfl⟩ : ∃ k, n' = k + 1 := ⟨n' - 1, by omega⟩
    obtain ⟨m, hm, hb | ⟨s', hb, h'⟩⟩ := loop_ok h
    · exact loop_exit (hbody s _ hb)
    · obtain rfl : n = m := by omega
      rw [loop_again (hbody s _ hb)]
      exact ih (by omega) h'

/-- **Termination rule.**  When each pass succeeds for large `k`, keeps the invariant and goes
    down along a well-founded relation, the loop over `body k` succeeds for large `k`, always with
    the same result. -/
theorem loop_terminates {body : ℕ → σ → Except ε (Next σ ω)} {R : σ → σ → Prop}
    (hR : WellFounded R) (I : σ → Prop)
    (hpass : ∀ s, I s → ∃ n nx, (∀ k, n ≤ k → body k s = .ok nx) ∧
      ∀ s', nx = .again s' → I s' ∧ R s' s) (s : σ) (hI : I s) :
    ∃ n w, ∀ k j, n ≤ k → n ≤ j → loop t (body k) j s = .ok w := by
  -- The measure goes down with every pass, whatever the fuel of the body.
  induction s using hR.induction with
  | _ s ih =>
    obtain ⟨n, nx, hbody, hdown⟩ := hpass s hI
    cases nx with
    | exit w =>
      refine ⟨n + 1, w, fun k j hk hj => ?_⟩
      obtain ⟨j, rfl⟩ : ∃ i, j = i + 1 := ⟨j - 1, by omega⟩
      exact loop_exit (hbody k (by omega))
    | again s' =>
      obtain ⟨hI', hlt⟩ := hdown s' rfl
      obtain ⟨m, w, hloop⟩ := ih s' hlt hI'
      refine ⟨max n m + 1, w, fun k j hk hj => ?_⟩
      obtain ⟨j, rfl⟩ : ∃ i, j = i + 1 := ⟨j - 1, by omega⟩
      rw [loop_again (hbody k (by omega))]
      exact hloop k j (by omega) (by omega)

/-- **Divergence rule.**  When every pass from the invariant goes round to the invariant again,
    the loop ends with its fuel, however much that is. -/
theorem loop_diverges (I : σ → Prop) (hpass : ∀ s, I s → ∃ s', body s = .ok (.again s') ∧ I s')
    (n : ℕ) {s : σ} (h : I s) : ∃ s', I s' ∧ loop t body n s = .error (t s') := by
  induction n generalizing s with
  | zero => exact ⟨s, h, rfl⟩
  | succ n ih =>
    obtain ⟨s', hb, h'⟩ := hpass s h
    rw [loop_again hb]
    exact ih h'

/-- Reading a result off an evaluated computation. -/
theorem ok_of_toOption_map {α β : Type*} {x : Except ε α} {g : α → β} {y : β}
    (h : x.toOption.map g = some y) : ∃ a, x = .ok a ∧ g a = y := by
  cases x with
  | error e => simp [Except.toOption] at h
  | ok a => exact ⟨a, rfl, by simpa [Except.toOption] using h⟩

/-- The error of a computation that fails. -/
def errorOf {α : Type*} : Except ε α → Option ε
  | .ok _ => none
  | .error e => some e

/-- Reading an error off an evaluated computation. -/
theorem error_of_errorOf_map {α β : Type*} {x : Except ε α} {g : ε → β} {y : β}
    (h : (errorOf x).map g = some y) : ∃ e, x = .error e ∧ g e = y := by
  cases x with
  | error e => exact ⟨e, rfl, Option.some.inj h⟩
  | ok a => cases h

/-! ### Success with some fuel -/

/-- The loop from `s` succeeds with result `w`, given enough fuel. -/
def Yields (t : σ → ε) (body : σ → Except ε (Next σ ω)) (s : σ) (w : ω) : Prop :=
  ∃ n, loop t body n s = .ok w

/-- Behind a pass that goes round the same result is still to come. -/
theorem Yields.of_again {s s' : σ} {w : ω} (h : Yields t body s w)
    (hb : body s = .ok (.again s')) : Yields t body s' w := by
  obtain ⟨n, hn⟩ := h
  obtain ⟨m, -, hx | ⟨s'', hx, h'⟩⟩ := loop_ok hn
  · rw [hb] at hx; cases hx
  · rw [hb] at hx; cases hx
    exact ⟨m, h'⟩

theorem Yields.of_exit {s : σ} {w w' : ω} (h : Yields t body s w)
    (hb : body s = .ok (.exit w')) : w = w' := by
  obtain ⟨n, hn⟩ := h
  obtain ⟨m, -, hx | ⟨s', hx, -⟩⟩ := loop_ok hn
  · rw [hb] at hx; cases hx; rfl
  · rw [hb] at hx; cases hx

/-- A loop that succeeds has no failing pass. -/
theorem Yields.not_error {s : σ} {w : ω} {e : ε} (h : Yields t body s w) : body s ≠ .error e := by
  intro hb
  obtain ⟨n, hn⟩ := h
  obtain ⟨m, -, hx | ⟨s', hx, -⟩⟩ := loop_ok hn
  all_goals rw [hb] at hx; cases hx

/-! ### Counted loops -/

/-- `for (j = 0; j < n; j++)`: the passes `0` to `n - 1`, up to the first that fails. -/
def forLoop (pass : ℕ → σ → Except ε σ) : ℕ → σ → Except ε σ
  | 0, s => .ok s
  | n + 1, s =>
    match forLoop pass n s with
    | .error e => .error e
    | .ok s' => pass n s'

/-- **Counted loops.**  When every pass succeeds and leads from `I j` to `I (j + 1)`, the loop
    succeeds and leads from `I 0` to `I n`. -/
theorem forLoop_rule {pass : ℕ → σ → Except ε σ} (I : ℕ → σ → Prop) {n : ℕ}
    (hpass : ∀ j < n, ∀ s, I j s → ∃ s', pass j s = .ok s' ∧ I (j + 1) s') {s : σ} (h : I 0 s) :
    ∃ s', forLoop pass n s = .ok s' ∧ I n s' := by
  induction n with
  | zero => exact ⟨s, rfl, h⟩
  | succ n ih =>
    obtain ⟨s', hloop, hI⟩ := ih fun j hj => hpass j (by omega)
    obtain ⟨s'', hn, hI'⟩ := hpass n (Nat.lt_succ_self n) s' hI
    refine ⟨s'', ?_, hI'⟩
    simp only [forLoop, hloop, hn]

end MyCeph.Lib
