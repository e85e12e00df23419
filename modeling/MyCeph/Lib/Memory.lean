import Mathlib.Data.Int.ConditionallyCompleteOrder
import Mathlib.Data.Int.Interval
import Mathlib.Tactic.Linarith
import Mathlib.Tactic.Positivity
import Mathlib.Tactic.Ring

namespace MyCeph.Lib

/-!
# Computations that read a block of memory

`Access β α` computes an `α` from a block of `β`s.  With the result it says which offsets it has
read; an access outside of the block stops it.

* `Touches` — on every block of a length the computation ends, has read the same offsets and
  gives a result with `Q`;
* `Touches.bind`, `Touches.pure`, `readAt_touches` — the rules for its parts;
* `doWhile_touches`, `whileDo_touches` — the rules of loops, whose passes are counted downwards;
* `doWhile_chunks` — a loop that goes through a part of the block chunk by chunk.
-/

universe u

/-- A computation over a block of `β`s. -/
def Access (β : Type*) (α : Type u) := List β → Option (α × Finset ℤ)

variable {β : Type*} {α γ σ : Type u}

instance : Monad (Access β) where
  pure a := fun _ => some (a, ∅)
  bind m f := fun block =>
    match m block with
    | none => none
    | some (a, S) =>
      match f a block with
      | none => none
      | some (b, T) => some (b, S ∪ T)

/-- What it computes. -/
def Access.result (m : Access β α) (block : List β) : Option α := (m block).map Prod.fst

/-- The element at offset `p`. -/
def readAt (p : ℤ) : Access β β := fun block =>
  if p < 0 then none else block[p.toNat]?.map fun b => (b, {p})

/-- `do body while (cond)`, at most `fuel` passes. -/
def doWhile (body : σ → Access β σ) (cond : σ → Bool) : ℕ → σ → Access β σ
  | 0, _ => fun _ => none
  | fuel + 1, s => do
    let s ← body s
    if cond s then doWhile body cond fuel s else pure s

/-- `while (cond) body`. -/
def whileDo (body : σ → Access β σ) (cond : σ → Bool) (fuel : ℕ) (s : σ) : Access β σ :=
  if cond s then doWhile body cond fuel s else pure s

/-- **Which elements are read.**  On every block of `n` elements the computation ends with a result
    for which `Q` holds, and has read those at `S`. -/
def Touches (n : ℕ) (m : Access β α) (S : Finset ℤ) (Q : α → Prop) : Prop :=
  ∀ block : List β, block.length = n → ∃ a, m block = some (a, S) ∧ Q a

variable {n : ℕ} {m : Access β α} {f : α → Access β γ} {S T : Finset ℤ} {Q Q' : α → Prop}
  {R : γ → Prop}

theorem Touches.pure {a : α} (h : Q a) : Touches n (Pure.pure a : Access β α) ∅ Q := by
  intro block _
  exact ⟨a, rfl, h⟩

/-- One computation behind another reads what both read. -/
theorem Touches.bind (hm : Touches n m S Q) (hf : ∀ a, Q a → Touches n (f a) T R) :
    Touches n (m >>= f) (S ∪ T) R := by
  intro block hn
  obtain ⟨a, ha, hQ⟩ := hm block hn
  obtain ⟨b, hb, hR⟩ := hf a hQ block hn
  refine ⟨b, ?_, hR⟩
  change (match m block with | none => none | some (a, S) => _) = _
  rw [ha]
  dsimp only
  rw [hb]

theorem Touches.mono (h : Touches n m S Q) (hST : S = T) (hQ : ∀ a, Q a → Q' a) :
    Touches n m T Q' := by
  intro block hn
  obtain ⟨a, ha, hQa⟩ := h block hn
  exact ⟨a, hST ▸ ha, hQ a hQa⟩

/-- The offsets, as a set given in another way. -/
theorem Touches.congr (h : Touches n m S Q) (hST : ∀ i, i ∈ S ↔ i ∈ T) : Touches n m T Q :=
  h.mono (Finset.ext hST) fun _ hQ => hQ

theorem Access.result_pure (a : α) (block : List β) : (pure a : Access β α).result block = some a :=
  rfl

/-- The result of the first part is what the second part goes on with. -/
theorem Access.result_bind (m : Access β α) (f : α → Access β γ) (block : List β) :
    (m >>= f).result block = (m.result block).bind fun a => (f a).result block := by
  change Option.map _ (match m block with | none => none | some (a, S) => _) = _
  unfold Access.result
  cases m block with
  | none => rfl
  | some p =>
    obtain ⟨a, S⟩ := p
    change Option.map _ (match f a block with | none => none | some (b, T) => _) = _
    cases hf : f a block <;> simp [hf]

/-- A computation that touches its offsets has a result. -/
theorem Touches.exists_result (h : Touches n m S Q) {block : List β} (hn : block.length = n) :
    ∃ a, m.result block = some a ∧ Q a := by
  obtain ⟨a, ha, hQ⟩ := h block hn
  refine ⟨a, ?_, hQ⟩
  unfold Access.result
  rw [ha, Option.map_some]

/-- What is read is the element there. -/
theorem readAt_result {block : List β} {p : ℤ} (h0 : 0 ≤ p) :
    (readAt p).result block = block[p.toNat]? := by
  unfold readAt Access.result
  dsimp only
  rw [if_neg (by omega), Option.map_map]
  cases block[p.toNat]? <;> rfl

/-- A read inside of the block. -/
theorem readAt_touches {p : ℤ} (h0 : 0 ≤ p) (hn : p < n) :
    Touches n (readAt p : Access β β) {p} fun _ => True := by
  intro block hlen
  have hlt : p.toNat < block.length := by omega
  refine ⟨block[p.toNat], ?_, trivial⟩
  unfold readAt
  rw [if_neg (by omega), List.getElem?_eq_getElem hlt, Option.map_some]

/-- **Loop rule.**  `I k` holds when `k` passes are left, `S k` is what the next of them reads and
    `T k` what all of them read. -/
theorem doWhile_touches {body : σ → Access β σ} {cond : σ → Bool} (I : ℕ → σ → Prop)
    (S T : ℕ → Finset ℤ) (hT : ∀ k, T (k + 1) = S (k + 1) ∪ T k) (hT0 : T 0 = ∅)
    (hbody : ∀ k s, I (k + 1) s →
      Touches n (body s) (S (k + 1)) fun s' => I k s' ∧ (cond s' = true ↔ 0 < k)) :
    ∀ {k fuel : ℕ} {s : σ}, 0 < k → k ≤ fuel → I k s →
      Touches n (doWhile body cond fuel s) (T k) (I 0) := by
  intro k
  induction k with
  | zero => intro fuel s hpos; exact absurd hpos (lt_irrefl 0)
  | succ k ih =>
    intro fuel s _ hfuel hI
    obtain ⟨fuel, rfl⟩ : ∃ m, fuel = m + 1 := ⟨fuel - 1, by omega⟩
    rw [hT]
    apply Touches.bind (hbody k s hI)
    rintro s' ⟨hI', hcond⟩
    -- After the last pass the condition fails, before that it holds.
    rcases Nat.eq_zero_or_pos k with rfl | hk
    · rw [if_neg (by simp [hcond]), hT0]
      exact Touches.pure hI'
    · rw [if_pos (hcond.mpr hk)]
      exact ih hk (by omega) hI'

/-- **Rule of loops that test first**: `k` passes are to come, and `T k` is what they read. -/
theorem whileDo_touches {body : σ → Access β σ} {cond : σ → Bool} (I : ℕ → σ → Prop)
    (S T : ℕ → Finset ℤ) (hT : ∀ k, T (k + 1) = S (k + 1) ∪ T k) (hT0 : T 0 = ∅)
    (hbody : ∀ k s, I (k + 1) s →
      Touches n (body s) (S (k + 1)) fun s' => I k s' ∧ (cond s' = true ↔ 0 < k))
    {k fuel : ℕ} {s : σ} (hcond : cond s = true ↔ 0 < k) (hfuel : k ≤ fuel) (hI : I k s) :
    Touches n (whileDo body cond fuel s) (T k) (I 0) := by
  unfold whileDo
  rcases Nat.eq_zero_or_pos k with rfl | hk
  · rw [if_neg (by simp [hcond]), hT0]
    exact Touches.pure hI
  · rw [if_pos (hcond.mpr hk)]
    exact doWhile_touches I S T hT hT0 hbody hk hfuel hI

/-- A loop that reads `c` elements in each pass, one chunk after the other. -/
theorem doWhile_chunks {body : σ → Access β σ} {cond : σ → Bool} (I : ℕ → σ → Prop) (ptr : σ → ℤ)
    (c : ℕ) (hbody : ∀ k s, I (k + 1) s →
      Touches n (body s) (Finset.Ico (ptr s) (ptr s + c)) fun s' =>
        ptr s' = ptr s + c ∧ I k s' ∧ (cond s' = true ↔ 0 < k))
    {k fuel : ℕ} {s : σ} (hk : 0 < k) (hfuel : k ≤ fuel) (hI : I k s) :
    Touches n (doWhile body cond fuel s) (Finset.Ico (ptr s) (ptr s + c * k)) fun s' =>
      ptr s' = ptr s + c * k ∧ I 0 s' := by
  -- The end of the range is fixed, and the passes to come count back from it.
  have hloop : Touches n (doWhile body cond fuel s)
      (Finset.Ico (ptr s + c * k - c * k) (ptr s + c * k)) fun s' =>
        ptr s' + c * (0 : ℕ) = ptr s + c * k ∧ I 0 s' := by
    refine doWhile_touches
      (fun k' s' => ptr s' + c * k' = ptr s + c * k ∧ I k' s')
      (fun k' => Finset.Ico (ptr s + c * k - c * k') (ptr s + c * k - c * k' + c))
      (fun k' => Finset.Ico (ptr s + c * k - c * k') (ptr s + c * k)) ?_ (by simp) ?_ hk hfuel
      ⟨rfl, hI⟩
    · intro k'
      have hpos : (0 : ℤ) ≤ c * k' := by positivity
      rw [show ptr s + c * k - c * (k' + 1 : ℕ) + c = ptr s + c * k - c * k' by push_cast; ring]
      exact (Finset.Ico_union_Ico_eq_Ico (by push_cast; linarith) (by linarith)).symm
    · rintro k' s' ⟨hptr, hI'⟩
      have hstart : ptr s + c * k - c * (k' + 1 : ℕ) = ptr s' := by
        push_cast at hptr ⊢
        linarith
      rw [hstart]
      refine (hbody k' s' hI').mono rfl ?_
      rintro s'' ⟨hptr', hI'', hcond⟩
      refine ⟨⟨?_, hI''⟩, hcond⟩
      push_cast at hptr ⊢
      linarith
  refine hloop.mono (by simp) ?_
  rintro s' ⟨hptr, hI'⟩
  exact ⟨by simpa using hptr, hI'⟩

end MyCeph.Lib
