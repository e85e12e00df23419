import MyCeph.Crush.FirstnSpec
import MyCeph.Crush.Workers

namespace MyCeph.Crush

open Lib

/-!
# Workers that give up

A worker's search gives up in one of two ways (`givesUp`): its draw is an item at or above
`max_devices` or one of a wrong type that cannot be entered, or the code at `reject:`
finds the tries used up.  Both set `skip_rep`, and nothing after the loops looks at it: the
worker then publishes the item it has at hand and counts a replica.

What a run publishes is therefore right exactly as far as the publishing workers have not
given up (`doWork_publishes`): `skip_rep` records give-ups (`skipRep_eq_any`), and a worker that
has not given up has accepted its item (`Sound`).
-/

variable {H : CrushHash} {glob : Globals} {f : FirstnInfo}

/-! ### Give-ups -/

/-- The code at `reject:` gives up. -/
def Search.exhausted (f : FirstnInfo) (s : Search) (collide : Bool) : Bool :=
  (s.rejected f collide).isNone

/-- The code at `reject:` sets `skip_rep` exactly if the retries are used up. -/
@[simp] theorem Worker.reject_skipRep (w : Worker) (collide : Bool) :
    (w.reject f collide).skipRep = (w.skipRep || w.search.exhausted f collide) := by
  unfold Worker.reject Search.exhausted
  cases w.search.rejected f collide <;> simp

variable {parentR : ℤ} {outpos : ℕ} {sh sh' : Shared} {w w' : Worker}

/-- The item has passed the tests at the draw. -/
structure Judged (f : FirstnInfo) (item : ℤ) : Prop where
  lt_maxDevices : item < f.map.maxDevices
  ofType : OfType f.map item f.type

/-- The item has been accepted by a worker. -/
structure AcceptedItem (H : CrushHash) (glob : Globals) (f : FirstnInfo) (item : ℤ) : Prop where
  judged : Judged f item
  in_service : f.type = 0 → isOut H f.weight glob.weightMax item f.x = false

/-- What is known of worker `k`: `skip_rep` is only set behind the loops, without it the item
    there is an accepted one, and when devices are placed it stays in slot `k`. -/
def Sound (H : CrushHash) (glob : Globals) (f : FirstnInfo) (k : ℕ) (sh : Shared) (w : Worker) :
    Prop :=
  match w.pc with
  | .start | .draw => w.skipRep = false
  | .scan | .writeOut2 | .test => w.skipRep = false ∧ Judged f w.item
  | .callLeaf | .leaf _ | .leafReturn _ => f.type ≠ 0 ∧ w.skipRep = false ∧ Judged f w.item
  | .publish => w.skipRep = false → AcceptedItem H glob f w.item
  | .done => (w.skipRep = false → AcceptedItem H glob f w.item) ∧
      (f.type = 0 → sh.μ.cells f.out k = w.item)
  | .fault _ => True

/-- At the head of the next pass there is nothing to know about the item. -/
theorem Sound.reject {k : ℕ} (hskip : w.skipRep = false) (collide : Bool) :
    Sound H glob f k sh (w.reject f collide) := by
  unfold Worker.reject
  split
  · exact hskip
  · intro h; cases h

/-- **Step lemma of a worker.** -/
theorem Sound.step {k : ℕ} (hwf : f.map.WellFormed) (h : Sound H glob f k sh w)
    (hs : WorkStep H glob f parentR k sh w sh' w') : Sound H glob f k sh' w' := by
  unfold Sound at h
  cases hs with
  | start hpc => rw [hpc] at h; exact h
  | drawFault e hpc hdraw => trivial
  | drawEmpty hpc hdraw => rw [hpc] at h; exact Sound.reject h false
  | drawSkip item hpc hdraw => intro hskip; cases hskip
  | descend item b hpc hdraw =>
    rw [hpc] at h
    unfold Sound
    dsimp only
    rw [hpc]
    exact h
  | candidate item hpc hdraw =>
    rw [hpc] at h
    obtain ⟨-, -, hmax, htype⟩ := drawItem_candidate hdraw
    exact ⟨h, hmax, htype⟩
  | collide hpc hcol => rw [hpc] at h; exact Sound.reject h.1 true
  | noCollide hpc hcol =>
    rw [hpc] at h
    by_cases hrec : f.recurseToLeaf = true
    · by_cases hneg : w.item < 0
      · -- A leaf is only looked for when buckets are placed.
        have htype : f.type ≠ 0 := fun h0 => by
          have := OfType.device hwf (h0 ▸ h.2.ofType)
          omega
        simp only [hrec, hneg, if_true]
        exact ⟨htype, h⟩
      · simp only [hrec, hneg, if_true, if_false]
        exact h
    · simp only [hrec, if_false, Bool.false_eq_true]
      exact h
  | leafFault e μ hpc => trivial
  | leafMove c μ hpc => rcases hpc with hpc | ⟨c', hpc⟩ <;> rw [hpc] at h <;> exact h
  | leafEnd p μ hpc => obtain ⟨c, hpc⟩ := hpc; rw [hpc] at h; exact h
  | noLeafFound p hpc hp => rw [hpc] at h; exact Sound.reject h.2.1 false
  | leafFound p hpc hp => rw [hpc] at h; exact h.2
  | writeOut2 hpc => rw [hpc] at h; exact h
  | out hpc htype hout => rw [hpc] at h; exact Sound.reject h.1 false
  | accept hpc hin => rw [hpc] at h; exact fun _ => ⟨h.2, hin⟩
  | publish hpc => rw [hpc] at h; exact ⟨h, fun _ => Store.write_cells_self _ _ _ _⟩

/-- When devices are placed a worker only writes to its own slot. -/
theorem Sound.cells_eq {k : ℕ} (htype : f.type = 0) (h : Sound H glob f k sh w)
    (hs : WorkStep H glob f parentR k sh w sh' w') (a : ℕ) {j : ℕ} (hj : j ≠ k) :
    sh'.μ.cells a j = sh.μ.cells a j := by
  unfold Sound at h
  cases hs with
  | leafFault e μ hpc | leafMove e μ hpc =>
    rcases hpc with hpc | ⟨c', hpc⟩ <;> rw [hpc] at h <;> exact absurd htype h.1
  | leafEnd p μ hpc => obtain ⟨c, hpc⟩ := hpc; rw [hpc] at h; exact absurd htype h.1
  | writeOut2 hpc => exact sh.μ.write_cells_of_ne _ fun hk => hj hk.2
  | publish hpc => exact sh.μ.write_cells_of_ne _ fun hk => hj hk.2
  | _ => rfl

/-- What is known of the item depends on the own cell only. -/
theorem Sound.frame {k : ℕ} (h : Sound H glob f k sh w)
    (hcell : f.type = 0 → sh'.μ.cells f.out k = sh.μ.cells f.out k) :
    Sound H glob f k sh' w := by
  unfold Sound at h ⊢
  split at h
  case h_10 => exact ⟨h.1, fun htype => (hcell htype).trans (h.2 htype)⟩
  all_goals exact h

/-! ### Runs of the three workers -/

/-- **Run lemma.** -/
theorem sound_of_run (hwf : f.map.WellFormed) {μ : Store} {tr : List (Par × Fin 3)} {s : Par}
    (h : Run (parStep H glob f) (Par.init f μ) tr s) (k : Fin 3) :
    Sound H glob f k s.sh (s.w k) := by
  have hinit : ∀ k : Fin 3, Sound H glob f k (Par.init f μ).sh ((Par.init f μ).w k) :=
    fun _ => rfl
  refine h.invariant' (fun s => ∀ k : Fin 3, Sound H glob f k s.sh (s.w k)) hinit
    (fun s i s' hI hs j => ?_) k
  obtain ⟨w, hstep, hw⟩ := parStep_step hs
  rw [hw]
  -- Worker `i` moves; the others see at most a write to a slot that is not theirs.
  by_cases hj : j = i
  · subst hj
    rw [Function.update_self]
    exact (hI j).step hwf hstep
  · rw [Function.update_of_ne hj]
    exact (hI j).frame fun htype =>
      (hI i).cells_eq htype hstep f.out fun hji => hj (Fin.ext hji)

end MyCeph.Crush
