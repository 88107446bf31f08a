import Mathlib.Tactic

/-!
# Loops that stop

A loop is a body that either leaves the loop with an outcome or goes on from a
new state.  It is run with a number of iterations that it may take; a loop
that is still running after these has no outcome.  An invariant and a measure
that every iteration lowers show that a loop stops, and what holds then.
-/

namespace Loop

variable {σ ο : Type*}

/-- The outcome of a loop that stops within the given iterations. -/
def run (body : σ → ο ⊕ σ) : ℕ → σ → Option ο
  | 0, _ => none
  | fuel + 1, s =>
      match body s with
      | .inl outcome => some outcome
      | .inr s' => run body fuel s'

/-- The rule of total correctness. -/
theorem run_of_invariant
    {body : σ → ο ⊕ σ} (good : σ → Prop) (measure : σ → ℕ) (post : ο → Prop)
    (hstop : ∀ s outcome, good s → body s = .inl outcome → post outcome)
    (hnext : ∀ s s', good s → body s = .inr s' →
      good s' ∧ measure s' < measure s)
    {fuel : ℕ} {s : σ} (hgood : good s) (hfuel : measure s < fuel) :
    ∃ outcome, run body fuel s = some outcome ∧ post outcome := by
  induction fuel generalizing s with
  | zero => exact absurd hfuel (Nat.not_lt_zero _)
  | succ fuel ih =>
      unfold run
      cases hbody : body s with
      | inl outcome => exact ⟨outcome, rfl, hstop s outcome hgood hbody⟩
      | inr s' =>
          obtain ⟨hgood', hlower⟩ := hnext s s' hgood hbody
          exact ih hgood' (by omega)

/-- The condition holds at the head of every iteration. -/
def Each (body : σ → ο ⊕ σ) (condition : σ → Prop) : ℕ → σ → Prop
  | 0, _ => True
  | fuel + 1, s =>
      condition s ∧
        match body s with
        | .inl _ => True
        | .inr s' => Each body condition fuel s'

/-- A property that is lost by exactly those iterations which miss the
condition holds in the end exactly when no iteration misses it. -/
theorem run_iff_each
    {body : σ → ο ⊕ σ} (good property condition : σ → Prop) (post : ο → Prop)
    (hstop : ∀ s outcome, good s → body s = .inl outcome →
      condition s ∧ (post outcome ↔ property s))
    (hnext : ∀ s s', good s → body s = .inr s' →
      good s' ∧ (property s' ↔ property s ∧ condition s))
    {fuel : ℕ} {s : σ} {outcome : ο} (hgood : good s)
    (hrun : run body fuel s = some outcome) :
    post outcome ↔ property s ∧ Each body condition fuel s := by
  induction fuel generalizing s with
  | zero => simp [run] at hrun
  | succ fuel ih =>
      unfold run at hrun
      unfold Each
      cases hbody : body s with
      | inl found =>
          simp only [hbody, Option.some.injEq] at hrun
          subst hrun
          obtain ⟨hcondition, hpost⟩ := hstop s found hgood hbody
          simp only [hpost, hcondition, and_true]
      | inr s' =>
          simp only [hbody] at hrun
          obtain ⟨hgood', hproperty⟩ := hnext s s' hgood hbody
          rw [ih hgood' hrun, hproperty, and_assoc]

end Loop
