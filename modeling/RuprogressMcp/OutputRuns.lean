import Mathlib.Tactic

/-!
# Machines that answer every input

A machine takes an input in a state, answers with an output and moves to the
next state.  Two machines that stay related give the same answers.  The
relation may look at the inputs that are still to come, so that an assumption
on the whole input sequence, such as an order between its members, can be
part of it.  What every step preserves holds in the state that a list of
inputs leads to.
-/

namespace Mealy

variable {σ τ ι ο : Type*}

/-- The answers to a list of inputs. -/
def outputs (step : σ → ι → ο × σ) : σ → List ι → List ο
  | _, [] => []
  | s, input :: rest => (step s input).1 :: outputs step (step s input).2 rest

/-- The condition holds of every input in the state that meets it. -/
def Along (step : σ → ι → ο × σ) (good : σ → ι → Prop) : σ → List ι → Prop
  | _, [] => True
  | s, input :: rest => good s input ∧ Along step good (step s input).2 rest

instance decidableAlong
    (step : σ → ι → ο × σ) (good : σ → ι → Prop)
    [∀ s input, Decidable (good s input)] :
    ∀ s inputs, Decidable (Along step good s inputs)
  | _, [] => inferInstanceAs (Decidable True)
  | s, input :: rest =>
      have := decidableAlong step good (step s input).2 rest
      inferInstanceAs
        (Decidable (good s input ∧ Along step good (step s input).2 rest))

/-- The state after a list of inputs. -/
def final (step : σ → ι → ο × σ) : σ → List ι → σ
  | s, [] => s
  | s, input :: rest => final step (step s input).2 rest

theorem final_append
    (step : σ → ι → ο × σ) (s : σ) (first second : List ι) :
    final step s (first ++ second) =
      final step (final step s first) second := by
  induction first generalizing s with
  | nil => rfl
  | cons input rest ih => exact ih (step s input).2

theorem final_invariant
    {step : σ → ι → ο × σ} (good : σ → Prop)
    (hstep : ∀ s input, good s → good (step s input).2)
    {s : σ} (hgood : good s) (inputs : List ι) :
    good (final step s inputs) := by
  induction inputs generalizing s with
  | nil => exact hgood
  | cons input rest ih => exact ih (hstep s input hgood)

theorem outputs_eq_of_simulation
    {left : σ → ι → ο × σ} {right : τ → ι → ο × τ}
    (related : σ → τ → List ι → Prop)
    (hstep : ∀ s t input rest, related s t (input :: rest) →
      (left s input).1 = (right t input).1 ∧
        related (left s input).2 (right t input).2 rest)
    {s : σ} {t : τ} {inputs : List ι} (hrelated : related s t inputs) :
    outputs left s inputs = outputs right t inputs := by
  induction inputs generalizing s t with
  | nil => rfl
  | cons input rest ih =>
      obtain ⟨hanswer, hnext⟩ := hstep s t input rest hrelated
      rw [outputs, outputs, hanswer, ih hnext]

end Mealy
