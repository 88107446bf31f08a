import Mathlib.Tactic

/-!
# Runs of a labelled transition function

A system is a partial step function on states and labels; a label fixes every
choice that the environment makes in the step.  A run is an infinite sequence
of enabled steps, so a finite execution is extended by a label that changes
nothing.  The rules below turn facts about one step into facts about all
states of a run, or about all states after a given one.
-/

namespace Transition

variable {σ ε : Type*}

/-- An infinite sequence of enabled steps from the initial state. -/
structure Run (next : σ → ε → Option σ) (initial : σ) where
  state : ℕ → σ
  label : ℕ → ε
  start : state 0 = initial
  step : ∀ n, next (state n) (label n) = some (state (n + 1))

namespace Run

variable {next : σ → ε → Option σ} {initial : σ}

theorem invariant
    (run : Run next initial) (good : σ → Prop)
    (hinitial : good initial)
    (hstep : ∀ s l s', good s → next s l = some s' → good s') :
    ∀ n, good (run.state n) := by
  intro n
  induction n with
  | zero => rw [run.start]; exact hinitial
  | succ n ih => exact hstep _ _ _ ih (run.step n)

/-- What every step preserves holds in all states after one in which it
holds.  The side condition may be any fact known of all states of the run. -/
theorem stable
    (run : Run next initial) (known good : σ → Prop)
    (hknown : ∀ n, known (run.state n))
    (hstep : ∀ s l s', known s → good s → next s l = some s' → good s')
    {m n : ℕ} (hle : m ≤ n) (hgood : good (run.state m)) :
    good (run.state n) := by
  induction n, hle using Nat.le_induction with
  | base => exact hgood
  | succ n _ ih => exact hstep _ _ _ (hknown n) ih (run.step n)

theorem exists_switch
    (good : ℕ → Prop) {m n : ℕ} (hle : m ≤ n)
    (hnot : ¬ good m) (hgood : good n) :
    ∃ k, m ≤ k ∧ k < n ∧ ¬ good k ∧ good (k + 1) := by
  induction n, hle using Nat.le_induction with
  | base => exact absurd hgood hnot
  | succ n hmn ih =>
      by_cases hn : good n
      · obtain ⟨k, hmk, hkn, hk⟩ := ih hn
        exact ⟨k, hmk, by omega, hk⟩
      · exact ⟨n, hmn, by omega, hn, hgood⟩

end Run

/-! ## Finite executions -/

/-- The state after a list of labels; a disabled label is skipped. -/
def execute (next : σ → ε → Option σ) (s : σ) (labels : List ε) : σ :=
  labels.foldl (fun s l => (next s l).getD s) s

/-- Every label of the list is enabled when its turn comes. -/
def Enabled (next : σ → ε → Option σ) : σ → List ε → Bool
  | _, [] => true
  | s, l :: rest =>
      match next s l with
      | some s' => Enabled next s' rest
      | none => false

theorem execute_append
    (next : σ → ε → Option σ) (s : σ) (labels rest : List ε) :
    execute next s (labels ++ rest) =
      execute next (execute next s labels) rest :=
  List.foldl_append

theorem enabled_append
    {next : σ → ε → Option σ} {s : σ} {labels rest : List ε}
    (hlabels : Enabled next s labels = true)
    (hrest : Enabled next (execute next s labels) rest = true) :
    Enabled next s (labels ++ rest) = true := by
  induction labels generalizing s with
  | nil => exact hrest
  | cons l labels ih =>
      unfold Enabled at hlabels
      cases hl : next s l with
      | none => simp [hl] at hlabels
      | some s' =>
          rw [hl] at hlabels
          simp only [execute, List.foldl_cons, hl, Option.getD_some] at hrest
          simp only [List.cons_append, Enabled, hl]
          exact ih hlabels hrest

theorem execute_succ
    {next : σ → ε → Option σ} {labels : List ε} {s : σ}
    (henabled : Enabled next s labels = true)
    {n : ℕ} (hn : n < labels.length) :
    next (execute next s (labels.take n)) labels[n] =
      some (execute next s (labels.take (n + 1))) := by
  induction labels generalizing s n with
  | nil => simp at hn
  | cons l rest ih =>
      unfold Enabled at henabled
      cases hl : next s l with
      | none => simp [hl] at henabled
      | some s' =>
          rw [hl] at henabled
          cases n with
          | zero => simp [execute, hl]
          | succ n =>
              have hrest := ih henabled (n := n) (by simpa using hn)
              simpa [execute, hl] using hrest

/-- The run that performs the labels and then idles. -/
def Run.ofLabels
    (next : σ → ε → Option σ) (initial : σ) (labels : List ε)
    (idle : ε) (hidle : ∀ s, next s idle = some s)
    (henabled : Enabled next initial labels = true) :
    Run next initial where
  state n := execute next initial (labels.take n)
  label n := labels.getD n idle
  start := by simp [execute]
  step := by
    intro n
    by_cases hn : n < labels.length
    · rw [List.getD_eq_getElem?_getD, List.getElem?_eq_getElem hn]
      exact execute_succ henabled hn
    · rw [List.getD_eq_getElem?_getD, List.getElem?_eq_none (by omega),
        List.take_of_length_le (by omega), List.take_of_length_le (by omega)]
      exact hidle _

/-- A condition on steps, along the labels of a list. -/
def Checked (next : σ → ε → Option σ) (ok : σ → ε → Bool) : σ → List ε → Bool
  | _, [] => true
  | s, l :: rest => ok s l && Checked next ok ((next s l).getD s) rest

theorem checked_getElem
    {next : σ → ε → Option σ} {ok : σ → ε → Bool} {labels : List ε} {s : σ}
    (hchecked : Checked next ok s labels = true) {n : ℕ} (hn : n < labels.length) :
    ok (execute next s (labels.take n)) labels[n] = true := by
  induction labels generalizing s n with
  | nil => simp at hn
  | cons l rest ih =>
      unfold Checked at hchecked
      obtain ⟨hfirst, hrest⟩ := Bool.and_eq_true_iff.mp hchecked
      cases n with
      | zero => simpa [execute] using hfirst
      | succ n =>
          have hlater := ih hrest (n := n) (by simpa using hn)
          simpa [execute] using hlater

theorem Run.ofLabels_checked
    {next : σ → ε → Option σ} {initial : σ} {labels : List ε}
    {idle : ε} {hidle : ∀ s, next s idle = some s}
    {henabled : Enabled next initial labels = true} {ok : σ → ε → Bool}
    (hchecked : Checked next ok initial labels = true)
    (hok : ∀ s, ok s idle = true) (n : ℕ) :
    ok ((Run.ofLabels next initial labels idle hidle henabled).state n)
      ((Run.ofLabels next initial labels idle hidle henabled).label n) = true := by
  simp only [Run.ofLabels, List.getD_eq_getElem?_getD]
  by_cases hn : n < labels.length
  · rw [List.getElem?_eq_getElem hn]
    exact checked_getElem hchecked hn
  · rw [List.getElem?_eq_none (by omega)]
    exact hok _

theorem Run.ofLabels_label_of_le
    {next : σ → ε → Option σ} {initial : σ} {labels : List ε}
    {idle : ε} {hidle : ∀ s, next s idle = some s}
    {henabled : Enabled next initial labels = true} {n : ℕ}
    (hle : labels.length ≤ n) :
    (Run.ofLabels next initial labels idle hidle henabled).label n = idle := by
  simp [Run.ofLabels, List.getElem?_eq_none hle]

end Transition
