import Mathlib.Tactic

/-!
# Computations that may fail

Two judgements on computations in `Except`.  `Yields` is about one run: every
value it succeeds with has a property.  `Alike` compares two runs: they fail
with the same error, or they succeed with related values.  Both come with one
rule for each way to build a computation.
-/

namespace Fallible

variable {ε α β γ δ : Type}

/-! ## One run -/

def Yields (run : Except ε α) (Post : α → Prop) : Prop :=
  ∀ value, run = .ok value → Post value

namespace Yields

variable {Post : α → Prop}

theorem ok {value : α} (hpost : Post value) :
    Yields (.ok value : Except ε α) Post := by
  intro other heq
  cases heq
  exact hpost

theorem error (failure : ε) : Yields (.error failure : Except ε α) Post := by
  intro value heq
  cases heq

theorem of_true (run : Except ε α) : Yields run fun _ => True :=
  fun _ _ => trivial

theorem mono {run : Except ε α} {Later : α → Prop} (hrun : Yields run Post)
    (himp : ∀ value, Post value → Later value) : Yields run Later :=
  fun value hok => himp value (hrun value hok)

theorem bind {first : Except ε α} {rest : α → Except ε β} {Later : β → Prop}
    (hfirst : Yields first Post)
    (hrest : ∀ value, Post value → Yields (rest value) Later) :
    Yields (first >>= rest) Later := by
  intro result hok
  cases first with
  | error failure => cases hok
  | ok value => exact hrest value (hfirst value rfl) result hok

/-- A check that fails the run when its condition holds. -/
theorem guard {fails : Prop} [Decidable fails] {failure : ε} {rest : Except ε α}
    (hrest : ¬ fails → Yields rest Post) :
    Yields (if fails then .error failure else rest) Post := by
  split_ifs with hfails
  · exact error failure
  · exact hrest hfails

theorem forM {items : List β} {check : β → Except ε PUnit} {Item : β → Prop}
    (hcheck : ∀ item ∈ items, Yields (check item) fun _ => Item item) :
    Yields (items.forM check) fun _ => ∀ item ∈ items, Item item := by
  induction items with
  | nil => exact ok (fun item hmem => absurd hmem (List.not_mem_nil))
  | cons item items ih =>
      refine bind (hcheck item List.mem_cons_self) fun _ hitem => ?_
      refine mono (ih fun other hmem => hcheck other (List.mem_cons_of_mem _ hmem)) ?_
      intro _ hitems other hmem
      rcases List.mem_cons.mp hmem with rfl | hmem
      · exact hitem
      · exact hitems other hmem

theorem mapM {items : List β} {read : β → Except ε α}
    (hread : ∀ item ∈ items, Yields (read item) Post) :
    Yields (items.mapM read) fun values => ∀ value ∈ values, Post value := by
  induction items with
  | nil => exact ok (fun value hmem => absurd hmem (List.not_mem_nil))
  | cons item items ih =>
      rw [List.mapM_cons]
      refine bind (hread item List.mem_cons_self) fun value hvalue => ?_
      refine bind (ih fun other hmem => hread other (List.mem_cons_of_mem _ hmem)) ?_
      intro values hvalues
      refine ok fun other hmem => ?_
      rcases List.mem_cons.mp hmem with rfl | hmem
      · exact hvalue
      · exact hvalues other hmem

end Yields

/-! ## Two runs -/

def Alike (Rel : α → β → Prop) : Except ε α → Except ε β → Prop
  | .ok first, .ok second => Rel first second
  | .error first, .error second => first = second
  | _, _ => False

namespace Alike

variable {Rel : α → β → Prop}

theorem ok {first : α} {second : β} (hrel : Rel first second) :
    Alike Rel (.ok first : Except ε α) (.ok second) := hrel

theorem error (failure : ε) :
    Alike Rel (.error failure : Except ε α) (.error failure) := rfl

theorem same {Rel : α → α → Prop} (hrefl : ∀ value, Rel value value)
    (run : Except ε α) : Alike Rel run run := by
  cases run with
  | ok value => exact hrefl value
  | error failure => rfl

theorem mono {Later : α → β → Prop} {first : Except ε α} {second : Except ε β}
    (halike : Alike Rel first second) (himp : ∀ a b, Rel a b → Later a b) :
    Alike Later first second := by
  cases first with
  | ok a =>
      cases second with
      | ok b => exact himp a b halike
      | error failure => exact halike.elim
  | error failure =>
      cases second with
      | ok b => exact halike.elim
      | error other => exact halike

theorem bind {Later : γ → δ → Prop} {first : Except ε α} {second : Except ε β}
    {rest : α → Except ε γ} {rest' : β → Except ε δ} (hfirst : Alike Rel first second)
    (hrest : ∀ a b, Rel a b → Alike Later (rest a) (rest' b)) :
    Alike Later (first >>= rest) (second >>= rest') := by
  cases first with
  | ok a =>
      cases second with
      | ok b => exact hrest a b hfirst
      | error failure => exact hfirst.elim
  | error failure =>
      cases second with
      | ok b => exact hfirst.elim
      | error other => exact hfirst

/-- A check that both runs make. -/
theorem guard {fails : Prop} [Decidable fails] {failure : ε}
    {first : Except ε α} {second : Except ε β} (hrest : Alike Rel first second) :
    Alike Rel (if fails then .error failure else first)
      (if fails then .error failure else second) := by
  split_ifs
  · exact error failure
  · exact hrest

theorem mapM {Item : γ → δ → Prop} {items : List γ} {items' : List δ}
    {read : γ → Except ε α} {read' : δ → Except ε β}
    (hitems : List.Forall₂ Item items items')
    (hread : ∀ a b, Item a b → Alike Rel (read a) (read' b)) :
    Alike (List.Forall₂ Rel) (items.mapM read) (items'.mapM read') := by
  induction hitems with
  | nil => exact ok List.Forall₂.nil
  | cons hitem hitems ih =>
      rw [List.mapM_cons, List.mapM_cons]
      refine bind (hread _ _ hitem) fun value value' hvalue => ?_
      exact bind ih fun values values' hvalues => ok (List.Forall₂.cons hvalue hvalues)

end Alike

end Fallible
