import Mathlib.Tactic

/-!
# Programs that send requests

A computation that sends requests and goes on with their answers, as a tree
with one branch for every answer.  A run follows one branch to the end and
remembers what was asked and answered, so a fact about all runs holds whatever
the other side answers.  The rules below take such a fact apart along the
program.
-/

/-- A computation with requests in `ρ`, where `α request` are the answers to a
request, and a result in `β`. -/
inductive RequestProgram (ρ : Type) (α : ρ → Type) (β : Type) where
  | done (result : β)
  | call (request : ρ) (next : α request → RequestProgram ρ α β)

namespace RequestProgram

variable {ρ : Type} {α : ρ → Type} {β γ : Type}

/-- A request with its answer. -/
abbrev Exchange (α : ρ → Type) : Type := Σ request : ρ, α request

/-- Go on with the result of a program. -/
def andThen : RequestProgram ρ α β → (β → RequestProgram ρ α γ) →
    RequestProgram ρ α γ
  | done result, rest => rest result
  | call request next, rest => call request fun answer =>
      (next answer).andThen rest

/-- One branch of a program: what it asked, what it was answered, and the
result. -/
inductive Runs : RequestProgram ρ α β → List (Exchange α) → β → Prop where
  | done (result : β) : Runs (done result) [] result
  | call {request : ρ} {next : α request → RequestProgram ρ α β}
      (answer : α request) {rest : List (Exchange α)} {result : β}
      (hrest : Runs (next answer) rest result) :
      Runs (call request next) (⟨request, answer⟩ :: rest) result

/-- The branch that a given server takes. -/
def play (server : ∀ request, α request) :
    RequestProgram ρ α β → List (Exchange α) × β
  | done result => ([], result)
  | call request next =>
      let rest := (next (server request)).play server
      (⟨request, server request⟩ :: rest.1, rest.2)

theorem runs_play (server : ∀ request, α request)
    (program : RequestProgram ρ α β) :
    Runs program (program.play server).1 (program.play server).2 := by
  induction program with
  | done result => exact .done result
  | call request next ih => exact .call _ (ih (server request))

theorem play_andThen (server : ∀ request, α request)
    (program : RequestProgram ρ α β) (rest : β → RequestProgram ρ α γ) :
    (program.andThen rest).play server =
      ((program.play server).1 ++ ((rest (program.play server).2).play server).1,
        ((rest (program.play server).2).play server).2) := by
  induction program with
  | done result => rfl
  | call request next ih => simp only [andThen, play, ih, List.cons_append]

/-- Every run ends with exchanges and a result of this kind. -/
def Ensures (program : RequestProgram ρ α β)
    (post : List (Exchange α) → β → Prop) : Prop :=
  ∀ exchanges result, Runs program exchanges result → post exchanges result

@[simp] theorem ensures_done {result : β}
    {post : List (Exchange α) → β → Prop} :
    (done result : RequestProgram ρ α β).Ensures post ↔ post [] result := by
  constructor
  · intro hpost
    exact hpost _ _ (.done result)
  · rintro hpost _ _ ⟨_⟩
    exact hpost

@[simp] theorem ensures_call {request : ρ}
    {next : α request → RequestProgram ρ α β}
    {post : List (Exchange α) → β → Prop} :
    (call request next).Ensures post ↔
      ∀ answer, (next answer).Ensures fun rest result =>
        post (⟨request, answer⟩ :: rest) result := by
  constructor
  · intro hpost answer rest result hrest
    exact hpost _ _ (.call answer hrest)
  · intro hpost exchanges result hruns
    cases hruns with
    | call answer hrest => exact hpost answer _ _ hrest

@[simp] theorem ensures_andThen
    {program : RequestProgram ρ α β} {rest : β → RequestProgram ρ α γ}
    {post : List (Exchange α) → γ → Prop} :
    (program.andThen rest).Ensures post ↔
      program.Ensures fun before middle =>
        (rest middle).Ensures fun after result =>
          post (before ++ after) result := by
  induction program generalizing post with
  | done result => simp [andThen]
  | call request next ih =>
      simp only [andThen, ensures_call, ih, List.cons_append]

theorem Ensures.mono
    {program : RequestProgram ρ α β}
    {post weaker : List (Exchange α) → β → Prop}
    (hpost : program.Ensures post)
    (hweaker : ∀ exchanges result, post exchanges result →
      weaker exchanges result) :
    program.Ensures weaker :=
  fun exchanges result hruns =>
    hweaker exchanges result (hpost exchanges result hruns)

theorem Ensures.and
    {program : RequestProgram ρ α β} {post other : List (Exchange α) → β → Prop}
    (hpost : program.Ensures post) (hother : program.Ensures other) :
    program.Ensures fun exchanges result =>
      post exchanges result ∧ other exchanges result :=
  fun exchanges result hruns =>
    ⟨hpost exchanges result hruns, hother exchanges result hruns⟩

/-! ## The requests of a program -/

/-- On no branch is a request sent that is not allowed. -/
def SendsOnly (allowed : ρ → Prop) (program : RequestProgram ρ α β) : Prop :=
  program.Ensures fun exchanges _ =>
    ∀ exchange ∈ exchanges, allowed exchange.1

theorem sendsOnly_done (allowed : ρ → Prop) (result : β) :
    (done result : RequestProgram ρ α β).SendsOnly allowed := by
  simp [SendsOnly]

theorem sendsOnly_call {allowed : ρ → Prop} {request : ρ}
    {next : α request → RequestProgram ρ α β}
    (hrequest : allowed request)
    (hnext : ∀ answer, (next answer).SendsOnly allowed) :
    (call request next).SendsOnly allowed := by
  simp only [SendsOnly, ensures_call, List.forall_mem_cons]
  intro answer
  exact (hnext answer).mono fun _ _ hrest => ⟨hrequest, hrest⟩

theorem SendsOnly.andThen {allowed : ρ → Prop}
    {program : RequestProgram ρ α β} {rest : β → RequestProgram ρ α γ}
    (hprogram : program.SendsOnly allowed)
    (hrest : ∀ result, (rest result).SendsOnly allowed) :
    (program.andThen rest).SendsOnly allowed := by
  simp only [SendsOnly, ensures_andThen, List.forall_mem_append]
  refine Ensures.mono hprogram fun before middle hbefore => ?_
  exact Ensures.mono (hrest middle) fun _ _ hafter => ⟨hbefore, hafter⟩

end RequestProgram
