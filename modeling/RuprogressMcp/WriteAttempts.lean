import RuprogressMcp.MixedTools
import RuprogressMcp.RetryBudget

/-!
# Writes and their attempts

Every request of a tool goes through the retry loop of the client.  Only reads
are tried again, so a tool that asks for one write makes one attempt at it,
whatever the servers answer.
-/

namespace RuprogressMcp

open RedmineClient RequestProgram Tool

/-! ## Writes of a program -/

instance (call : ApiCall) : Decidable (IsGet call) :=
  inferInstanceAs (Decidable (call.request.method = .get))

/-- The number of requests that may change something. -/
def writes (exchanges : List (Exchange Answer)) : ℕ :=
  exchanges.countP fun exchange => !decide (IsGet exchange.1)

@[simp] theorem writes_append (before after : List (Exchange Answer)) :
    writes (before ++ after) = writes before + writes after :=
  List.countP_append

theorem writes_eq_zero {exchanges : List (Exchange Answer)}
    (hreads : ∀ exchange ∈ exchanges, IsGet exchange.1) :
    writes exchanges = 0 := by
  rw [writes, List.countP_eq_zero]
  intro exchange hmem
  rw [decide_eq_true (hreads exchange hmem)]
  decide

def WritesAtMost {α : Type} (n : ℕ) (program : RequestProgram ApiCall Answer α) :
    Prop :=
  program.Ensures fun exchanges _ => writes exchanges ≤ n

section Rules

variable {α β : Type} {n m : ℕ} {env : ToolEnv}

theorem writesAtMost_of_reads {program : RequestProgram ApiCall Answer α}
    (hreads : program.SendsOnly IsGet) : WritesAtMost 0 program :=
  Ensures.mono hreads fun _ _ hgets => (writes_eq_zero hgets).le

theorem WritesAtMost.mono {program : RequestProgram ApiCall Answer α}
    (hprogram : WritesAtMost n program) (hle : n ≤ m) :
    WritesAtMost m program :=
  Ensures.mono hprogram fun _ _ hwrites => hwrites.trans hle

theorem writesAtMost_done (result : α) :
    WritesAtMost n (.done result : RequestProgram ApiCall Answer α) :=
  ensures_done.mpr (Nat.zero_le n)

theorem writesAtMost_send (call : ApiCall) : WritesAtMost 1 (send call) :=
  ensures_call.mpr fun _ => ensures_done.mpr List.countP_le_length

theorem writesAtMost_andThen {program : RequestProgram ApiCall Answer α}
    {rest : α → RequestProgram ApiCall Answer β}
    (hprogram : WritesAtMost n program)
    (hrest : ∀ result, WritesAtMost m (rest result)) :
    WritesAtMost (n + m) (program.andThen rest) := by
  refine ensures_andThen.mpr
    (Ensures.mono hprogram fun before middle hbefore => ?_)
  refine Ensures.mono (hrest middle) fun after _ hafter => ?_
  rw [writes_append]
  exact Nat.add_le_add hbefore hafter

/-- A program that reads, and may then write. -/
theorem writesAtMost_read {program : RequestProgram ApiCall Answer α}
    {rest : α → RequestProgram ApiCall Answer β}
    (hreads : program.SendsOnly IsGet)
    (hrest : ∀ result, WritesAtMost n (rest result)) :
    WritesAtMost n (program.andThen rest) :=
  Nat.zero_add n ▸ writesAtMost_andThen (writesAtMost_of_reads hreads) hrest

theorem writesAtMost_readOrError {program : ClientProgram α}
    {next : α → ToolProgram} (hreads : program.SendsOnly IsGet)
    (hnext : ∀ a, WritesAtMost n (next a)) :
    WritesAtMost n (orToolError env program next) := by
  refine writesAtMost_read hreads fun result => ?_
  cases result with
  | ok a => exact hnext a
  | error e => exact writesAtMost_done _

/-- The usual end: one method of the client, and its result or its failure. -/
theorem writesAtMost_request {program : ClientProgram α}
    (hprogram : WritesAtMost n program) (output : α → CallToolResult) :
    WritesAtMost n (orToolError env program fun a => answer (output a)) := by
  refine writesAtMost_andThen (m := 0) hprogram fun result => ?_
  cases result with
  | ok a => exact writesAtMost_done _
  | error e => exact writesAtMost_done _

theorem writesAtMost_writeThenRead (write : ApiCall) {read : ApiCall}
    (hget : IsGet read) :
    WritesAtMost 1 (afterSuccess (send write) fun _ => send read) := by
  refine writesAtMost_andThen (m := 0) (writesAtMost_send write) fun result => ?_
  cases result with
  | ok a => exact writesAtMost_of_reads (sendsOnly_send hget)
  | error e => exact writesAtMost_done _

theorem writesAtMost_argument {check : Except String α}
    {next : α → ToolProgram} (hnext : ∀ a, WritesAtMost n (next a)) :
    WritesAtMost n (argument check next) := by
  cases check with
  | ok a => exact hnext a
  | error message => exact writesAtMost_done _

theorem writesAtMost_unlessEnded {check : Except Ending α}
    {next : α → ToolProgram} (hnext : ∀ a, WritesAtMost n (next a)) :
    WritesAtMost n (unlessEnded check next) := by
  cases check with
  | ok a => exact hnext a
  | error ending => exact writesAtMost_done _

theorem writesAtMost_unlessReadOnly {refusal : CallToolResult}
    {write : ToolProgram} (hwrite : WritesAtMost n write) :
    WritesAtMost n (unlessReadOnly env refusal write) := by
  unfold unlessReadOnly
  split_ifs
  · exact writesAtMost_done _
  · exact hwrite

end Rules

/-! ## The tools -/

section Tools

variable (env : ToolEnv)

theorem writesAtMost_manageIssueRelation (params : ManageIssueRelationParams) :
    WritesAtMost 1 (manageIssueRelation env params) := by
  refine writesAtMost_argument fun _ => writesAtMost_argument fun _ => ?_
  cases params.action with
  | list =>
      exact writesAtMost_argument fun _ =>
        writesAtMost_request (writesAtMost_send _) _
  | create =>
      exact writesAtMost_unlessReadOnly <| writesAtMost_argument fun _ =>
        writesAtMost_argument fun _ =>
          writesAtMost_request (writesAtMost_send _) _
  | delete =>
      exact writesAtMost_unlessReadOnly <| writesAtMost_argument fun _ =>
        writesAtMost_request (writesAtMost_send _) _

theorem writesAtMost_manageIssueCategory (params : ManageIssueCategoryParams) :
    WritesAtMost 1 (manageIssueCategory env params) := by
  refine writesAtMost_argument fun _ => ?_
  cases params.action with
  | list =>
      exact writesAtMost_argument fun _ => writesAtMost_argument fun _ =>
        writesAtMost_request (writesAtMost_send _) _
  | create =>
      exact writesAtMost_unlessReadOnly <| writesAtMost_argument fun _ =>
        writesAtMost_argument fun _ => writesAtMost_argument fun _ =>
          writesAtMost_request (writesAtMost_send _) _
  | update =>
      refine writesAtMost_unlessReadOnly <| writesAtMost_argument fun _ =>
        writesAtMost_argument fun _ =>
          writesAtMost_request ?_ _
      exact writesAtMost_writeThenRead _ rfl
  | delete =>
      exact writesAtMost_unlessReadOnly <| writesAtMost_argument fun _ =>
        writesAtMost_request (writesAtMost_send _) _

theorem writesAtMost_manageRedmineWikiPage
    (params : ManageRedmineWikiPageParams) :
    WritesAtMost 1 (manageRedmineWikiPage env params) := by
  refine writesAtMost_argument fun _ => writesAtMost_argument fun _ => ?_
  cases params.action with
  | list => exact writesAtMost_request (writesAtMost_send _) _
  | get =>
      exact writesAtMost_argument fun _ =>
        writesAtMost_request (writesAtMost_send _) _
  | create | update =>
      refine writesAtMost_unlessReadOnly <| writesAtMost_argument fun _ =>
        writesAtMost_argument fun _ =>
          writesAtMost_request ?_ _
      exact writesAtMost_writeThenRead _ rfl
  | delete =>
      exact writesAtMost_unlessReadOnly <| writesAtMost_argument fun _ =>
        writesAtMost_request (writesAtMost_send _) _
  | rename =>
      refine writesAtMost_unlessReadOnly <| writesAtMost_argument fun _ =>
        writesAtMost_argument fun _ => ?_
      -- The page is read before and after the one write.
      refine writesAtMost_readOrError (sendsOnly_getWikiPage _ _ _ _)
        fun current => ?_
      refine writesAtMost_andThen (m := 0) (writesAtMost_send _)
        fun written => ?_
      cases written with
      | error e => exact writesAtMost_done _
      | ok _ =>
          refine writesAtMost_read (sendsOnly_getWikiPage _ _ _ _)
            fun renamed => ?_
          split <;> exact writesAtMost_done _

theorem writesAtMost_manageProduct (params : ManageProductParams) :
    WritesAtMost 1 (manageProduct env params) := by
  refine writesAtMost_argument fun _ => ?_
  cases params.action with
  | list =>
      exact writesAtMost_argument fun _ => writesAtMost_request
        ((writesAtMost_of_reads (sendsOnly_listProducts _ _ _)).mono
          (Nat.zero_le 1)) _
  | get =>
      exact writesAtMost_argument fun _ =>
        writesAtMost_request (writesAtMost_send _) _
  | create =>
      exact writesAtMost_unlessReadOnly <| writesAtMost_argument fun _ =>
        writesAtMost_argument fun _ => writesAtMost_argument fun _ =>
          writesAtMost_argument fun _ => writesAtMost_argument fun _ =>
            writesAtMost_request (writesAtMost_send _) _
  | update =>
      refine writesAtMost_unlessReadOnly <| writesAtMost_argument fun _ =>
        writesAtMost_argument fun _ => writesAtMost_argument fun _ =>
          writesAtMost_argument fun _ =>
            writesAtMost_request ?_ _
      exact writesAtMost_writeThenRead _ rfl

theorem writesAtMost_manageContact (params : ManageContactParams) :
    WritesAtMost 1 (manageContact env params) := by
  refine writesAtMost_argument fun _ => ?_
  cases params.action with
  | list =>
      exact writesAtMost_argument fun _ => writesAtMost_request
        ((writesAtMost_of_reads (sendsOnly_listContacts _ _ _)).mono
          (Nat.zero_le 1)) _
  | get =>
      exact writesAtMost_argument fun _ =>
        writesAtMost_request (writesAtMost_send _) _
  | create =>
      exact writesAtMost_unlessReadOnly <| writesAtMost_argument fun _ =>
        writesAtMost_argument fun _ => writesAtMost_argument fun _ =>
          writesAtMost_argument fun _ =>
            writesAtMost_request (writesAtMost_send _) _
  | update =>
      refine writesAtMost_unlessReadOnly <| writesAtMost_argument fun _ =>
        writesAtMost_argument fun _ => writesAtMost_argument fun _ =>
          writesAtMost_argument fun _ =>
            writesAtMost_request ?_ _
      exact writesAtMost_writeThenRead _ rfl
  | delete =>
      exact writesAtMost_unlessReadOnly <| writesAtMost_argument fun _ =>
        writesAtMost_request (writesAtMost_send _) _
  | assignToProject | removeFromProject =>
      exact writesAtMost_unlessReadOnly <| writesAtMost_argument fun _ =>
        writesAtMost_argument fun _ =>
          writesAtMost_request (writesAtMost_send _) _

/-- A new document is written twice, once to the uploads and once to the
project. -/
theorem writesAtMost_manageDocument (params : ManageDocumentParams) :
    WritesAtMost (if params.action = .create then 2 else 1)
      (manageDocument env params) := by
  unfold manageDocument
  cases params.action with
  | list =>
      exact writesAtMost_argument fun _ => writesAtMost_argument fun _ =>
        writesAtMost_request
          ((writesAtMost_of_reads (sendsOnly_listDmsfNodes _ _ _ _)).mono
            (Nat.zero_le 1)) _
  | get =>
      refine writesAtMost_argument fun _ => writesAtMost_argument fun _ =>
        writesAtMost_readOrError (sendsOnly_send rfl) fun node => ?_
      cases node <;> exact writesAtMost_done _
  | create =>
      refine writesAtMost_unlessReadOnly <| writesAtMost_unlessEnded fun _ =>
        writesAtMost_argument fun _ => writesAtMost_argument fun _ => ?_
      refine writesAtMost_andThen (n := 1) (m := 1) (writesAtMost_send _)
        fun uploaded => ?_
      cases uploaded with
      | error e => exact writesAtMost_done _
      | ok upload =>
          refine writesAtMost_andThen (m := 0) (writesAtMost_send _)
            fun committed => ?_
          cases committed <;> exact writesAtMost_done _
  | update =>
      refine writesAtMost_unlessReadOnly <| writesAtMost_argument fun _ =>
        writesAtMost_argument fun _ => writesAtMost_argument fun _ =>
          writesAtMost_readOrError (sendsOnly_send rfl) fun node => ?_
      cases node with
      | none => exact writesAtMost_done _
      | some current => exact writesAtMost_request (writesAtMost_send _) _

end Tools

/-! ## Attempts -/

/-- The attempts that the client makes at one request; `world` is what becomes
of each of them. -/
def attempts (client : Retry.Client) (call : ApiCall)
    (world : ℕ → Retry.Attempt) (entry : ℕ) : ℕ :=
  match Retry.sendWithRetry client call.request.method true world entry
      (client.policy.maxRetries + 1) with
  | some outcome => outcome.starts.length
  | none => 0

/-- All attempts at the writes of a run, whose requests are numbered. -/
def writeAttempts (client : Retry.Client) (world : ℕ → ℕ → Retry.Attempt)
    (entry : ℕ → ℕ) : ℕ → List (Exchange Answer) → ℕ
  | _, [] => 0
  | n, exchange :: rest =>
      (if IsGet exchange.1 then 0
        else attempts client exchange.1 (world n) (entry n)) +
        writeAttempts client world entry (n + 1) rest

theorem method_ne_head (call : ApiCall) : call.request.method ≠ .head := by
  cases call with
  | listProducts project _ => cases project <;> nofun
  | getWikiPage _ _ version _ => cases version <;> nofun
  | _ => nofun

theorem attempts_of_write (client : Retry.Client) {call : ApiCall}
    (hwrite : ¬ IsGet call) (world : ℕ → Retry.Attempt) (entry : ℕ) :
    attempts client call world entry = 1 := by
  have hmethod : Retry.methodIsRetryable call.request.method = false := by
    rw [Retry.methodIsRetryable, Bool.or_eq_false_iff]
    exact ⟨decide_eq_false hwrite, decide_eq_false (method_ne_head call)⟩
  have hbody : ∃ outcome, Retry.RetryLoop.body client call.request.method true
      world (client.deadline entry) (Retry.RetryLoop.start entry) =
        .inl outcome := by
    cases hbody : Retry.RetryLoop.body client call.request.method true world
        (client.deadline entry) (Retry.RetryLoop.start entry) with
    | inl outcome => exact ⟨outcome, rfl⟩
    | inr loop =>
        obtain ⟨error, -, hretry, -⟩ := Retry.RetryLoop.body_next hbody
        rw [Retry.Client.canRetry, hmethod] at hretry
        cases hretry
  obtain ⟨outcome, hbody⟩ := hbody
  obtain ⟨hstarts, -, -⟩ := Retry.RetryLoop.body_stop hbody
  rw [attempts, Retry.sendWithRetry, Loop.run, hbody]
  exact congrArg List.length hstarts

theorem writeAttempts_eq_writes (client : Retry.Client)
    (world : ℕ → ℕ → Retry.Attempt) (entry : ℕ → ℕ) (n : ℕ)
    (exchanges : List (Exchange Answer)) :
    writeAttempts client world entry n exchanges = writes exchanges := by
  induction exchanges generalizing n with
  | nil => rfl
  | cons exchange rest ih =>
      rw [writeAttempts, ih, writes, writes, List.countP_cons, Nat.add_comm]
      by_cases hget : IsGet exchange.1
      · simp [hget]
      · simp [hget, attempts_of_write client hget]

/-- How many writes a call may ask for. -/
def MixedCall.writeLimit (call : MixedCall) : ℕ :=
  if call.Reads then 0
  else
    match call with
    | document params => if params.action = .create then 2 else 1
    | _ => 1

theorem MixedCall.writesAtMost (env : ToolEnv) (call : MixedCall) :
    WritesAtMost call.writeLimit (call.program env) := by
  unfold MixedCall.writeLimit
  split_ifs with hreads
  · exact writesAtMost_of_reads (sendsOnly_of_reads hreads)
  · cases call with
    | relation params => exact writesAtMost_manageIssueRelation env params
    | category params => exact writesAtMost_manageIssueCategory env params
    | wikiPage params => exact writesAtMost_manageRedmineWikiPage env params
    | product params => exact writesAtMost_manageProduct env params
    | contact params => exact writesAtMost_manageContact env params
    | document params => exact writesAtMost_manageDocument env params

/-- Whatever the servers answer, a call makes at most one attempt at a write,
or two where it creates a document. -/
theorem MixedCall.write_attempts_le (env : ToolEnv) (call : MixedCall)
    (client : Retry.Client) (world : ℕ → ℕ → Retry.Attempt) (entry : ℕ → ℕ) :
    (call.program env).Ensures fun exchanges _ =>
      writeAttempts client world entry 0 exchanges = writes exchanges ∧
        writes exchanges ≤ call.writeLimit :=
  Ensures.mono (call.writesAtMost env) fun exchanges _ hwrites =>
    ⟨writeAttempts_eq_writes client world entry 0 exchanges, hwrites⟩

end RuprogressMcp
