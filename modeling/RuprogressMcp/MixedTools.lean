import RuprogressMcp.ManageDocument

/-!
# Tools that read and write

Six tools stay available in read-only mode, because some of their actions only
read.  In that mode their writing actions send nothing, and in every mode
their reading actions send nothing but reads.  In every mode they refuse bad
arguments before the first request and stop at the first request that fails.
-/

namespace RuprogressMcp

open RedmineClient RequestProgram Tool

/-- A call of one of the tools with reading and writing actions. -/
inductive MixedCall where
  | relation (params : ManageIssueRelationParams)
  | category (params : ManageIssueCategoryParams)
  | wikiPage (params : ManageRedmineWikiPageParams)
  | product (params : ManageProductParams)
  | contact (params : ManageContactParams)
  | document (params : ManageDocumentParams)

namespace MixedCall

def program (env : ToolEnv) : MixedCall → ToolProgram
  | relation params => manageIssueRelation env params
  | category params => manageIssueCategory env params
  | wikiPage params => manageRedmineWikiPage env params
  | product params => manageProduct env params
  | contact params => manageContact env params
  | document params => manageDocument env params

def toolName : MixedCall → String
  | relation _ => "manage_issue_relation"
  | category _ => "manage_issue_category"
  | wikiPage _ => "manage_redmine_wiki_page"
  | product _ => "manage_product"
  | contact _ => "manage_contact"
  | document _ => "manage_document"

def action : MixedCall → String
  | relation params => ManageIssueRelationAction.variants.name params.action
  | category params => ManageIssueCategoryAction.variants.name params.action
  | wikiPage params => ManageWikiPageAction.variants.name params.action
  | product params => params.action.asStr
  | contact params => params.action.asStr
  | document params => ManageDocumentAction.variants.name params.action

/-- The action is named as a read. -/
def Reads (call : MixedCall) : Prop := call.action ∈ ["list", "get"]

instance (call : MixedCall) : Decidable call.Reads :=
  inferInstanceAs (Decidable (call.action ∈ ["list", "get"]))

end MixedCall

/-! ## Reads -/

section Reading

variable {env : ToolEnv}

theorem sendsOnly_getWikiPage (project : ProjectIdent) (title : WikiTitle)
    (version : Option ℕ) (includeAttachments : Bool) :
    (getWikiPage project title version includeAttachments).SendsOnly IsGet := by
  refine sendsOnly_send ?_
  cases version <;> rfl

theorem sendsOnly_listProducts (project : Option ProjectIdent)
    (limit offset : ℕ) :
    (listProducts project limit offset).SendsOnly IsGet := by
  refine sendsOnly_afterSuccess (sendsOnly_send ?_) fun envelope =>
    sendsOnly_done IsGet _
  cases project <;> rfl

theorem sendsOnly_listContacts (query : Query) (limit offset : ℕ) :
    (listContacts query limit offset).SendsOnly IsGet :=
  sendsOnly_afterSuccess (sendsOnly_send rfl) fun _ => sendsOnly_done IsGet _

theorem sendsOnly_listDmsfNodes (project : ProjectIdent)
    (folderId : Option ℕ) (limit offset : ℕ) :
    (listDmsfNodes project folderId limit offset).SendsOnly IsGet :=
  sendsOnly_afterSuccess (sendsOnly_send rfl) fun _ => sendsOnly_done IsGet _

end Reading

namespace MixedCall

variable {env : ToolEnv} {call : MixedCall}

theorem sendsOnly_of_reads (hreads : call.Reads) :
    (call.program env).SendsOnly IsGet := by
  cases call with
  | relation params =>
      refine sendsOnly_argument fun _ _ => sendsOnly_argument fun _ _ => ?_
      cases haction : params.action with
      | list =>
          exact sendsOnly_argument fun _ _ =>
            sendsOnly_orToolError (sendsOnly_send rfl) fun _ =>
              sendsOnly_answer IsGet _
      | create | delete =>
          rw [Reads, action, haction] at hreads
          exact absurd hreads (by decide)
  | category params =>
      refine sendsOnly_argument fun _ _ => ?_
      cases haction : params.action with
      | list =>
          exact sendsOnly_argument fun _ _ => sendsOnly_argument fun _ _ =>
            sendsOnly_orToolError (sendsOnly_send rfl) fun _ =>
              sendsOnly_answer IsGet _
      | create | update | delete =>
          rw [Reads, action, haction] at hreads
          exact absurd hreads (by decide)
  | wikiPage params =>
      refine sendsOnly_argument fun _ _ => sendsOnly_argument fun _ _ => ?_
      cases haction : params.action with
      | list =>
          exact sendsOnly_orToolError (sendsOnly_send rfl) fun _ =>
            sendsOnly_answer IsGet _
      | get =>
          exact sendsOnly_argument fun _ _ =>
            sendsOnly_orToolError (sendsOnly_getWikiPage _ _ _ _) fun _ =>
              sendsOnly_answer IsGet _
      | create | update | delete | rename =>
          rw [Reads, action, haction] at hreads
          exact absurd hreads (by decide)
  | product params =>
      refine sendsOnly_argument fun _ _ => ?_
      cases haction : params.action with
      | list =>
          exact sendsOnly_argument fun _ _ =>
            sendsOnly_orToolError (sendsOnly_listProducts _ _ _) fun _ =>
              sendsOnly_answer IsGet _
      | get =>
          exact sendsOnly_argument fun _ _ =>
            sendsOnly_orToolError (sendsOnly_send rfl) fun _ =>
              sendsOnly_answer IsGet _
      | create | update =>
          rw [Reads, action, haction] at hreads
          exact absurd hreads (by decide)
  | contact params =>
      refine sendsOnly_argument fun _ _ => ?_
      cases haction : params.action with
      | list =>
          exact sendsOnly_argument fun _ _ =>
            sendsOnly_orToolError (sendsOnly_listContacts _ _ _) fun _ =>
              sendsOnly_answer IsGet _
      | get =>
          exact sendsOnly_argument fun _ _ =>
            sendsOnly_orToolError (sendsOnly_send rfl) fun _ =>
              sendsOnly_answer IsGet _
      | create | update | delete | assignToProject | removeFromProject =>
          rw [Reads, action, haction] at hreads
          exact absurd hreads (by decide)
  | document params =>
      change (manageDocument env params).SendsOnly IsGet
      unfold manageDocument
      cases haction : params.action with
      | list =>
          exact sendsOnly_argument fun _ _ => sendsOnly_argument fun _ _ =>
            sendsOnly_orToolError (sendsOnly_listDmsfNodes _ _ _ _) fun _ =>
              sendsOnly_answer IsGet _
      | get =>
          refine sendsOnly_argument fun _ _ => sendsOnly_argument fun _ _ =>
            sendsOnly_orToolError (sendsOnly_send rfl) fun node => ?_
          cases node <;> exact sendsOnly_answer IsGet _
      | create | update =>
          rw [Reads, action, haction] at hreads
          exact absurd hreads (by decide)

end MixedCall

/-! ## Read-only mode -/

/-- The call ends before it has sent anything: with an argument error, or with
this result. -/
def EndsWith (result : CallToolResult) (program : ToolProgram) : Prop :=
  program.Ensures fun exchanges outcome => exchanges = [] ∧
    ((∃ message, outcome = .error message) ∨ outcome = .ok result)

section Refusals

variable {env : ToolEnv} {refusal : CallToolResult} {α : Type}

theorem endsWith_argument {check : Except String α} {next : α → ToolProgram}
    (hnext : ∀ a, EndsWith refusal (next a)) :
    EndsWith refusal (argument check next) := by
  cases check with
  | ok a => exact hnext a
  | error message => exact ensures_done.mpr ⟨rfl, .inl ⟨message, rfl⟩⟩

theorem endsWith_unlessReadOnly (hreadOnly : env.readOnly = true)
    (write : ToolProgram) :
    EndsWith refusal (unlessReadOnly env refusal write) := by
  rw [unlessReadOnly, if_pos hreadOnly]
  exact ensures_done.mpr ⟨rfl, .inr rfl⟩

end Refusals

namespace MixedCall

variable {env : ToolEnv} {call : MixedCall}

def instead : MixedCall → String
  | relation _ | category _ => listInstead
  | wikiPage _ | product _ | contact _ | document _ => listOrGetInstead

/-- What a writing action is answered in read-only mode. -/
def refusal (call : MixedCall) : CallToolResult :=
  readOnlyRefusal call.toolName call.action call.instead

theorem endsWith_refusal (hreadOnly : env.readOnly = true)
    (hwrites : ¬ call.Reads) : EndsWith call.refusal (call.program env) := by
  cases call with
  | relation params =>
      refine endsWith_argument fun _ => endsWith_argument fun _ => ?_
      rw [Reads, action] at hwrites
      rw [refusal, toolName, action, instead]
      cases haction : params.action with
      | list => exact absurd (by rw [haction]; decide) hwrites
      | create | delete => exact endsWith_unlessReadOnly hreadOnly _
  | category params =>
      refine endsWith_argument fun _ => ?_
      rw [Reads, action] at hwrites
      rw [refusal, toolName, action, instead]
      cases haction : params.action with
      | list => exact absurd (by rw [haction]; decide) hwrites
      | create | update | delete => exact endsWith_unlessReadOnly hreadOnly _
  | wikiPage params =>
      refine endsWith_argument fun _ => endsWith_argument fun _ => ?_
      rw [Reads, action] at hwrites
      rw [refusal, toolName, action, instead]
      cases haction : params.action with
      | list | get => exact absurd (by rw [haction]; decide) hwrites
      | create | update | delete | rename =>
          exact endsWith_unlessReadOnly hreadOnly _
  | product params =>
      refine endsWith_argument fun _ => ?_
      rw [Reads, action] at hwrites
      rw [refusal, toolName, action, instead]
      cases haction : params.action with
      | list | get => exact absurd (by rw [haction]; decide) hwrites
      | create | update => exact endsWith_unlessReadOnly hreadOnly _
  | contact params =>
      refine endsWith_argument fun _ => ?_
      rw [Reads, action] at hwrites
      rw [refusal, toolName, action, instead]
      cases haction : params.action with
      | list | get => exact absurd (by rw [haction]; decide) hwrites
      | create | update | delete | assignToProject | removeFromProject =>
          exact endsWith_unlessReadOnly hreadOnly _
  | document params =>
      change EndsWith _ (manageDocument env params)
      rw [Reads, action] at hwrites
      rw [refusal, toolName, action, instead]
      unfold manageDocument
      cases haction : params.action with
      | list | get => exact absurd (by rw [haction]; decide) hwrites
      | create | update => exact endsWith_unlessReadOnly hreadOnly _

/-- The mode of the server makes no difference to a reading action. -/
theorem program_of_reads (hreads : call.Reads) (mode : Bool) :
    call.program { env with readOnly := mode } = call.program env := by
  cases call with
  | relation params =>
      rw [Reads, action] at hreads
      simp only [program, manageIssueRelation]
      cases haction : params.action with
      | list => rfl
      | create | delete => exact absurd (haction ▸ hreads) (by decide)
  | category params =>
      rw [Reads, action] at hreads
      simp only [program, manageIssueCategory]
      cases haction : params.action with
      | list => rfl
      | create | update | delete => exact absurd (haction ▸ hreads) (by decide)
  | wikiPage params =>
      rw [Reads, action] at hreads
      simp only [program, manageRedmineWikiPage]
      cases haction : params.action with
      | list | get => rfl
      | create | update | delete | rename =>
          exact absurd (haction ▸ hreads) (by decide)
  | product params =>
      rw [Reads, action] at hreads
      simp only [program, manageProduct]
      cases haction : params.action with
      | list | get => rfl
      | create | update => exact absurd (haction ▸ hreads) (by decide)
  | contact params =>
      rw [Reads, action] at hreads
      simp only [program, manageContact]
      cases haction : params.action with
      | list | get => rfl
      | create | update | delete | assignToProject | removeFromProject =>
          exact absurd (haction ▸ hreads) (by decide)
  | document params =>
      rw [Reads, action] at hreads
      simp only [program, manageDocument]
      cases haction : params.action with
      | list | get => rfl
      | create | update => exact absurd (haction ▸ hreads) (by decide)

/-- In read-only mode the tools send reads only.  Their reading actions are as
in the other mode, and their writing actions are refused without a request. -/
theorem read_only_mode (env : ToolEnv) (call : MixedCall) :
    (call.Reads ∨ env.readOnly = true →
        (call.program env).SendsOnly IsGet) ∧
      (call.Reads → ∀ mode,
        call.program { env with readOnly := mode } = call.program env) ∧
      (¬ call.Reads → env.readOnly = true →
        EndsWith call.refusal (call.program env)) := by
  refine ⟨fun hor => ?_, program_of_reads,
    fun hwrites hreadOnly => endsWith_refusal hreadOnly hwrites⟩
  by_cases hreads : call.Reads
  · exact sendsOnly_of_reads hreads
  · have hends :=
      endsWith_refusal (hor.resolve_left hreads) hreads
    refine Ensures.mono hends fun exchanges outcome hnothing => ?_
    rw [hnothing.1]
    exact fun exchange hmem => absurd hmem List.not_mem_nil

end MixedCall

/-! ## Order -/

section Order

variable (env : ToolEnv)

theorem isError_uploadFailure (displayStatus : ℕ → String) (e : RedmineError) :
    (uploadFailure displayStatus e).isError = true := by
  unfold uploadFailure
  split
  · split_ifs
    · rfl
    · exact isError_toToolError displayStatus _
  · exact isError_toToolError displayStatus e

theorem isError_commitFailed (e : RedmineError) :
    (commitFailed env e).isError = true := by
  have hfailed := isError_toToolError env.displayStatus e
  unfold commitFailed
  dsimp only
  split
  · split
    · exact hfailed
    · exact hfailed
  · exact hfailed

/-- The client methods that read back what they have written. -/
theorem honest_writeThenRead (write read : ApiCall) :
    Honest (afterSuccess (send write) fun _ => send read) :=
  honest_afterSuccess (honest_send write) fun _ => honest_send read

theorem orderly_manageIssueRelation (params : ManageIssueRelationParams) :
    Orderly (manageIssueRelation env params) := by
  refine orderly_argument fun _ => orderly_argument fun _ => ?_
  cases params.action with
  | list =>
      exact orderly_argument fun _ => orderly_request (honest_send _) _
  | create =>
      exact orderly_unlessReadOnly <| orderly_argument fun _ =>
        orderly_argument fun _ => orderly_request (honest_send _) _
  | delete =>
      exact orderly_unlessReadOnly <| orderly_argument fun _ =>
        orderly_request (honest_send _) _

theorem orderly_manageIssueCategory (params : ManageIssueCategoryParams) :
    Orderly (manageIssueCategory env params) := by
  refine orderly_argument fun _ => ?_
  cases params.action with
  | list =>
      exact orderly_argument fun _ => orderly_argument fun _ =>
        orderly_request (honest_send _) _
  | create =>
      exact orderly_unlessReadOnly <| orderly_argument fun _ =>
        orderly_argument fun _ => orderly_argument fun _ =>
          orderly_request (honest_send _) _
  | update =>
      exact orderly_unlessReadOnly <| orderly_argument fun _ =>
        orderly_argument fun _ =>
          orderly_request (honest_writeThenRead _ _) _
  | delete =>
      exact orderly_unlessReadOnly <| orderly_argument fun _ =>
        orderly_request (honest_send _) _

theorem orderly_manageRedmineWikiPage (params : ManageRedmineWikiPageParams) :
    Orderly (manageRedmineWikiPage env params) := by
  refine orderly_argument fun _ => orderly_argument fun _ => ?_
  cases params.action with
  | list => exact orderly_request (honest_send _) _
  | get =>
      exact orderly_argument fun _ => orderly_request (honest_send _) _
  | create | update =>
      exact orderly_unlessReadOnly <| orderly_argument fun _ =>
        orderly_argument fun _ =>
          orderly_request (honest_writeThenRead _ _) _
  | delete =>
      exact orderly_unlessReadOnly <| orderly_argument fun _ =>
        orderly_request (honest_send _) _
  | rename =>
      refine orderly_unlessReadOnly <| orderly_argument fun _ =>
        orderly_argument fun _ => Concluding.orderly ?_
      refine concluding_orToolError (honest_send _) fun _ =>
        concluding_orToolError (honest_send _) fun _ =>
          concluding_andThen (honest_send _)
            (fun _ => concluding_answer _) fun e => ?_
      -- A page that is missing under its new title has its own report.
      cases e with
      | notFound => exact ⟨_, rfl, rfl⟩
      | _ => exact ⟨_, rfl, isError_toToolError env.displayStatus _⟩

theorem orderly_manageProduct (params : ManageProductParams) :
    Orderly (manageProduct env params) := by
  refine orderly_argument fun _ => ?_
  cases params.action with
  | list =>
      exact orderly_argument fun _ => orderly_request
        (honest_afterSuccess (honest_send _) fun _ => honest_done _) _
  | get =>
      exact orderly_argument fun _ => orderly_request (honest_send _) _
  | create =>
      exact orderly_unlessReadOnly <| orderly_argument fun _ =>
        orderly_argument fun _ => orderly_argument fun _ =>
          orderly_argument fun _ => orderly_argument fun _ =>
            orderly_request (honest_send _) _
  | update =>
      exact orderly_unlessReadOnly <| orderly_argument fun _ =>
        orderly_argument fun _ => orderly_argument fun _ =>
          orderly_argument fun _ =>
            orderly_request (honest_writeThenRead _ _) _

theorem orderly_manageContact (params : ManageContactParams) :
    Orderly (manageContact env params) := by
  refine orderly_argument fun _ => ?_
  cases params.action with
  | list =>
      exact orderly_argument fun _ => orderly_request
        (honest_afterSuccess (honest_send _) fun _ => honest_done _) _
  | get =>
      exact orderly_argument fun _ => orderly_request (honest_send _) _
  | create =>
      exact orderly_unlessReadOnly <| orderly_argument fun _ =>
        orderly_argument fun _ => orderly_argument fun _ =>
          orderly_argument fun _ => orderly_request (honest_send _) _
  | update =>
      exact orderly_unlessReadOnly <| orderly_argument fun _ =>
        orderly_argument fun _ => orderly_argument fun _ =>
          orderly_argument fun _ =>
            orderly_request (honest_writeThenRead _ _) _
  | delete =>
      exact orderly_unlessReadOnly <| orderly_argument fun _ =>
        orderly_request (honest_send _) _
  | assignToProject | removeFromProject =>
      exact orderly_unlessReadOnly <| orderly_argument fun _ =>
        orderly_argument fun _ => orderly_request (honest_send _) _

theorem orderly_manageDocument (params : ManageDocumentParams) :
    Orderly (manageDocument env params) := by
  unfold manageDocument
  cases params.action with
  | list =>
      exact orderly_argument fun _ => orderly_argument fun _ =>
        orderly_request
          (honest_afterSuccess (honest_send _) fun _ => honest_done _) _
  | get =>
      refine orderly_argument fun _ => orderly_argument fun _ =>
        (concluding_orToolError (honest_send _) fun node => ?_).orderly
      cases node <;> exact concluding_answer _
  | create =>
      refine orderly_unlessReadOnly <| orderly_unlessEnded
        (fun _ => orderly_argument fun _ => orderly_argument fun _ =>
          Concluding.orderly ?_)
      refine concluding_andThen (honest_send _) (fun upload => ?_) fun e =>
        ⟨_, rfl, isError_uploadFailure env.displayStatus e⟩
      exact concluding_andThen (honest_send _) (fun _ => concluding_answer _)
        fun e => ⟨_, rfl, isError_commitFailed env e⟩
  | update =>
      refine orderly_unlessReadOnly <| orderly_argument fun _ =>
        orderly_argument fun _ => orderly_argument fun _ =>
          (concluding_orToolError (honest_send _) fun node => ?_).orderly
      cases node with
      | none => exact concluding_answer _
      | some current =>
          exact concluding_orToolError (honest_send _) fun _ =>
            concluding_answer _

end Order

/-- Whatever Redmine answers, the tool refuses its arguments before it sends
anything, stops at the first failure, and then answers with an error. -/
theorem MixedCall.orderly_program (env : ToolEnv) (call : MixedCall) :
    Orderly (call.program env) := by
  cases call with
  | relation params => exact orderly_manageIssueRelation env params
  | category params => exact orderly_manageIssueCategory env params
  | wikiPage params => exact orderly_manageRedmineWikiPage env params
  | product params => exact orderly_manageProduct env params
  | contact params => exact orderly_manageContact env params
  | document params => exact orderly_manageDocument env params

end RuprogressMcp
