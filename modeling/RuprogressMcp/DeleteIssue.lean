import RuprogressMcp.PagedReads

/-!
# Deleting an issue

An issue is deleted only after what would be deleted with it has been read.
Without the confirmations that this calls for, the tool answers with the
impact instead, which is a result and not an error.
-/

namespace RuprogressMcp

open RedmineClient RequestProgram Tool

structure DeleteRedmineIssueParams where
  issueId : ℕ
  confirmDelete : Bool
  confirmDeleteWithChildren : Bool

structure DeleteImpactOut where
  childrenCount : ℕ
  journalsCount : ℕ
  attachmentsCount : ℕ
  relationsCount : ℕ
  timeEntriesCount : ℕ

def DeleteImpactOut.toValue (impact : DeleteImpactOut) : Json :=
  .obj (JsonObject.ofFields
    [("children_count", Pagination.number impact.childrenCount),
      ("journals_count", Pagination.number impact.journalsCount),
      ("attachments_count", Pagination.number impact.attachmentsCount),
      ("relations_count", Pagination.number impact.relationsCount),
      ("time_entries_count", Pagination.number impact.timeEntriesCount)])

structure DeleteRedmineIssueOutput where
  success : Bool
  error : Option String := none
  code : Option ErrorCode := none
  hint : Option String := none
  impact : Option DeleteImpactOut := none
  deletedIssueId : Option ℕ := none
  cascadeDeleted : Option ℕ := none

def DeleteRedmineIssueOutput.toValue (output : DeleteRedmineIssueOutput) :
    Json :=
  .obj (JsonObject.ofFields (("success", .bool output.success) ::
    (optionalField "error" Json.str output.error ++
      optionalField "code" (fun code => .str code.name) output.code ++
      optionalField "hint" Json.str output.hint ++
      optionalField "impact" DeleteImpactOut.toValue output.impact ++
      optionalField "deleted_issue_id" Pagination.number
        output.deletedIssueId ++
      optionalField "cascade_deleted" Pagination.number
        output.cascadeDeleted)))

/-! ## What is read first -/

def issues : Collection ℕ where
  call := .listIssues
  read _ envelope := envelope
  isGet _ := rfl

def subtasksQuery (parent : ℕ) : Query :=
  (Query.default.insert "parent_id" (toString parent)).insert "status_id" "*"

def listSubtasks (limits : Limits) (parent : ℕ) : ClientProgram (Page ℕ) :=
  fetchAllPages issues (subtasksQuery parent) limits

def getIssueForDelete (issueId : ℕ) : ApiCall :=
  .getIssue (UInt64.ofNat issueId)
    (Query.default.insert "include" "journals,attachments,relations")

def timeEntriesQuery (issueId : ℕ) : Query :=
  Query.default.insert "issue_id" (toString issueId)

def listTimeEntriesPage (query : Query) (limit offset : ℕ) :
    ClientProgram (Page TimeEntry) :=
  afterSuccess (send (.listTimeEntries (pageQuery query limit offset)))
    fun envelope => .done (.ok (Envelope.page envelope))

def deleteImpact (issue : IssueDetail) (children : Page ℕ)
    (timeEntries : Page TimeEntry) : DeleteImpactOut where
  childrenCount := children.items.length
  journalsCount := (issue.journals.map List.length).getD 0
  attachmentsCount := (issue.attachments.map List.length).getD 0
  relationsCount := (issue.relations.map List.length).getD 0
  timeEntriesCount := timeEntries.totalCount

/-! ## The tool -/

def confirmationRequired (impact : DeleteImpactOut) :
    DeleteRedmineIssueOutput where
  success := false
  error := some ("deletion requires confirm_delete=true; nothing has been " ++
    "deleted")
  code := some .confirmationRequired
  hint := some ("review impact, then retry with confirm_delete=true (and " ++
    "confirm_delete_with_children=true if children_count > 0)")
  impact := some impact

def childrenPresent (impact : DeleteImpactOut) :
    DeleteRedmineIssueOutput where
  success := false
  error := some ("issue has " ++ toString impact.childrenCount ++
    " direct subtask(s); deleting it cascade-deletes them all, with no way " ++
    "to keep them")
  code := some .childrenPresent
  hint := some ("retry with confirm_delete_with_children=true to proceed, " ++
    "or reassign/detach the subtasks first")
  impact := some impact

/-- What the impact calls for before the issue may be deleted, if that was not
given. -/
def DeleteRedmineIssueParams.refusal (params : DeleteRedmineIssueParams)
    (impact : DeleteImpactOut) : Option DeleteRedmineIssueOutput :=
  if !params.confirmDelete then some (confirmationRequired impact)
  else if 0 < impact.childrenCount ∧ !params.confirmDeleteWithChildren then
    some (childrenPresent impact)
  else none

/-- The answer after the issue has been deleted. -/
def DeleteRedmineIssueParams.deleted (params : DeleteRedmineIssueParams)
    (impact : DeleteImpactOut) : DeleteRedmineIssueOutput where
  success := true
  deletedIssueId := some params.issueId
  cascadeDeleted := some impact.childrenCount

/-- The call from the impact on. -/
def deleteAfterImpact (env : ToolEnv) (params : DeleteRedmineIssueParams)
    (impact : DeleteImpactOut) : ToolProgram :=
  match params.refusal impact with
  | some refusal => answer (ok refusal.toValue env.caps)
  | none =>
      orToolError env (send (.deleteIssue (UInt64.ofNat params.issueId)))
        fun _ => answer (ok (params.deleted impact).toValue env.caps)

def deleteRedmineIssue (env : ToolEnv) (limits : Limits)
    (params : DeleteRedmineIssueParams) : ToolProgram :=
  argument env.scopedClient fun _ =>
  orToolError env (send (getIssueForDelete params.issueId)) fun issue =>
  orToolError env (listSubtasks limits params.issueId) fun children =>
  orToolError env (listTimeEntriesPage (timeEntriesQuery params.issueId) 1 0)
    fun timeEntries =>
  deleteAfterImpact env params (deleteImpact issue children timeEntries)

theorem DeleteRedmineIssueParams.refusal_eq_none_iff
    {params : DeleteRedmineIssueParams} {impact : DeleteImpactOut} :
    params.refusal impact = none ↔ params.confirmDelete = true ∧
      (impact.childrenCount = 0 ∨ params.confirmDeleteWithChildren = true) := by
  unfold DeleteRedmineIssueParams.refusal
  cases params.confirmDelete with
  | false => simp
  | true =>
      cases params.confirmDeleteWithChildren with
      | false => simp
      | true => simp

theorem refusal_eq_some
    {params : DeleteRedmineIssueParams} {impact : DeleteImpactOut}
    {refusal : DeleteRedmineIssueOutput}
    (hrefusal : params.refusal impact = some refusal) :
    (params.confirmDelete = false ∧ refusal = confirmationRequired impact) ∨
      (params.confirmDelete = true ∧ 0 < impact.childrenCount ∧
        params.confirmDeleteWithChildren = false ∧
        refusal = childrenPresent impact) := by
  unfold DeleteRedmineIssueParams.refusal at hrefusal
  split_ifs at hrefusal with hissue hsubtasks
  · left
    cases hrefusal
    exact ⟨by simpa using hissue, rfl⟩
  · right
    cases hrefusal
    exact ⟨by simpa using hissue, hsubtasks.1, by simpa using hsubtasks.2, rfl⟩

/-! ## What a run may have done -/

/-- The issue is read, then its subtasks to the end of the walk over them, then
its time entries, and this is what they show. -/
inductive ImpactRead (limits : Limits) (issueId : ℕ) :
    List (Exchange Answer) → DeleteImpactOut → Prop
  | read {issue : IssueDetail} {pages : List (Exchange Answer)} {children : List ℕ}
      {timeEntries : Envelope TimeEntry}
      (hpages : PagesRead issues (subtasksQuery issueId) limits limits.maxPages 0 []
        pages (.ok children)) :
      ImpactRead limits issueId
        (⟨getIssueForDelete issueId, .ok issue⟩ :: pages ++
          [⟨.listTimeEntries (pageQuery (timeEntriesQuery issueId) 1 0),
            .ok timeEntries⟩])
        { childrenCount := children.length
          journalsCount := (issue.journals.map List.length).getD 0
          attachmentsCount := (issue.attachments.map List.length).getD 0
          relationsCount := (issue.relations.map List.length).getD 0
          timeEntriesCount := timeEntries.totalCount }

/-- The deletion is confirmed, and for the subtasks if any were found. -/
structure Confirmed (params : DeleteRedmineIssueParams) (impact : DeleteImpactOut) :
    Prop where
  issue : params.confirmDelete = true
  subtasks : impact.childrenCount = 0 ∨ params.confirmDeleteWithChildren = true

/-- How a call may end: with what failed, with the confirmation that is
missing, or with the deletion. -/
inductive DeletionOutcome (env : ToolEnv) (limits : Limits)
    (params : DeleteRedmineIssueParams) :
    List (Exchange Answer) → Except String CallToolResult → Prop
  | uncredentialed {message : String} (hscoped : env.scopedClient = .error message) :
      DeletionOutcome env limits params [] (.error message)
  | issueUnread (e : RedmineError) :
      DeletionOutcome env limits params
        [⟨getIssueForDelete params.issueId, .error e⟩]
        (.ok (toToolError env.displayStatus e))
  | subtasksUnread {issue : IssueDetail} {pages : List (Exchange Answer)}
      {e : RedmineError}
      (hpages : PagesRead issues (subtasksQuery params.issueId) limits
        limits.maxPages 0 [] pages (.error e)) :
      DeletionOutcome env limits params
        (⟨getIssueForDelete params.issueId, .ok issue⟩ :: pages)
        (.ok (toToolError env.displayStatus e))
  | timeEntriesUnread {issue : IssueDetail} {pages : List (Exchange Answer)}
      {children : List ℕ} (e : RedmineError)
      (hpages : PagesRead issues (subtasksQuery params.issueId) limits
        limits.maxPages 0 [] pages (.ok children)) :
      DeletionOutcome env limits params
        (⟨getIssueForDelete params.issueId, .ok issue⟩ :: pages ++
          [⟨.listTimeEntries (pageQuery (timeEntriesQuery params.issueId) 1 0),
            .error e⟩])
        (.ok (toToolError env.displayStatus e))
  | unconfirmed {exchanges : List (Exchange Answer)} {impact : DeleteImpactOut}
      (himpact : ImpactRead limits params.issueId exchanges impact)
      (hmissing : params.confirmDelete = false) :
      DeletionOutcome env limits params exchanges
        (.ok (ok (confirmationRequired impact).toValue env.caps))
  | subtasksUnconfirmed {exchanges : List (Exchange Answer)}
      {impact : DeleteImpactOut}
      (himpact : ImpactRead limits params.issueId exchanges impact)
      (hissue : params.confirmDelete = true) (hchildren : 0 < impact.childrenCount)
      (hmissing : params.confirmDeleteWithChildren = false) :
      DeletionOutcome env limits params exchanges
        (.ok (ok (childrenPresent impact).toValue env.caps))
  | undeleted {exchanges : List (Exchange Answer)} {impact : DeleteImpactOut}
      (himpact : ImpactRead limits params.issueId exchanges impact)
      (hconfirmed : Confirmed params impact) (e : RedmineError) :
      DeletionOutcome env limits params
        (exchanges ++ [⟨.deleteIssue (UInt64.ofNat params.issueId), .error e⟩])
        (.ok (toToolError env.displayStatus e))
  | deleted {exchanges : List (Exchange Answer)} {impact : DeleteImpactOut}
      (himpact : ImpactRead limits params.issueId exchanges impact)
      (hconfirmed : Confirmed params impact) :
      DeletionOutcome env limits params
        (exchanges ++ [⟨.deleteIssue (UInt64.ofNat params.issueId), .ok ()⟩])
        (.ok (ok (params.deleted impact).toValue env.caps))

/-- Everything before the last request is a read that has succeeded, and what
is no read is the confirmed deletion, after the impact has been read. -/
structure DeletionRun (env : ToolEnv) (limits : Limits)
    (params : DeleteRedmineIssueParams) (exchanges : List (Exchange Answer))
    (result : Except String CallToolResult) : Prop where
  reads : ∀ exchange ∈ exchanges.dropLast, IsGet exchange.1 ∧ Succeeded exchange
  confirmed : ∀ exchange ∈ exchanges, ¬ IsGet exchange.1 →
    exchange.1 = .deleteIssue (UInt64.ofNat params.issueId) ∧
      ∃ impact, ImpactRead limits params.issueId exchanges.dropLast impact ∧
        Confirmed params impact
  outcome : DeletionOutcome env limits params exchanges result

section Deletion

variable {env : ToolEnv} {limits : Limits} {params : DeleteRedmineIssueParams}
  {exchanges : List (Exchange Answer)}

theorem ImpactRead.isGet
    {issueId : ℕ} {impact : DeleteImpactOut}
    (himpact : ImpactRead limits issueId exchanges impact) :
    ∀ exchange ∈ exchanges, IsGet exchange.1 := by
  obtain ⟨hpages⟩ := himpact
  rw [List.forall_mem_append, List.forall_mem_cons, List.forall_mem_singleton]
  exact ⟨⟨rfl, hpages.isGet⟩, rfl⟩

theorem ImpactRead.succeeded
    {issueId : ℕ} {impact : DeleteImpactOut}
    (himpact : ImpactRead limits issueId exchanges impact) :
    ∀ exchange ∈ exchanges, Succeeded exchange := by
  obtain ⟨hpages⟩ := himpact
  rw [List.forall_mem_append, List.forall_mem_cons, List.forall_mem_singleton]
  exact ⟨⟨⟨_, rfl⟩, hpages.succeeded⟩, ⟨_, rfl⟩⟩

/-- A run that has only read. -/
theorem DeletionOutcome.run_of_reads {result : Except String CallToolResult}
    (houtcome : DeletionOutcome env limits params exchanges result)
    (hreads : ∀ exchange ∈ exchanges, IsGet exchange.1)
    (hstops : ∀ exchange ∈ exchanges.dropLast, Succeeded exchange) :
    DeletionRun env limits params exchanges result where
  reads exchange hmem :=
    ⟨hreads exchange (List.mem_of_mem_dropLast hmem), hstops exchange hmem⟩
  confirmed exchange hmem hwrites := absurd (hreads exchange hmem) hwrites
  outcome := houtcome

/-- A run that ends with the deletion, whatever it is answered. -/
theorem DeletionOutcome.run_of_deletion
    {impact : DeleteImpactOut} {result : Except String CallToolResult}
    {answered : Answer (.deleteIssue (UInt64.ofNat params.issueId))}
    (houtcome : DeletionOutcome env limits params (exchanges ++ [⟨_, answered⟩]) result)
    (himpact : ImpactRead limits params.issueId exchanges impact)
    (hconfirmed : Confirmed params impact) :
    DeletionRun env limits params (exchanges ++ [⟨_, answered⟩]) result where
  reads := by
    rw [List.dropLast_concat]
    exact fun exchange hmem =>
      ⟨himpact.isGet exchange hmem, himpact.succeeded exchange hmem⟩
  confirmed exchange hmem hwrites := by
    rw [List.dropLast_concat]
    rcases List.mem_append.mp hmem with hread | hlast
    · exact absurd (himpact.isGet exchange hread) hwrites
    · obtain rfl := List.mem_singleton.mp hlast
      exact ⟨rfl, impact, himpact, hconfirmed⟩
  outcome := houtcome

/-- The rest of the call, after the reads. -/
theorem ImpactRead.ensures_deleteAfterImpact {impact : DeleteImpactOut}
    (himpact : ImpactRead limits params.issueId exchanges impact) :
    (deleteAfterImpact env params impact).Ensures fun rest result =>
      DeletionRun env limits params (exchanges ++ rest) result := by
  have hstops : ∀ exchange ∈ exchanges.dropLast, Succeeded exchange :=
    fun exchange hmem => himpact.succeeded exchange (List.mem_of_mem_dropLast hmem)
  unfold deleteAfterImpact
  cases hrefusal : params.refusal impact with
  | some refusal =>
      refine ensures_done.mpr ?_
      rw [List.append_nil]
      refine DeletionOutcome.run_of_reads ?_ himpact.isGet hstops
      rcases refusal_eq_some hrefusal with
        ⟨hmissing, rfl⟩ | ⟨hissue, hchildren, hmissing, rfl⟩
      · exact .unconfirmed himpact hmissing
      · exact .subtasksUnconfirmed himpact hissue hchildren hmissing
  | none =>
      obtain ⟨hissue, hsubtasks⟩ :=
        DeleteRedmineIssueParams.refusal_eq_none_iff.mp hrefusal
      have hconfirmed : Confirmed params impact := ⟨hissue, hsubtasks⟩
      refine ensures_request.mpr ⟨fun e => ?_, fun body => ensures_done.mpr ?_⟩
      · have houtcome : DeletionOutcome env limits params _ _ :=
          .undeleted himpact hconfirmed e
        exact houtcome.run_of_deletion himpact hconfirmed
      · have houtcome : DeletionOutcome env limits params _ _ :=
          .deleted himpact hconfirmed
        exact houtcome.run_of_deletion himpact hconfirmed

theorem ensures_listSubtasks (parent : ℕ) :
    (listSubtasks limits parent).Ensures fun exchanges result =>
      PagesRead issues (subtasksQuery parent) limits limits.maxPages 0 [] exchanges
        (result.map Page.items) :=
  ensures_fetchPages

/-- Whatever Redmine answers, an issue is deleted only after everything that
would go with it has been read, and as confirmed. -/
theorem deletion_is_confirmed (env : ToolEnv) (limits : Limits)
    (params : DeleteRedmineIssueParams) :
    (deleteRedmineIssue env limits params).Ensures
      (DeletionRun env limits params) := by
  unfold deleteRedmineIssue
  cases hscoped : env.scopedClient with
  | error message =>
      refine ensures_done.mpr (DeletionOutcome.run_of_reads (.uncredentialed hscoped) ?_ ?_)
      · exact fun _ hmem => absurd hmem List.not_mem_nil
      · exact fun _ hmem => absurd hmem List.not_mem_nil
  | ok _ =>
      refine ensures_request.mpr ⟨fun e => ?_, fun issue => ?_⟩
      · refine DeletionOutcome.run_of_reads (.issueUnread e)
          (List.forall_mem_singleton.mpr rfl) ?_
        exact fun _ hmem => absurd hmem List.not_mem_nil
      refine ensures_andThen.mpr (Ensures.mono (ensures_listSubtasks _) ?_)
      intro pages middle hpages
      have hgets : ∀ exchange ∈ (⟨getIssueForDelete params.issueId, .ok issue⟩ ::
          pages : List (Exchange Answer)), IsGet exchange.1 :=
        List.forall_mem_cons.mpr ⟨rfl, hpages.isGet⟩
      have hfirst : ∀ exchange ∈
          ([⟨getIssueForDelete params.issueId, .ok issue⟩] : List (Exchange Answer)),
          Succeeded exchange :=
        List.forall_mem_singleton.mpr ⟨issue, rfl⟩
      cases middle with
      | error e =>
          refine ensures_done.mpr ?_
          rw [List.append_nil]
          exact DeletionOutcome.run_of_reads (.subtasksUnread hpages) hgets
            (succeeded_dropLast_append hfirst hpages.stops)
      | ok children =>
          refine ensures_call.mpr fun answered => ?_
          cases answered with
          | error e =>
              refine ensures_done.mpr (DeletionOutcome.run_of_reads
                (.timeEntriesUnread e hpages) ?_ ?_)
              · rw [← List.cons_append, List.forall_mem_append]
                exact ⟨hgets, List.forall_mem_singleton.mpr rfl⟩
              · rw [← List.cons_append, List.dropLast_concat]
                exact List.forall_mem_cons.mpr ⟨⟨issue, rfl⟩, hpages.succeeded⟩
          | ok timeEntries =>
              have himpact : ImpactRead limits params.issueId _
                  (deleteImpact issue children (Envelope.page timeEntries)) :=
                .read hpages
              refine Ensures.mono himpact.ensures_deleteAfterImpact
                fun rest result hrun => ?_
              rw [List.append_assoc] at hrun
              exact hrun

/-! ## Against a faithful listing -/

/-- A server that lists these subtasks of an issue, and can be asked for the
rest of the impact. -/
structure ListsSubtasks (server : ∀ call, Answer call) (issueId : ℕ)
    (children : Listing ℕ) (cap : ℕ) : Prop where
  issue : ∃ issue, server (getIssueForDelete issueId) = .ok issue
  subtasks : issues.endpoint server (subtasksQuery issueId) =
    children.cappedEndpoint cap
  timeEntries : ∃ envelope,
    server (.listTimeEntries (pageQuery (timeEntriesQuery issueId) 1 0)) =
      .ok envelope

/-- The subtasks that are read are none exactly when there are none. -/
theorem play_listSubtasks
    {server : ∀ call, Answer call} {issueId cap : ℕ} {children : Listing ℕ}
    (hserver : ListsSubtasks server issueId children cap)
    (hsize : 1 ≤ limits.pageSize) (hcap : 1 ≤ cap)
    (hpages : 1 ≤ limits.maxPages) :
    ∃ page, ((listSubtasks limits issueId).play server).2 = .ok page ∧
      (page.items.length = 0 ↔ children.items = []) := by
  have hstart : (Walk.start limits : Walk ℕ).Collected children :=
    ⟨Nat.zero_le _, rfl⟩
  obtain ⟨page, hpage, hends⟩ := fetchAllLoop_faithful (ε := RedmineError)
    children limits cap limits.maxPages hstart
  refine ⟨page, ?_, ?_⟩
  · rw [listSubtasks, fetchAllPages, play_fetchPages, hserver.subtasks]
    exact hpage
  · rw [hends.items, List.length_take]
    constructor
    · intro hnone
      by_contra hne
      have hpos : 0 < children.items.length := List.length_pos_iff.mpr hne
      have hmoved : (0 : ℕ) < page.offset :=
        hends.progress hpages (by omega) hpos
      omega
    · intro hnil
      rw [hnil]
      exact Nat.min_zero _

theorem play_listTimeEntriesPage
    {server : ∀ call, Answer call} {query : Query} {limit offset : ℕ}
    {envelope : Envelope TimeEntry}
    (hserver : server (.listTimeEntries (pageQuery query limit offset)) =
      .ok envelope) :
    ((listTimeEntriesPage query limit offset).play server).2 =
      .ok envelope.page := by
  have hsend : ((send (.listTimeEntries
      (pageQuery query limit offset))).play server).2 = .ok envelope := hserver
  rw [listTimeEntriesPage, play_afterSuccess hsend]
  rfl

theorem sendsOnly_listTimeEntriesPage (query : Query) (limit offset : ℕ) :
    (listTimeEntriesPage query limit offset).SendsOnly IsGet :=
  sendsOnly_afterSuccess (sendsOnly_send rfl) fun _ => sendsOnly_done IsGet _

theorem not_isGet_deleteIssue (id : UInt64) : ¬ IsGet (.deleteIssue id) := by
  rw [IsGet]
  exact fun hget => by cases hget

theorem mem_deleteAfterImpact (server : ∀ call, Answer call)
    (impact : DeleteImpactOut) :
    (∃ answered, (⟨.deleteIssue (UInt64.ofNat params.issueId), answered⟩ :
        Exchange Answer) ∈
          ((deleteAfterImpact env params impact).play server).1) ↔
      params.refusal impact = none := by
  unfold deleteAfterImpact
  cases params.refusal impact with
  | some refusal =>
      refine iff_of_false ?_ (Option.some_ne_none refusal)
      rintro ⟨answered, hmem⟩
      exact List.not_mem_nil hmem
  | none => exact iff_of_true ⟨_, List.mem_cons_self⟩ rfl

/-- When the reads succeed and the subtasks are listed faithfully, the issue is
deleted exactly when that is confirmed, and confirmed for the subtasks if
there are any. -/
theorem deleted_iff_confirmed
    (env : ToolEnv) (limits : Limits) (params : DeleteRedmineIssueParams)
    {server : ∀ call, Answer call} {children : Listing ℕ} {cap : ℕ}
    (hserver : ListsSubtasks server params.issueId children cap)
    (hscoped : env.scopedClient = .ok ()) (hsize : 1 ≤ limits.pageSize)
    (hcap : 1 ≤ cap) (hpages : 1 ≤ limits.maxPages) :
    (∃ answered, (⟨.deleteIssue (UInt64.ofNat params.issueId), answered⟩ :
        Exchange Answer) ∈ ((deleteRedmineIssue env limits params).play server).1) ↔
      params.confirmDelete = true ∧
        (children.items = [] ∨ params.confirmDeleteWithChildren = true) := by
  obtain ⟨issue, hissue⟩ := hserver.issue
  obtain ⟨envelope, henvelope⟩ := hserver.timeEntries
  obtain ⟨page, hpage, hnone⟩ := play_listSubtasks hserver hsize hcap hpages
  have hreads : ∀ exchange ∈
      ((listSubtasks limits params.issueId).play server).1, IsGet exchange.1 :=
    sendsOnly_fetchPages _ _
      (runs_play server (listSubtasks limits params.issueId))
  have hfirst : ∀ exchange ∈
      ((send (getIssueForDelete params.issueId)).play server).1,
      IsGet exchange.1 :=
    List.forall_mem_singleton.mpr rfl
  have hissue' : ((send (getIssueForDelete params.issueId)).play server).2 =
      .ok issue := hissue
  rw [deleteRedmineIssue, hscoped, argument, play_orToolError hissue',
    play_orToolError hpage, play_orToolError
      (play_listTimeEntriesPage henvelope)]
  trans (∃ answered,
    (⟨.deleteIssue (UInt64.ofNat params.issueId), answered⟩ :
      Exchange Answer) ∈ ((deleteAfterImpact env params
        (deleteImpact issue page envelope.page)).play server).1)
  · refine exists_congr fun answered => ?_
    have hnew {reads : List (Exchange Answer)}
        (hgets : ∀ exchange ∈ reads, IsGet exchange.1) :
        ⟨.deleteIssue (UInt64.ofNat params.issueId), answered⟩ ∉ reads :=
      fun hmem => not_isGet_deleteIssue _ (hgets _ hmem)
    rw [List.mem_append, List.mem_append, List.mem_append,
      or_iff_right (hnew hfirst),
      or_iff_right (hnew hreads), or_iff_right (hnew
        (sendsOnly_listTimeEntriesPage _ 1 0 _ _ (runs_play server _)))]
  · rw [mem_deleteAfterImpact, DeleteRedmineIssueParams.refusal_eq_none_iff]
    exact and_congr Iff.rfl (or_congr hnone Iff.rfl)

end Deletion

namespace Sample

def queryNumber (query : Query) (key : String) : ℕ :=
  ((query.get key).map fun text => Nat.ofDigitChars 10 text.toList 0).getD 0

theorem ofDigitChars_toString (n : ℕ) :
    Nat.ofDigitChars 10 (toString n).toList 0 = n := by
  rw [Nat.toString_eq_repr, Nat.toList_repr, Nat.ofDigitChars_ten_toDigits]

theorem queryNumber_pageQuery (query : Query) (limit offset : ℕ) :
    queryNumber (pageQuery query limit offset) "limit" = limit ∧
      queryNumber (pageQuery query limit offset) "offset" = offset := by
  constructor
  · rw [queryNumber, pageQuery, Query.get_insert, if_neg (by decide),
      Query.get_insert, if_pos rfl]
    exact ofDigitChars_toString limit
  · rw [queryNumber, pageQuery, Query.get_insert, if_pos rfl]
    exact ofDigitChars_toString offset

/-- A server with one issue, which has two subtasks. -/
def subtaskServer : ∀ call, Answer call
  | .getIssue _ _ => .ok ⟨some [], none, some []⟩
  | .listIssues query => Listing.cappedEndpoint ⟨[7, 8], by decide⟩ 100
      (queryNumber query "limit") (queryNumber query "offset")
  | .listTimeEntries _ => .ok ⟨[], 3, 0, 1⟩
  | _ => .error .notFound

theorem lists_subtasks :
    ListsSubtasks subtaskServer 5 ⟨[7, 8], by decide⟩ 100 where
  issue := ⟨_, rfl⟩
  subtasks := by
    funext limit offset
    obtain ⟨hlimit, hoffset⟩ :=
      queryNumber_pageQuery (subtasksQuery 5) limit offset
    change Except.map _ (Listing.cappedEndpoint _ _ (queryNumber _ _)
      (queryNumber _ _)) = _
    rw [hlimit, hoffset]
    rfl
  timeEntries := ⟨_, rfl⟩

theorem unconfirmed_subtasks_kept :
    (∃ answered, (⟨.deleteIssue (UInt64.ofNat 5), answered⟩ :
      Exchange Answer) ∈
        ((deleteRedmineIssue (toolEnv false) ⟨100, 20, 1000⟩
          ⟨5, true, false⟩).play subtaskServer).1) ↔
      true = true ∧ (([7, 8] : List ℕ) = [] ∨ false = true) :=
  deleted_iff_confirmed (toolEnv false) ⟨100, 20, 1000⟩ ⟨5, true, false⟩
    lists_subtasks rfl (by decide) (by decide) (by decide)

end Sample

end RuprogressMcp
