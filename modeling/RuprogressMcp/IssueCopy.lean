import RuprogressMcp.RequiredFields
import RuprogressMcp.BoundedLoops

/-!
# Copying an issue with its subtasks

`copy_issue` copies the root and then works through a queue of copied issues,
listing the children of each and copying them one by one, down to a depth and
up to a total.  The report says how many subtasks were copied and whether the
copy is truncated.
-/

namespace RuprogressMcp

/-- The fields of a source issue that a copy reads. -/
structure SourceIssue where
  id : ℕ
  projectId : ℕ
  subject : String
  trackerId : ℕ
  priorityId : ℕ
  categoryId : Option ℕ
  fixedVersionId : Option ℕ
  description : Option String
  assignedToId : Option ℕ
  startDate : Option NaiveDate
  dueDate : Option NaiveDate
  doneRatio : Option ℕ
  estimatedHours : Option JsonNumber
  isPrivate : Option Bool
deriving DecidableEq

structure CopyIssueParams where
  issueId : ℕ
  projectId : Option ProjectRef
  subject : Option String
  linkOriginal : Bool
  copySubtasks : Bool
  assignedToId : Option ℕ
  trackerId : Option ℕ
  priorityId : Option ℕ
  categoryId : Option ℕ
  fixedVersionId : Option ℕ
  description : Option String
deriving DecidableEq

/-- The answers to the requests of a copy.  An issue is listed and copied by
one request each at most, so the source issue tells which request it is. -/
structure CopyAnswers where
  getIssue : Except RedmineError SourceIssue
  listSubtasks : ℕ → Except RedmineError (List SourceIssue)
  createIssue : ℕ → Except RedmineError ℕ

def copyMaxTotal : ℕ := 50

def copyMaxDepth : ℕ := 5

def rootCreate (params : CopyIssueParams) (target : RedmineClient.ProjectIdent)
    (source : SourceIssue) : IssueCreate where
  projectId := target
  subject := params.subject.getD source.subject
  trackerId := some (params.trackerId.getD source.trackerId)
  statusId := none
  priorityId := some (params.priorityId.getD source.priorityId)
  categoryId := params.categoryId <|> source.categoryId
  fixedVersionId := params.fixedVersionId <|> source.fixedVersionId
  description := params.description <|> source.description
  assignedToId := params.assignedToId <|> source.assignedToId
  parentIssueId := none
  startDate := source.startDate
  dueDate := source.dueDate
  doneRatio := source.doneRatio
  estimatedHours := source.estimatedHours
  isPrivate := source.isPrivate
  uploads := []
  tagList := none
  customFields := none

def childCreate (target : RedmineClient.ProjectIdent) (newParent : ℕ) (child : SourceIssue) :
    IssueCreate where
  projectId := target
  subject := child.subject
  trackerId := some child.trackerId
  statusId := none
  priorityId := some child.priorityId
  categoryId := child.categoryId
  fixedVersionId := child.fixedVersionId
  description := child.description
  assignedToId := child.assignedToId
  parentIssueId := some newParent
  startDate := child.startDate
  dueDate := child.dueDate
  doneRatio := child.doneRatio
  estimatedHours := child.estimatedHours
  isPrivate := child.isPrivate
  uploads := []
  tagList := none
  customFields := none

/-! ## The queue -/

/-- An issue that was created: its source, its id and what was sent. -/
structure Copy where
  source : ℕ
  id : ℕ
  create : IssueCreate
deriving DecidableEq

/-- A copied issue whose children are still to be listed. -/
structure Pending where
  source : ℕ
  newParent : ℕ
  depth : ℕ
deriving DecidableEq

/-- The variables of the loop, with the created issues beside them. -/
structure CopyState where
  queue : List Pending
  created : List Copy
  subtasksCopied : ℕ
  subtasksTruncated : Bool
  totalCreated : ℕ
deriving DecidableEq

/-- A child was created: it is counted and its own children come later. -/
def CopyState.add (state : CopyState) (target : RedmineClient.ProjectIdent) (parent : Pending)
    (child : SourceIssue) (id : ℕ) : CopyState where
  queue := state.queue ++
    [{ source := child.id, newParent := id, depth := parent.depth + 1 }]
  created := state.created ++
    [{ source := child.id
       id := id
       create := childCreate target parent.newParent child }]
  subtasksCopied := state.subtasksCopied + 1
  subtasksTruncated := state.subtasksTruncated
  totalCreated := state.totalCreated + 1

def CopyState.truncate (state : CopyState) : CopyState :=
  { state with subtasksTruncated := true }

section Loop

variable (answers : CopyAnswers) (target : RedmineClient.ProjectIdent)

/-- Go through the children of an issue; the flag leaves the outer loop. -/
def copyChildren (parent : Pending) :
    List SourceIssue → CopyState → CopyState × Bool
  | [], state => (state, false)
  | child :: rest, state =>
      if copyMaxTotal ≤ state.totalCreated then (state.truncate, true)
      else
        match answers.createIssue child.id with
        | .ok id =>
            copyChildren parent rest (state.add target parent child id)
        | .error _ => copyChildren parent rest state.truncate

def copyBody (state : CopyState) : CopyState ⊕ CopyState :=
  match state.queue with
  | [] => .inl state
  | parent :: queue =>
      let state := { state with queue := queue }
      if copyMaxDepth ≤ parent.depth then .inr state.truncate
      else
        match answers.listSubtasks parent.source with
        | .error _ => .inr state.truncate
        | .ok children =>
            match copyChildren answers target parent children state with
            | (next, true) => .inl next
            | (next, false) => .inr next

def CopyState.start (root newRoot : ℕ) : CopyState where
  queue := [{ source := root, newParent := newRoot, depth := 0 }]
  created := []
  subtasksCopied := 0
  subtasksTruncated := false
  totalCreated := 1

def copySubtasks (root newRoot : ℕ) : Option CopyState :=
  Loop.run (copyBody answers target) (2 * copyMaxTotal)
    (CopyState.start root newRoot)

end Loop

/-! ## The tool -/

/-- The report with the new issue as it was sent, and the issues that were
created below it. -/
structure CopyIssueOutput where
  success : Bool
  issue : Copy
  subtasksCopied : ℕ
  subtasksTruncated : Bool
  created : List Copy
deriving DecidableEq

/-- The project of the copy. -/
def copyTarget (env : WriteEnv) (params : CopyIssueParams)
    (source : SourceIssue) : Except Refusal RedmineClient.ProjectIdent :=
  match params.projectId with
  | some project =>
      (resolveProjectRef env.debugChar env.debugString project).mapError .protocol
  | none => .ok (.id (UInt64.ofNat source.projectId))

/-- The call; `none` is a copy that still runs.  A failure to link the copy
to its original is ignored, so linking leaves no trace here. -/
def copyIssue (env : WriteEnv) (displayStatus : ℕ → String)
    (answers : CopyAnswers) (params : CopyIssueParams) :
    Option (Except Refusal CopyIssueOutput) :=
  match answers.getIssue with
  | .error e => some (.error (.inBand (toToolError displayStatus e)))
  | .ok source =>
      match copyTarget env params source with
      | .error refusal => some (.error refusal)
      | .ok target =>
          match answers.createIssue params.issueId with
          | .error e => some (.error (.inBand (toToolError displayStatus e)))
          | .ok newRoot =>
              let root : Copy :=
                { source := params.issueId
                  id := newRoot
                  create := rootCreate params target source }
              if params.copySubtasks then
                (copySubtasks answers target params.issueId newRoot).map
                  fun state => .ok
                    { success := true
                      issue := root
                      subtasksCopied := state.subtasksCopied
                      subtasksTruncated := state.subtasksTruncated
                      created := state.created }
              else
                some (.ok
                  { success := true
                    issue := root
                    subtasksCopied := 0
                    subtasksTruncated := false
                    created := [] })

end RuprogressMcp
