import RuprogressMcp.ActionTools
import RuprogressMcp.WikiPaths

/-!
# Writing an issue

The parameters of `create_redmine_issue` and `update_redmine_issue` as their
derived deserializers read them, the checks that a call must pass before
anything is sent, and the payloads that are built from an accepted call.  What
the checks ask of the outside, the definitions of the project's custom fields
and the upload of files, is part of the environment.
-/

namespace RuprogressMcp

/-! ## Text -/

def trim (s : String) : String := String.ofList (RustText.trim s.toList)

/-! ## Values of custom fields and uploads -/

inductive CustomFieldValue where
  | single (value : Option String)
  | multiple (values : List String)
deriving DecidableEq

def CustomFieldValue.decode : Decoder CustomFieldValue :=
  Decode.untagged (fun value => (Decode.option Decode.string value).map .single)
    (fun value => (Decode.vec Decode.string value).map .multiple)

structure IssueCustomFieldEntry where
  id : Option ℕ
  name : Option String
  value : CustomFieldValue
deriving DecidableEq

def IssueCustomFieldEntry.decode : Decoder IssueCustomFieldEntry := fun value => do
  let fields ← Decode.fields ["id", "name", "value"] value
  let id ← Decode.optional fields "id" Decode.u64
  let name ← Decode.optional fields "name" Decode.string
  let value ← Decode.required fields "value" CustomFieldValue.decode
  return { id, name, value }

structure CustomFieldWrite where
  id : ℕ
  value : CustomFieldValue
deriving DecidableEq

structure IssueUploadParams where
  filename : Option String
  contentBase64 : Option String
  filePath : Option String
  sourceUrl : Option String
  description : Option String
deriving DecidableEq

def IssueUploadParams.decode : Decoder IssueUploadParams := fun value => do
  let fields ← Decode.fields ["filename", "content_base64", "file_path",
    "source_url", "description"] value
  let filename ← Decode.optional fields "filename" Decode.string
  let contentBase64 ← Decode.optional fields "content_base64" Decode.string
  let filePath ← Decode.optional fields "file_path" Decode.string
  let sourceUrl ← Decode.optional fields "source_url" Decode.string
  let description ← Decode.optional fields "description" Decode.string
  return ⟨filename, contentBase64, filePath, sourceUrl, description⟩

structure UploadRef where
  token : String
  description : Option String
deriving DecidableEq

/-! ## Parameters -/

inductive ClearableField where
  | assignedToId | categoryId | fixedVersionId | parentIssueId | startDate
  | dueDate | estimatedHours
deriving DecidableEq

def ClearableField.name : ClearableField → String
  | assignedToId => "assigned_to_id"
  | categoryId => "category_id"
  | fixedVersionId => "fixed_version_id"
  | parentIssueId => "parent_issue_id"
  | startDate => "start_date"
  | dueDate => "due_date"
  | estimatedHours => "estimated_hours"

def ClearableField.variants : UnitVariants ClearableField where
  all := [.assignedToId, .categoryId, .fixedVersionId, .parentIssueId,
    .startDate, .dueDate, .estimatedHours]
  name := ClearableField.name
  complete a := by cases a <;> simp
  injective a b := by cases a <;> cases b <;> simp [ClearableField.name]

structure UpdateRedmineIssueParams where
  issueId : ℕ
  subject : Option String
  description : Option String
  trackerId : Option ℕ
  statusId : Option ℕ
  priorityId : Option ℕ
  assignedToId : Option ℕ
  categoryId : Option ℕ
  fixedVersionId : Option ℕ
  parentIssueId : Option ℕ
  startDate : Option NaiveDate
  dueDate : Option NaiveDate
  doneRatio : Option ℕ
  estimatedHours : Option JsonNumber
  isPrivate : Option Bool
  notes : Option String
  privateNotes : Option Bool
  uploads : Option (List IssueUploadParams)
  storyPoints : Option (Option ℕ)
  agileSprintId : Option ℕ
  agilePosition : Option ℕ
  tagList : Option (List String)
  customFields : Option (List IssueCustomFieldEntry)
  clearFields : Option (List ClearableField)
deriving DecidableEq

def UpdateRedmineIssueParams.decode (parseDate : String → Option NaiveDate)
    (args : JsonObject) : Option UpdateRedmineIssueParams := do
  let fields ← Decode.fields ["issue_id", "subject", "description",
    "tracker_id", "status_id", "priority_id", "assigned_to_id", "category_id",
    "fixed_version_id", "parent_issue_id", "start_date", "due_date",
    "done_ratio", "estimated_hours", "is_private", "notes", "private_notes",
    "uploads", "story_points", "agile_sprint_id", "agile_position", "tag_list",
    "custom_fields", "clear_fields"] (.obj args)
  let issueId ← Decode.required fields "issue_id" Decode.u64
  let subject ← Decode.optional fields "subject" Decode.string
  let description ← Decode.optional fields "description" Decode.string
  let trackerId ← Decode.optional fields "tracker_id" Decode.u64
  let statusId ← Decode.optional fields "status_id" Decode.u64
  let priorityId ← Decode.optional fields "priority_id" Decode.u64
  let assignedToId ← Decode.optional fields "assigned_to_id" Decode.u64
  let categoryId ← Decode.optional fields "category_id" Decode.u64
  let fixedVersionId ← Decode.optional fields "fixed_version_id" Decode.u64
  let parentIssueId ← Decode.optional fields "parent_issue_id" Decode.u64
  let startDate ← Decode.optional fields "start_date" (NaiveDate.decode parseDate)
  let dueDate ← Decode.optional fields "due_date" (NaiveDate.decode parseDate)
  let doneRatio ← Decode.optional fields "done_ratio" Decode.u8
  let estimatedHours ← Decode.optional fields "estimated_hours" Decode.f64
  let isPrivate ← Decode.optional fields "is_private" Decode.bool
  let notes ← Decode.optional fields "notes" Decode.string
  let privateNotes ← Decode.optional fields "private_notes" Decode.bool
  let uploads ← Decode.optional fields "uploads"
    (Decode.vec IssueUploadParams.decode)
  let storyPoints ← Decode.doubleOption fields "story_points" Decode.u32
  let agileSprintId ← Decode.optional fields "agile_sprint_id" Decode.u64
  let agilePosition ← Decode.optional fields "agile_position" Decode.u32
  let tagList ← Decode.optional fields "tag_list" (Decode.vec Decode.string)
  let customFields ← Decode.optional fields "custom_fields"
    (Decode.vec IssueCustomFieldEntry.decode)
  let clearFields ← Decode.optional fields "clear_fields"
    (Decode.vec (Decode.unitEnum ClearableField.variants))
  return ⟨issueId, subject, description, trackerId, statusId, priorityId,
    assignedToId, categoryId, fixedVersionId, parentIssueId, startDate, dueDate,
    doneRatio, estimatedHours, isPrivate, notes, privateNotes, uploads,
    storyPoints, agileSprintId, agilePosition, tagList, customFields,
    clearFields⟩

structure CreateRedmineIssueParams where
  projectId : ProjectRef
  subject : String
  description : Option String
  trackerId : Option ℕ
  statusId : Option ℕ
  priorityId : Option ℕ
  assignedToId : Option ℕ
  categoryId : Option ℕ
  fixedVersionId : Option ℕ
  parentIssueId : Option ℕ
  startDate : Option NaiveDate
  dueDate : Option NaiveDate
  doneRatio : Option ℕ
  estimatedHours : Option JsonNumber
  isPrivate : Option Bool
  uploads : Option (List IssueUploadParams)
  tagList : Option (List String)
  customFields : Option (List IssueCustomFieldEntry)
deriving DecidableEq

def CreateRedmineIssueParams.decode (parseDate : String → Option NaiveDate)
    (args : JsonObject) : Option CreateRedmineIssueParams := do
  let fields ← Decode.fields ["project_id", "subject", "description",
    "tracker_id", "status_id", "priority_id", "assigned_to_id", "category_id",
    "fixed_version_id", "parent_issue_id", "start_date", "due_date",
    "done_ratio", "estimated_hours", "is_private", "uploads", "tag_list",
    "custom_fields"] (.obj args)
  let projectId ← Decode.required fields "project_id" ProjectRef.decode
  let subject ← Decode.required fields "subject" Decode.string
  let description ← Decode.optional fields "description" Decode.string
  let trackerId ← Decode.optional fields "tracker_id" Decode.u64
  let statusId ← Decode.optional fields "status_id" Decode.u64
  let priorityId ← Decode.optional fields "priority_id" Decode.u64
  let assignedToId ← Decode.optional fields "assigned_to_id" Decode.u64
  let categoryId ← Decode.optional fields "category_id" Decode.u64
  let fixedVersionId ← Decode.optional fields "fixed_version_id" Decode.u64
  let parentIssueId ← Decode.optional fields "parent_issue_id" Decode.u64
  let startDate ← Decode.optional fields "start_date" (NaiveDate.decode parseDate)
  let dueDate ← Decode.optional fields "due_date" (NaiveDate.decode parseDate)
  let doneRatio ← Decode.optional fields "done_ratio" Decode.u8
  let estimatedHours ← Decode.optional fields "estimated_hours" Decode.f64
  let isPrivate ← Decode.optional fields "is_private" Decode.bool
  let uploads ← Decode.optional fields "uploads"
    (Decode.vec IssueUploadParams.decode)
  let tagList ← Decode.optional fields "tag_list" (Decode.vec Decode.string)
  let customFields ← Decode.optional fields "custom_fields"
    (Decode.vec IssueCustomFieldEntry.decode)
  return ⟨projectId, subject, description, trackerId, statusId, priorityId,
    assignedToId, categoryId, fixedVersionId, parentIssueId, startDate, dueDate,
    doneRatio, estimatedHours, isPrivate, uploads, tagList, customFields⟩

/-! ## Checks before a write -/

theorem bind_eq_ok_iff
    {ε α β : Type} {x : Except ε α} {f : α → Except ε β} {result : β} :
    (x >>= f) = .ok result ↔ ∃ a, x = .ok a ∧ f a = .ok result := by
  cases x with
  | error e => simp [bind, Except.bind]
  | ok a => simp [bind, Except.bind]

/-- Why a call ends before anything is written. -/
inductive Refusal where
  | protocol (message : String)
  | inBand (result : CallToolResult)

/-- The validated form of a project reference; `{:?}` of a character and of a
string are parameters. -/
def resolveProjectRef (quoteChar : Char → String) (quote : String → String) :
    ProjectRef → Except String RedmineClient.ProjectIdent
  | .id n => .ok (.id (UInt64.ofNat n))
  | .identifier s =>
      match RedmineClient.ProjectIdentifier.fromStr s with
      | .ok slug => .ok (.identifier slug)
      | .error error => .error ("invalid configuration: " ++
          error.reason quoteChar quote)

/-- What the checks ask of the outside: the plugins of the deployment, the
comparison form of a field name, the debug forms of a string and of a
character, the custom fields of the project and the upload of
files. -/
structure WriteEnv where
  agile : Bool
  tags : Bool
  normalizeFieldName : String → String
  debugString : String → String
  debugChar : Char → String
  definitions : Except CallToolResult (List (ℕ × String))
  mintUploads : List IssueUploadParams → Except Refusal (List (UploadRef × ℕ))

def validateTag (env : WriteEnv) (tag : String) : Except Refusal String :=
  let trimmed := trim tag
  if trimmed = "" then
    .error (.protocol ("tag_list entry " ++ env.debugString tag ++
      " is empty after trimming"))
  else if trimmed.toList.contains ',' then
    .error (.protocol ("tag_list entry " ++ env.debugString trimmed ++
      " contains a comma; pass separate array entries instead of a " ++
      "comma-separated string"))
  else .ok trimmed

def validateTagList (env : WriteEnv) (tags : List String) :
    Except Refusal (List String) :=
  tags.mapM (validateTag env)

def validateEntryShape (entry : IssueCustomFieldEntry) : Except Refusal Unit :=
  match entry.id, entry.name with
  | some _, some _ => .error (.protocol
      "each custom_fields entry must give exactly one of id or name, not both")
  | none, none => .error (.protocol
      "each custom_fields entry must give exactly one of id or name")
  | _, _ => .ok ()

def resolveName (env : WriteEnv) (defs : List (ℕ × String)) (name : String) :
    Except Refusal ℕ :=
  let matching := defs.filter fun d =>
    env.normalizeFieldName d.2 == env.normalizeFieldName name
  match matching with
  | [] => .error (.protocol ("no issue custom field named " ++
      env.debugString name ++ " on this project; use " ++
      "list_project_issue_custom_fields to see the available fields, or " ++
      "address it by id"))
  | [single] => .ok single.1
  | multiple => .error (.protocol ("custom field name " ++
      env.debugString name ++ " is ambiguous on this project (ids " ++
      String.intercalate ", " (multiple.map fun d => toString d.1) ++
      "); address it by id instead"))

/-- The field that an entry names.  The definitions are absent when none were
fetched, and an entry of the wrong shape has been rejected before. -/
def entryId (env : WriteEnv) (defs : Option (List (ℕ × String)))
    (entry : IssueCustomFieldEntry) : Except Refusal ℕ :=
  match entry.id, entry.name with
  | some id, _ => .ok id
  | none, some name =>
      match defs with
      | some defs => resolveName env defs name
      | none => .error (.protocol ("internal error: a name entry requires " ++
          "definitions to be fetched first"))
  | none, none => .error (.protocol "")

def resolveEach (env : WriteEnv) (defs : Option (List (ℕ × String))) :
    List ℕ → List IssueCustomFieldEntry → Except Refusal (List CustomFieldWrite)
  | _, [] => .ok []
  | seenIds, entry :: rest => do
      let id ← entryId env defs entry
      if seenIds.contains id then
        .error (.protocol ("custom_fields has more than one entry for field id " ++
          toString id))
      else
        let out ← resolveEach env defs (seenIds ++ [id]) rest
        return ⟨id, entry.value⟩ :: out

/-- Every shape is checked before the first entry is resolved. -/
def resolveEntries (env : WriteEnv) (defs : Option (List (ℕ × String)))
    (entries : List IssueCustomFieldEntry) :
    Except Refusal (List CustomFieldWrite) := do
  entries.forM validateEntryShape
  resolveEach env defs [] entries

def needsDefinitions (entries : List IssueCustomFieldEntry) : Bool :=
  entries.any fun entry => entry.name.isSome

def resolveIssueCustomFields (env : WriteEnv)
    (entries : Option (List IssueCustomFieldEntry)) :
    Except Refusal (Option (List CustomFieldWrite)) :=
  match entries with
  | none => .ok none
  | some [] => .ok none
  | some entries => do
      entries.forM validateEntryShape
      let defs ←
        if needsDefinitions entries then
          (env.definitions.map some).mapError Refusal.inBand
        else .ok none
      return some (← resolveEntries env defs entries)

def resolveAndMintIssueUploads (env : WriteEnv)
    (uploads : Option (List IssueUploadParams)) :
    Except Refusal (List UploadRef × List ℕ) :=
  match uploads with
  | none => .ok ([], [])
  | some uploads =>
      if 10 < uploads.length then
        .error (.protocol "uploads accepts at most 10 items")
      else do
        let minted ← env.mintUploads uploads
        return (minted.map Prod.fst, minted.map Prod.snd)

/-! ## Payloads -/

inductive FieldUpdate (α : Type) where
  | unchanged
  | clear
  | set (value : α)
deriving DecidableEq

def FieldUpdate.fromOption {α : Type} : Option α → FieldUpdate α
  | some value => .set value
  | none => .unchanged

structure IssueUpdate where
  subject : Option String := none
  description : Option String := none
  trackerId : Option ℕ := none
  statusId : Option ℕ := none
  priorityId : Option ℕ := none
  categoryId : FieldUpdate ℕ := .unchanged
  fixedVersionId : FieldUpdate ℕ := .unchanged
  assignedToId : FieldUpdate ℕ := .unchanged
  parentIssueId : FieldUpdate ℕ := .unchanged
  startDate : FieldUpdate NaiveDate := .unchanged
  dueDate : FieldUpdate NaiveDate := .unchanged
  doneRatio : Option ℕ := none
  estimatedHours : FieldUpdate JsonNumber := .unchanged
  isPrivate : Option Bool := none
  notes : Option String := none
  privateNotes : Option Bool := none
  uploads : List UploadRef := []
  tagList : Option (List String) := none
  customFields : Option (List CustomFieldWrite) := none
deriving DecidableEq

structure AgileChange where
  storyPoints : Option (Option ℕ)
  agileSprintId : Option ℕ
  position : Option ℕ
deriving DecidableEq

structure IssueCreate where
  projectId : RedmineClient.ProjectIdent
  subject : String
  trackerId : Option ℕ
  statusId : Option ℕ
  priorityId : Option ℕ
  categoryId : Option ℕ
  fixedVersionId : Option ℕ
  description : Option String
  assignedToId : Option ℕ
  parentIssueId : Option ℕ
  startDate : Option NaiveDate
  dueDate : Option NaiveDate
  doneRatio : Option ℕ
  estimatedHours : Option JsonNumber
  isPrivate : Option Bool
  uploads : List UploadRef
  tagList : Option (List String)
  customFields : Option (List CustomFieldWrite)
deriving DecidableEq

def clearOr {α : Type} (clear : List ClearableField) (field : ClearableField)
    (value : Option α) : FieldUpdate α :=
  if field ∈ clear then .clear else FieldUpdate.fromOption value

namespace UpdateRedmineIssueParams

/-- The field also has a value of its own. -/
def isSet (params : UpdateRedmineIssueParams) : ClearableField → Bool
  | .assignedToId => params.assignedToId.isSome
  | .categoryId => params.categoryId.isSome
  | .fixedVersionId => params.fixedVersionId.isSome
  | .parentIssueId => params.parentIssueId.isSome
  | .startDate => params.startDate.isSome
  | .dueDate => params.dueDate.isSome
  | .estimatedHours => params.estimatedHours.isSome

def updateClearConflict (params : UpdateRedmineIssueParams) :
    Option ClearableField :=
  params.clearFields.bind fun clear => clear.find? params.isSet

def updateHasCoreChange (params : UpdateRedmineIssueParams) : Bool :=
  params.subject.isSome || params.description.isSome ||
    params.trackerId.isSome || params.statusId.isSome ||
    params.priorityId.isSome || params.assignedToId.isSome ||
    params.categoryId.isSome || params.fixedVersionId.isSome ||
    params.parentIssueId.isSome || params.startDate.isSome ||
    params.dueDate.isSome || params.doneRatio.isSome ||
    params.estimatedHours.isSome || params.isPrivate.isSome ||
    params.notes.isSome || params.tagList.isSome ||
    !(params.clearFields.getD []).isEmpty || !(params.uploads.getD []).isEmpty ||
    !(params.customFields.getD []).isEmpty

def agileChange (params : UpdateRedmineIssueParams) : AgileChange where
  storyPoints := params.storyPoints
  agileSprintId := params.agileSprintId
  position := params.agilePosition

end UpdateRedmineIssueParams

/-- One of the agile fields changes. -/
def AgileChange.isSome (change : AgileChange) : Bool :=
  change.storyPoints.isSome || change.agileSprintId.isSome ||
    change.position.isSome

/-- An accepted update, ready to be sent. -/
structure PreparedUpdate where
  issueId : ℕ
  patch : IssueUpdate
  agileChange : AgileChange
  hasCoreChange : Bool
  attachmentIds : List ℕ

/-- The patch that an update sends, from its parameters, its checked tags and
custom fields, and the minted uploads. -/
def buildPatch (params : UpdateRedmineIssueParams)
    (tagList : Option (List String))
    (customFields : Option (List CustomFieldWrite)) (uploads : List UploadRef) :
    IssueUpdate :=
  let clear := params.clearFields.getD []
  { subject := params.subject
    description := params.description
    trackerId := params.trackerId
    statusId := params.statusId
    priorityId := params.priorityId
    categoryId := clearOr clear .categoryId params.categoryId
    fixedVersionId := clearOr clear .fixedVersionId params.fixedVersionId
    assignedToId := clearOr clear .assignedToId params.assignedToId
    parentIssueId := clearOr clear .parentIssueId params.parentIssueId
    startDate := clearOr clear .startDate params.startDate
    dueDate := clearOr clear .dueDate params.dueDate
    doneRatio := params.doneRatio
    estimatedHours := clearOr clear .estimatedHours params.estimatedHours
    isPrivate := params.isPrivate
    notes := params.notes
    privateNotes := params.privateNotes
    uploads := uploads
    tagList := tagList
    customFields := customFields }

/-- The part of `update_redmine_issue` before its first write. -/
def prepareUpdate (env : WriteEnv) (params : UpdateRedmineIssueParams) :
    Except Refusal PreparedUpdate := do
  if params.notes = some "" then
    throw (.protocol
      "notes must not be an empty string; omit the field to add no note")
  if let some field := params.updateClearConflict then
    throw (.protocol (field.name ++
      " is both set and named in clear_fields; pass a value to set it or " ++
      "name it to clear it, not both"))
  let hasAgileChange := params.agileChange.isSome
  if !params.updateHasCoreChange && !hasAgileChange then
    throw (.protocol "at least one field to change, or notes, must be given")
  if hasAgileChange && !env.agile then
    throw (.inBand (err .misconfigured
      ("story_points/agile_sprint_id/agile_position require the RedmineUP " ++
        "Agile plugin")
      (some "set REDMINE_AGILE_ENABLED=true, or omit these parameters")))
  if params.tagList.isSome && !env.tags then
    throw (.inBand (err .misconfigured
      "tag_list requires the AlphaNodes additional_tags plugin"
      (some "set REDMINE_TAGS_ENABLED=true, or omit tag_list")))
  let tagList ← params.tagList.mapM (validateTagList env)
  let customFields ← resolveIssueCustomFields env params.customFields
  let (uploads, attachmentIds) ← resolveAndMintIssueUploads env params.uploads
  return {
    issueId := params.issueId
    patch := buildPatch params tagList customFields uploads
    agileChange := params.agileChange
    hasCoreChange := params.updateHasCoreChange
    attachmentIds := attachmentIds }

/-- The part of `create_redmine_issue` before its write. -/
def prepareCreate (env : WriteEnv) (params : CreateRedmineIssueParams) :
    Except Refusal IssueCreate := do
  if trim params.subject = "" then
    throw (.protocol "subject must not be empty")
  if params.tagList.isSome && !env.tags then
    throw (.inBand (err .misconfigured
      "tag_list requires the AlphaNodes additional_tags plugin"
      (some "set REDMINE_TAGS_ENABLED=true, or omit tag_list")))
  let tagList ← params.tagList.mapM (validateTagList env)
  let projectId ← (resolveProjectRef env.debugChar env.debugString
    params.projectId).mapError .protocol
  let customFields ← resolveIssueCustomFields env params.customFields
  let (uploads, _) ← resolveAndMintIssueUploads env params.uploads
  return {
    projectId
    subject := params.subject
    trackerId := params.trackerId
    statusId := params.statusId
    priorityId := params.priorityId
    categoryId := params.categoryId
    fixedVersionId := params.fixedVersionId
    description := params.description
    assignedToId := params.assignedToId
    parentIssueId := params.parentIssueId
    startDate := params.startDate
    dueDate := params.dueDate
    doneRatio := params.doneRatio
    estimatedHours := params.estimatedHours
    isPrivate := params.isPrivate
    uploads
    tagList
    customFields }

end RuprogressMcp
