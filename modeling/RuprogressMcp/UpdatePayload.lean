import RuprogressMcp.JsonEncode
import RuprogressMcp.IssueScopes
import RuprogressMcp.IssueUploads
import RuprogressMcp.CustomFieldWrites
import RuprogressMcp.UpdateReporting

/-!
# What an issue update puts on the wire

The patch of an accepted update, serialized: nineteen fields in three
representations, each with its skip rule.  What the object holds under a key
is compared with what the parameters ask for that field.
-/

namespace RuprogressMcp

/-! ## Serialization -/

/-- What the payload takes from libraries: the printed form of a date, and the
number that a floating point value is written as. -/
structure Printers where
  date : NaiveDate → String
  float : JsonNumber → JsonNumber

def serializeU64 (n : ℕ) : Json := .num (.posInt (UInt64.ofNat n))

def CustomFieldValue.serialize : CustomFieldValue → Json
  | .single (some s) => .str s
  | .single none => .null
  | .multiple values => .arr (values.map Json.str)

def CustomFieldWrite.serialize (write : CustomFieldWrite) : Json :=
  .obj [("id", serializeU64 write.id), ("value", write.value.serialize)]

def UploadRef.serialize (ref : UploadRef) : Json :=
  .obj (("token", .str ref.token) ::
    (ref.description.map fun text => ("description", Json.str text)).toList)

def FieldUpdate.isUnchanged {α : Type} : FieldUpdate α → Bool
  | .unchanged => true
  | _ => false

def FieldUpdate.serialize {α : Type} (encode : α → Json) :
    FieldUpdate α → Except String Json
  | .unchanged =>
      .error "FieldUpdate::Unchanged serialized without skip_serializing_if"
  | .clear => .ok (.str "")
  | .set value => .ok (encode value)

/-- A clearable field, skipped when it is unchanged. -/
def fieldUpdate {α : Type} (key : String) (encode : α → Json)
    (value : FieldUpdate α) : Encode.Field where
  key := key
  skip := value.isUnchanged
  value := value.serialize encode

inductive UpdateField where
  | subject | description | trackerId | statusId | priorityId | categoryId
  | fixedVersionId | assignedToId | parentIssueId | startDate | dueDate
  | doneRatio | estimatedHours | isPrivate | notes | privateNotes | uploads
  | tagList | customFields
deriving DecidableEq

namespace UpdateField

def all : List UpdateField :=
  [subject, description, trackerId, statusId, priorityId, categoryId,
    fixedVersionId, assignedToId, parentIssueId, startDate, dueDate, doneRatio,
    estimatedHours, isPrivate, notes, privateNotes, uploads, tagList,
    customFields]

def key : UpdateField → String
  | subject => "subject"
  | description => "description"
  | trackerId => "tracker_id"
  | statusId => "status_id"
  | priorityId => "priority_id"
  | categoryId => "category_id"
  | fixedVersionId => "fixed_version_id"
  | assignedToId => "assigned_to_id"
  | parentIssueId => "parent_issue_id"
  | startDate => "start_date"
  | dueDate => "due_date"
  | doneRatio => "done_ratio"
  | estimatedHours => "estimated_hours"
  | isPrivate => "is_private"
  | notes => "notes"
  | privateNotes => "private_notes"
  | uploads => "uploads"
  | tagList => "tag_list"
  | customFields => "custom_fields"

def clearable : UpdateField → Option ClearableField
  | categoryId => some .categoryId
  | fixedVersionId => some .fixedVersionId
  | assignedToId => some .assignedToId
  | parentIssueId => some .parentIssueId
  | startDate => some .startDate
  | dueDate => some .dueDate
  | estimatedHours => some .estimatedHours
  | _ => none

end UpdateField

namespace IssueUpdate

def field (printers : Printers) (patch : IssueUpdate) :
    UpdateField → Encode.Field
  | .subject => .option "subject" Json.str patch.subject
  | .description => .option "description" Json.str patch.description
  | .trackerId => .option "tracker_id" serializeU64 patch.trackerId
  | .statusId => .option "status_id" serializeU64 patch.statusId
  | .priorityId => .option "priority_id" serializeU64 patch.priorityId
  | .categoryId => fieldUpdate "category_id" serializeU64 patch.categoryId
  | .fixedVersionId =>
      fieldUpdate "fixed_version_id" serializeU64 patch.fixedVersionId
  | .assignedToId =>
      fieldUpdate "assigned_to_id" serializeU64 patch.assignedToId
  | .parentIssueId =>
      fieldUpdate "parent_issue_id" serializeU64 patch.parentIssueId
  | .startDate =>
      fieldUpdate "start_date" (fun date => .str (printers.date date))
        patch.startDate
  | .dueDate =>
      fieldUpdate "due_date" (fun date => .str (printers.date date))
        patch.dueDate
  | .doneRatio => .option "done_ratio" serializeU64 patch.doneRatio
  | .estimatedHours =>
      fieldUpdate "estimated_hours" (fun hours => .num (printers.float hours))
        patch.estimatedHours
  | .isPrivate => .option "is_private" Json.bool patch.isPrivate
  | .notes => .option "notes" Json.str patch.notes
  | .privateNotes => .option "private_notes" Json.bool patch.privateNotes
  | .uploads => .vec "uploads" UploadRef.serialize patch.uploads
  | .tagList =>
      .option "tag_list" (fun tags => .arr (tags.map Json.str)) patch.tagList
  | .customFields =>
      .option "custom_fields"
        (fun writes => .arr (writes.map CustomFieldWrite.serialize))
        patch.customFields

def serialize (printers : Printers) (patch : IssueUpdate) :
    Except String JsonObject :=
  Encode.record (UpdateField.all.map (patch.field printers))

/-- The body of the request: the patch under its one key. -/
def body (printers : Printers) (patch : IssueUpdate) : Except String Json :=
  (patch.serialize printers).map fun issue => .obj [("issue", .obj issue)]

end IssueUpdate

/-! ## Requests -/

section Requests

variable (env : UpdateEnv) (answers : UpdateAnswers) (prepared : PreparedUpdate)

/-- The core `PUT`s of an update, in the order they are sent. -/
def corePuts : List (Attempt × IssueUpdate) :=
  if prepared.hasCoreChange then
    (.first, prepared.patch) ::
      match updateIssue answers .first prepared.patch with
      | .ok _ => []
      | .error e =>
          match recovery env answers prepared e with
          | some (.retry merged _) => [(.second, retryPatch prepared merged)]
          | _ => []
  else []

/-- These are the writes that the core stage waits for. -/
theorem coreStage_accepted :
    (coreStage env answers prepared).2 =
      (corePuts env answers prepared).any fun put =>
        (answers.put put.1 put.2).accepted := by
  unfold coreStage corePuts
  cases prepared.hasCoreChange with
  | false =>
      cases answers.getIssue <;> rfl
  | true =>
      simp only [if_true]
      cases hfirst : updateIssue answers .first prepared.patch with
      | ok issue => simp
      | error e =>
          cases hrecovery : recovery env answers prepared e with
          | none => simp [hrecovery]
          | some decision =>
              cases decision with
              | giveUp result => simp [hrecovery]
              | retry merged fills =>
                  cases hsecond : updateIssue answers .second
                      (retryPatch prepared merged) with
                  | ok issue => simp [hrecovery, hsecond]
                  | error e => simp [hrecovery, hsecond]

end Requests

/-! ## What was asked -/

def numeral (n : ℕ) : Json := .num (.posInt (UInt64.ofNat n))

inductive ValueWritten : CustomFieldValue → Json → Prop where
  | text (s : String) : ValueWritten (.single (some s)) (.str s)
  | null : ValueWritten (.single none) .null
  | texts (values : List String) :
      ValueWritten (.multiple values) (.arr (values.map Json.str))

inductive FieldWritten : CustomFieldWrite → Json → Prop where
  | intro (id : ℕ) {value : CustomFieldValue} {json : Json}
      (hvalue : ValueWritten value json) :
      FieldWritten ⟨id, value⟩ (.obj [("id", numeral id), ("value", json)])

inductive RefWritten : UploadRef → Json → Prop where
  | plain (token : String) :
      RefWritten ⟨token, none⟩ (.obj [("token", .str token)])
  | described (token text : String) :
      RefWritten ⟨token, some text⟩
        (.obj [("token", .str token), ("description", .str text)])

/-- One object for each entry, with the id of the field that the entry names
and the entry's value. -/
def FieldsWritten (env : WriteEnv) (entries : List IssueCustomFieldEntry)
    (value : Json) : Prop :=
  ∃ defs writes objects,
    (∀ known, defs = some known → env.definitions = .ok known) ∧
      List.Forall₂ (Addresses env defs) entries writes ∧
      List.Forall₂ FieldWritten writes objects ∧ value = .arr objects

/-- One object for each item, with the token minted for what the item holds
and the item's description. -/
def UploadsWritten (source : UploadSource) (items : List IssueUploadParams)
    (value : Json) : Prop :=
  ∃ refs objects, MintedFor source 0 issueUploadsMaxTotalBytes items refs ∧
    List.Forall₂ RefWritten refs objects ∧ value = .arr objects

namespace UpdateRedmineIssueParams

/-- The parameters set the field.  An empty array of uploads or of custom
fields sets nothing. -/
def sets (params : UpdateRedmineIssueParams) : UpdateField → Bool
  | .subject => params.subject.isSome
  | .description => params.description.isSome
  | .trackerId => params.trackerId.isSome
  | .statusId => params.statusId.isSome
  | .priorityId => params.priorityId.isSome
  | .categoryId => params.categoryId.isSome
  | .fixedVersionId => params.fixedVersionId.isSome
  | .assignedToId => params.assignedToId.isSome
  | .parentIssueId => params.parentIssueId.isSome
  | .startDate => params.startDate.isSome
  | .dueDate => params.dueDate.isSome
  | .doneRatio => params.doneRatio.isSome
  | .estimatedHours => params.estimatedHours.isSome
  | .isPrivate => params.isPrivate.isSome
  | .notes => params.notes.isSome
  | .privateNotes => params.privateNotes.isSome
  | .uploads => !(params.uploads.getD []).isEmpty
  | .tagList => params.tagList.isSome
  | .customFields => !(params.customFields.getD []).isEmpty

def clears (params : UpdateRedmineIssueParams) (updated : UpdateField) : Bool :=
  updated.clearable.any fun field => decide (field ∈ params.clearFields.getD [])

/-- What the parameters give for a field with a value of its own. -/
def given (printers : Printers) (params : UpdateRedmineIssueParams) :
    UpdateField → Option Json
  | .subject => params.subject.map Json.str
  | .description => params.description.map Json.str
  | .trackerId => params.trackerId.map numeral
  | .statusId => params.statusId.map numeral
  | .priorityId => params.priorityId.map numeral
  | .categoryId => params.categoryId.map numeral
  | .fixedVersionId => params.fixedVersionId.map numeral
  | .assignedToId => params.assignedToId.map numeral
  | .parentIssueId => params.parentIssueId.map numeral
  | .startDate => params.startDate.map fun date => .str (printers.date date)
  | .dueDate => params.dueDate.map fun date => .str (printers.date date)
  | .doneRatio => params.doneRatio.map numeral
  | .estimatedHours =>
      params.estimatedHours.map fun hours => .num (printers.float hours)
  | .isPrivate => params.isPrivate.map Json.bool
  | .notes => params.notes.map Json.str
  | .privateNotes => params.privateNotes.map Json.bool
  | .tagList =>
      params.tagList.map fun tags => .arr (tags.map fun tag => .str (trim tag))
  | .uploads | .customFields => none

/-- The value that the parameters ask for under the key of a field. -/
def Asks (env : WriteEnv) (source : UploadSource) (printers : Printers)
    (params : UpdateRedmineIssueParams) (updated : UpdateField) (value : Json) :
    Prop :=
  params.given printers updated = some value ∨
    updated = .uploads ∧ UploadsWritten source (params.uploads.getD []) value ∨
    updated = .customFields ∧
      FieldsWritten env (params.customFields.getD []) value

end UpdateRedmineIssueParams

section Comparison

variable {params : UpdateRedmineIssueParams}

variable {env : WriteEnv} {source : UploadSource} {printers : Printers}
  {tagList : Option (List String)} {writes : Option (List CustomFieldWrite)}
  {refs : List UploadRef}

/-- What is sent for a field: an empty string that clears it, nothing, or what
was asked for. -/
inductive FieldSent (env : WriteEnv) (source : UploadSource)
    (printers : Printers) (params : UpdateRedmineIssueParams)
    (updated : UpdateField) : Option Json → Prop where
  | cleared (hclears : params.clears updated = true) :
      FieldSent env source printers params updated (some (.str ""))
  | unset (hkept : params.clears updated = false)
      (hunset : params.sets updated = false) :
      FieldSent env source printers params updated none
  | set {value : Json} (hkept : params.clears updated = false)
      (hset : params.sets updated = true)
      (hasks : params.Asks env source printers updated value)
      (hne : value ≠ .null) :
      FieldSent env source printers params updated (some value)

namespace FieldSent

variable {updated : UpdateField} {sent : Option Json}

theorem ne_null
    (hsent : FieldSent env source printers params updated sent) :
    sent ≠ some .null := by
  cases hsent with
  | cleared hclears => simp
  | unset hkept hunset => simp
  | set hkept hset hasks hne => exact fun hnull => hne (Option.some.inj hnull)

end FieldSent

end Comparison

namespace Sample

def printers : Printers where
  date date := toString date.year ++ "-" ++ toString date.month ++ "-" ++
    toString date.day
  float := id

end Sample

end RuprogressMcp
