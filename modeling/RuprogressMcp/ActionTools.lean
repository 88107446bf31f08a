import RuprogressMcp.JsonDecode
import RuprogressMcp.ScopePolicy

/-!
# Tools with an action argument

The parameters of the seven tools whose scopes depend on an `action`, as their
derived deserializers read them, against the scope policy, which reads the
same argument as a string.  The two readers disagree on exactly one spelling:
a variant given as a single-entry map is an action to the tool and no action
to the policy, so the call goes through unchecked.
-/

namespace RuprogressMcp

/-! ## Shared parameter types -/

inductive ProjectRef where
  | id (n : ℕ)
  | identifier (s : String)
deriving DecidableEq

def ProjectRef.decode : Decoder ProjectRef :=
  Decode.untagged (fun value => (Decode.u64 value).map .id)
    (fun value => (Decode.string value).map .identifier)

structure NaiveDate where
  year : ℤ
  month : ℕ
  day : ℕ
deriving DecidableEq

/-- A date is read from a string; the parser is that of the date library. -/
def NaiveDate.decode (parseDate : String → Option NaiveDate) : Decoder NaiveDate :=
  fun value => (Decode.string value).bind parseDate

inductive CustomFieldValueInput where
  | single (s : String)
  | multiple (values : List String)
deriving DecidableEq

def CustomFieldValueInput.decode : Decoder CustomFieldValueInput :=
  Decode.untagged (fun value => (Decode.string value).map .single)
    (fun value => (Decode.vec Decode.string value).map .multiple)

structure CustomFieldEntry where
  id : ℕ
  value : CustomFieldValueInput
deriving DecidableEq

def CustomFieldEntry.decode : Decoder CustomFieldEntry := fun value => do
  let fields ← Decode.fields ["id", "value"] value
  let id ← Decode.required fields "id" Decode.u64
  let value ← Decode.required fields "value" CustomFieldValueInput.decode
  return ⟨id, value⟩

/-! ## Actions -/

inductive ManageTimeEntryAction where
  | create | update
deriving DecidableEq

def ManageTimeEntryAction.variants : UnitVariants ManageTimeEntryAction where
  all := [.create, .update]
  name
    | .create => "create"
    | .update => "update"
  complete a := by cases a <;> simp
  injective a b := by cases a <;> cases b <;> simp

inductive ManageIssueRelationAction where
  | list | create | delete
deriving DecidableEq

def ManageIssueRelationAction.variants : UnitVariants ManageIssueRelationAction where
  all := [.list, .create, .delete]
  name
    | .list => "list"
    | .create => "create"
    | .delete => "delete"
  complete a := by cases a <;> simp
  injective a b := by cases a <;> cases b <;> simp

inductive ManageIssueWatcherAction where
  | add | remove
deriving DecidableEq

def ManageIssueWatcherAction.variants : UnitVariants ManageIssueWatcherAction where
  all := [.add, .remove]
  name
    | .add => "add"
    | .remove => "remove"
  complete a := by cases a <;> simp
  injective a b := by cases a <;> cases b <;> simp

inductive ManageIssueNoteAction where
  | edit | setPrivate
deriving DecidableEq

def ManageIssueNoteAction.variants : UnitVariants ManageIssueNoteAction where
  all := [.edit, .setPrivate]
  name
    | .edit => "edit"
    | .setPrivate => "set_private"
  complete a := by cases a <;> simp
  injective a b := by cases a <;> cases b <;> simp

inductive ManageIssueCategoryAction where
  | list | create | update | delete
deriving DecidableEq

def ManageIssueCategoryAction.variants : UnitVariants ManageIssueCategoryAction where
  all := [.list, .create, .update, .delete]
  name
    | .list => "list"
    | .create => "create"
    | .update => "update"
    | .delete => "delete"
  complete a := by cases a <;> simp
  injective a b := by cases a <;> cases b <;> simp

inductive ManageWikiPageAction where
  | list | get | create | update | delete | rename
deriving DecidableEq

def ManageWikiPageAction.variants : UnitVariants ManageWikiPageAction where
  all := [.list, .get, .create, .update, .delete, .rename]
  name
    | .list => "list"
    | .get => "get"
    | .create => "create"
    | .update => "update"
    | .delete => "delete"
    | .rename => "rename"
  complete a := by cases a <;> simp
  injective a b := by cases a <;> cases b <;> simp

inductive ManageDocumentAction where
  | list | get | create | update
deriving DecidableEq

def ManageDocumentAction.variants : UnitVariants ManageDocumentAction where
  all := [.list, .get, .create, .update]
  name
    | .list => "list"
    | .get => "get"
    | .create => "create"
    | .update => "update"
  complete a := by cases a <;> simp
  injective a b := by cases a <;> cases b <;> simp

/-! ## Parameters -/

structure ManageTimeEntryParams where
  action : ManageTimeEntryAction
  hours : Option JsonNumber
  projectId : Option ProjectRef
  issueId : Option ℕ
  userId : Option ℕ
  timeEntryId : Option ℕ
  activityId : Option ℕ
  comments : Option String
  spentOn : Option NaiveDate
deriving DecidableEq

def ManageTimeEntryParams.decode (parseDate : String → Option NaiveDate)
    (args : JsonObject) : Option ManageTimeEntryParams := do
  let fields ← Decode.fields ["action", "hours", "project_id", "issue_id",
    "user_id", "time_entry_id", "activity_id", "comments", "spent_on"] (.obj args)
  let action ← Decode.required fields "action"
    (Decode.unitEnum ManageTimeEntryAction.variants)
  let hours ← Decode.optional fields "hours" Decode.f64
  let projectId ← Decode.optional fields "project_id" ProjectRef.decode
  let issueId ← Decode.optional fields "issue_id" Decode.u64
  let userId ← Decode.optional fields "user_id" Decode.u64
  let timeEntryId ← Decode.optional fields "time_entry_id" Decode.u64
  let activityId ← Decode.optional fields "activity_id" Decode.u64
  let comments ← Decode.optional fields "comments" Decode.string
  let spentOn ← Decode.optional fields "spent_on" (NaiveDate.decode parseDate)
  return ⟨action, hours, projectId, issueId, userId, timeEntryId, activityId,
    comments, spentOn⟩

structure ManageIssueRelationParams where
  action : ManageIssueRelationAction
  issueId : Option ℕ
  issueToId : Option ℕ
  relationId : Option ℕ
  relationType : Option String
  delay : Option ℤ
deriving DecidableEq

def ManageIssueRelationParams.decode (args : JsonObject) :
    Option ManageIssueRelationParams := do
  let fields ← Decode.fields ["action", "issue_id", "issue_to_id",
    "relation_id", "relation_type", "delay"] (.obj args)
  let action ← Decode.required fields "action"
    (Decode.unitEnum ManageIssueRelationAction.variants)
  let issueId ← Decode.optional fields "issue_id" Decode.u64
  let issueToId ← Decode.optional fields "issue_to_id" Decode.u64
  let relationId ← Decode.optional fields "relation_id" Decode.u64
  let relationType ← Decode.optional fields "relation_type" Decode.string
  let delay ← Decode.optional fields "delay" Decode.i64
  return ⟨action, issueId, issueToId, relationId, relationType, delay⟩

structure ManageIssueWatcherParams where
  action : ManageIssueWatcherAction
  issueId : ℕ
  userId : ℕ
deriving DecidableEq

def ManageIssueWatcherParams.decode (args : JsonObject) :
    Option ManageIssueWatcherParams := do
  let fields ← Decode.fields ["action", "issue_id", "user_id"] (.obj args)
  let action ← Decode.required fields "action"
    (Decode.unitEnum ManageIssueWatcherAction.variants)
  let issueId ← Decode.required fields "issue_id" Decode.u64
  let userId ← Decode.required fields "user_id" Decode.u64
  return ⟨action, issueId, userId⟩

structure ManageIssueNoteParams where
  action : ManageIssueNoteAction
  journalId : ℕ
  notes : Option String
  privateNotes : Option Bool
  isPrivate : Option Bool
deriving DecidableEq

def ManageIssueNoteParams.decode (args : JsonObject) :
    Option ManageIssueNoteParams := do
  let fields ← Decode.fields ["action", "journal_id", "notes", "private_notes",
    "is_private"] (.obj args)
  let action ← Decode.required fields "action"
    (Decode.unitEnum ManageIssueNoteAction.variants)
  let journalId ← Decode.required fields "journal_id" Decode.u64
  let notes ← Decode.optional fields "notes" Decode.string
  let privateNotes ← Decode.optional fields "private_notes" Decode.bool
  let isPrivate ← Decode.optional fields "is_private" Decode.bool
  return ⟨action, journalId, notes, privateNotes, isPrivate⟩

structure ManageIssueCategoryParams where
  action : ManageIssueCategoryAction
  projectId : Option ProjectRef
  categoryId : Option ℕ
  name : Option String
  assignedToId : Option ℕ
  reassignToId : Option ℕ
deriving DecidableEq

def ManageIssueCategoryParams.decode (args : JsonObject) :
    Option ManageIssueCategoryParams := do
  let fields ← Decode.fields ["action", "project_id", "category_id", "name",
    "assigned_to_id", "reassign_to_id"] (.obj args)
  let action ← Decode.required fields "action"
    (Decode.unitEnum ManageIssueCategoryAction.variants)
  let projectId ← Decode.optional fields "project_id" ProjectRef.decode
  let categoryId ← Decode.optional fields "category_id" Decode.u64
  let name ← Decode.optional fields "name" Decode.string
  let assignedToId ← Decode.optional fields "assigned_to_id" Decode.u64
  let reassignToId ← Decode.optional fields "reassign_to_id" Decode.u64
  return ⟨action, projectId, categoryId, name, assignedToId, reassignToId⟩

structure ManageRedmineWikiPageParams where
  action : ManageWikiPageAction
  projectId : ProjectRef
  wikiPageTitle : Option String
  version : Option ℕ
  includeAttachments : Option Bool
  text : Option String
  comments : Option String
  newTitle : Option String
  redirectExistingLinks : Option Bool
deriving DecidableEq

def ManageRedmineWikiPageParams.decode (args : JsonObject) :
    Option ManageRedmineWikiPageParams := do
  let fields ← Decode.fields ["action", "project_id", "wiki_page_title",
    "version", "include_attachments", "text", "comments", "new_title",
    "redirect_existing_links"] (.obj args)
  let action ← Decode.required fields "action"
    (Decode.unitEnum ManageWikiPageAction.variants)
  let projectId ← Decode.required fields "project_id" ProjectRef.decode
  let wikiPageTitle ← Decode.optional fields "wiki_page_title" Decode.string
  let version ← Decode.optional fields "version" Decode.u32
  let includeAttachments ←
    Decode.optional fields "include_attachments" Decode.bool
  let text ← Decode.optional fields "text" Decode.string
  let comments ← Decode.optional fields "comments" Decode.string
  let newTitle ← Decode.optional fields "new_title" Decode.string
  let redirectExistingLinks ←
    Decode.optional fields "redirect_existing_links" Decode.bool
  return ⟨action, projectId, wikiPageTitle, version, includeAttachments, text,
    comments, newTitle, redirectExistingLinks⟩

structure ManageDocumentParams where
  action : ManageDocumentAction
  projectId : Option ProjectRef
  folderId : Option ℕ
  limit : Option ℕ
  offset : Option ℕ
  documentId : Option ℕ
  contentBase64 : Option String
  filePath : Option String
  sourceUrl : Option String
  name : Option String
  title : Option String
  description : Option String
  comment : Option String
  version : Option String
  customFields : Option (List CustomFieldEntry)
deriving DecidableEq

def ManageDocumentParams.decode (args : JsonObject) :
    Option ManageDocumentParams := do
  let fields ← Decode.fields ["action", "project_id", "folder_id", "limit",
    "offset", "document_id", "content_base64", "file_path", "source_url",
    "name", "title", "description", "comment", "version", "custom_fields"]
    (.obj args)
  let action ← Decode.required fields "action"
    (Decode.unitEnum ManageDocumentAction.variants)
  let projectId ← Decode.optional fields "project_id" ProjectRef.decode
  let folderId ← Decode.optional fields "folder_id" Decode.u64
  let limit ← Decode.optional fields "limit" Decode.u32
  let offset ← Decode.optional fields "offset" Decode.u64
  let documentId ← Decode.optional fields "document_id" Decode.u64
  let contentBase64 ← Decode.optional fields "content_base64" Decode.string
  let filePath ← Decode.optional fields "file_path" Decode.string
  let sourceUrl ← Decode.optional fields "source_url" Decode.string
  let name ← Decode.optional fields "name" Decode.string
  let title ← Decode.optional fields "title" Decode.string
  let description ← Decode.optional fields "description" Decode.string
  let comment ← Decode.optional fields "comment" Decode.string
  let version ← Decode.optional fields "version" Decode.string
  let customFields ← Decode.optional fields "custom_fields"
    (Decode.vec CustomFieldEntry.decode)
  return ⟨action, projectId, folderId, limit, offset, documentId,
    contentBase64, filePath, sourceUrl, name, title, description, comment,
    version, customFields⟩

/-! ## The family -/

/-- The tools whose rule in the scope table depends on the action. -/
inductive ActionTool where
  | manageTimeEntry | manageIssueRelation | manageIssueWatcher | manageIssueNote
  | manageIssueCategory | manageRedmineWikiPage | manageDocument
deriving DecidableEq

def ActionTool.name : ActionTool → String
  | manageTimeEntry => "manage_time_entry"
  | manageIssueRelation => "manage_issue_relation"
  | manageIssueWatcher => "manage_issue_watcher"
  | manageIssueNote => "manage_issue_note"
  | manageIssueCategory => "manage_issue_category"
  | manageRedmineWikiPage => "manage_redmine_wiki_page"
  | manageDocument => "manage_document"

/-- The parameters that one of the tools was called with. -/
inductive ActionCall where
  | manageTimeEntry (params : ManageTimeEntryParams)
  | manageIssueRelation (params : ManageIssueRelationParams)
  | manageIssueWatcher (params : ManageIssueWatcherParams)
  | manageIssueNote (params : ManageIssueNoteParams)
  | manageIssueCategory (params : ManageIssueCategoryParams)
  | manageRedmineWikiPage (params : ManageRedmineWikiPageParams)
  | manageDocument (params : ManageDocumentParams)
deriving DecidableEq

/-- The serialized name of the action. -/
def ActionCall.action : ActionCall → String
  | manageTimeEntry params => ManageTimeEntryAction.variants.name params.action
  | manageIssueRelation params =>
      ManageIssueRelationAction.variants.name params.action
  | manageIssueWatcher params =>
      ManageIssueWatcherAction.variants.name params.action
  | manageIssueNote params => ManageIssueNoteAction.variants.name params.action
  | manageIssueCategory params =>
      ManageIssueCategoryAction.variants.name params.action
  | manageRedmineWikiPage params => ManageWikiPageAction.variants.name params.action
  | manageDocument params => ManageDocumentAction.variants.name params.action

/-- The extraction of a tool's parameters from the arguments of a call. -/
def ActionTool.extract (parseDate : String → Option NaiveDate)
    (tool : ActionTool) (args : JsonObject) : Option ActionCall :=
  match tool with
  | manageTimeEntry =>
      (ManageTimeEntryParams.decode parseDate args).map .manageTimeEntry
  | manageIssueRelation =>
      (ManageIssueRelationParams.decode args).map .manageIssueRelation
  | manageIssueWatcher =>
      (ManageIssueWatcherParams.decode args).map .manageIssueWatcher
  | manageIssueNote => (ManageIssueNoteParams.decode args).map .manageIssueNote
  | manageIssueCategory =>
      (ManageIssueCategoryParams.decode args).map .manageIssueCategory
  | manageRedmineWikiPage =>
      (ManageRedmineWikiPageParams.decode args).map .manageRedmineWikiPage
  | manageDocument => (ManageDocumentParams.decode args).map .manageDocument

/-! ## The two readers of the action -/

/-- The scopes that the table lists for an action of a tool. -/
def tableEntry (tool : ActionTool) (action : String) : Option (List String) :=
  match toolScopes.lookup tool.name with
  | some (.perAction actions) => actions.lookup action
  | _ => none

theorem ActionTool.extract_action
    {parseDate : String → Option NaiveDate} {tool : ActionTool}
    {args : JsonObject} {call : ActionCall}
    (hextract : tool.extract parseDate args = some call) :
    args.get "action" = some (.str call.action) ∨
      args.get "action" = some (.obj [(call.action, .null)]) := by
  cases tool with
  | manageTimeEntry =>
      obtain ⟨params, hdecode, rfl⟩ := Option.map_eq_some_iff.mp hextract
      refine Decode.tag_of_fields (fun params => params.action) ?_ hdecode
      intro fields action result hrest
      iterate 8 obtain ⟨_, -, hrest⟩ := Option.bind_eq_some_iff.mp hrest
      exact congrArg _ (Option.some.inj hrest).symm
  | manageIssueRelation =>
      obtain ⟨params, hdecode, rfl⟩ := Option.map_eq_some_iff.mp hextract
      refine Decode.tag_of_fields (fun params => params.action) ?_ hdecode
      intro fields action result hrest
      iterate 5 obtain ⟨_, -, hrest⟩ := Option.bind_eq_some_iff.mp hrest
      exact congrArg _ (Option.some.inj hrest).symm
  | manageIssueWatcher =>
      obtain ⟨params, hdecode, rfl⟩ := Option.map_eq_some_iff.mp hextract
      refine Decode.tag_of_fields (fun params => params.action) ?_ hdecode
      intro fields action result hrest
      iterate 2 obtain ⟨_, -, hrest⟩ := Option.bind_eq_some_iff.mp hrest
      exact congrArg _ (Option.some.inj hrest).symm
  | manageIssueNote =>
      obtain ⟨params, hdecode, rfl⟩ := Option.map_eq_some_iff.mp hextract
      refine Decode.tag_of_fields (fun params => params.action) ?_ hdecode
      intro fields action result hrest
      iterate 4 obtain ⟨_, -, hrest⟩ := Option.bind_eq_some_iff.mp hrest
      exact congrArg _ (Option.some.inj hrest).symm
  | manageIssueCategory =>
      obtain ⟨params, hdecode, rfl⟩ := Option.map_eq_some_iff.mp hextract
      refine Decode.tag_of_fields (fun params => params.action) ?_ hdecode
      intro fields action result hrest
      iterate 5 obtain ⟨_, -, hrest⟩ := Option.bind_eq_some_iff.mp hrest
      exact congrArg _ (Option.some.inj hrest).symm
  | manageRedmineWikiPage =>
      obtain ⟨params, hdecode, rfl⟩ := Option.map_eq_some_iff.mp hextract
      refine Decode.tag_of_fields (fun params => params.action) ?_ hdecode
      intro fields action result hrest
      iterate 8 obtain ⟨_, -, hrest⟩ := Option.bind_eq_some_iff.mp hrest
      exact congrArg _ (Option.some.inj hrest).symm
  | manageDocument =>
      obtain ⟨params, hdecode, rfl⟩ := Option.map_eq_some_iff.mp hextract
      refine Decode.tag_of_fields (fun params => params.action) ?_ hdecode
      intro fields action result hrest
      iterate 14 obtain ⟨_, -, hrest⟩ := Option.bind_eq_some_iff.mp hrest
      exact congrArg _ (Option.some.inj hrest).symm

theorem ActionTool.rule (tool : ActionTool) :
    ∃ actions, toolScopes.lookup tool.name = some (.perAction actions) := by
  cases tool <;> exact ⟨_, rfl⟩

theorem ActionTool.tableEntry_of_extract
    {parseDate : String → Option NaiveDate} {tool : ActionTool}
    {args : JsonObject} {call : ActionCall}
    (hextract : tool.extract parseDate args = some call) :
    ∃ scopes, tableEntry tool call.action = some scopes := by
  cases tool <;>
    (obtain ⟨params, -, rfl⟩ := Option.map_eq_some_iff.mp hextract
     obtain ⟨action⟩ := params
     cases action <;> exact ⟨_, rfl⟩)

theorem requiredForCall_actionTool (tool : ActionTool) (args : Option JsonObject) :
    requiredForCall tool.name args =
      match (actionStr args).bind (tableEntry tool) with
      | some scopes => .scopes scopes
      | none => .unchecked := by
  obtain ⟨actions, hrule⟩ := tool.rule
  have hupdate : tool.name ≠ "update_redmine_issue" := by cases tool <;> decide
  have hcreate : tool.name ≠ "create_redmine_issue" := by cases tool <;> decide
  unfold requiredForCall
  rw [if_neg hupdate, if_neg hcreate, hrule]
  cases haction : actionStr args with
  | none => rfl
  | some action =>
      simp only [Option.bind_some, tableEntry, hrule]
      cases actions.lookup action <;> rfl

/-! ## Enforcement -/

/-- The action that a call runs: it is dispatched and its parameters are
accepted. -/
def ActionTool.run (parseDate : String → Option NaiveDate) (enforcing : Bool)
    (held : Finset String) (tool : ActionTool) (args : JsonObject) :
    Option ActionCall :=
  match dispatchToolCall enforcing held tool.name (some args) with
  | .routed => tool.extract parseDate args
  | .denied _ => none

/-- The policy demands exactly the scopes listed for the action that the tool
reads, and only a token with these scopes, or the administrator's, gets it
run. -/
structure ActionTool.Enforced
    (parseDate : String → Option NaiveDate) (tool : ActionTool)
    (args : JsonObject) (call : ActionCall) : Prop where
  requirement : ∃ scopes, tableEntry tool call.action = some scopes ∧
    requiredForCall tool.name (some args) = .scopes scopes
  runs : ∀ held scopes, isAdmin held = false →
    tableEntry tool call.action = some scopes →
    tool.run parseDate true held args = some call →
    ∀ scope ∈ scopes, scope ∈ held

/-- An accepted call is held to the scopes of its action exactly when the
action is given as a string. -/
theorem perAction_enforced_iff
    (parseDate : String → Option NaiveDate) (tool : ActionTool)
    (args : JsonObject) (call : ActionCall)
    (hextract : tool.extract parseDate args = some call) :
    tool.Enforced parseDate args call ↔
      ∃ s, args.get "action" = some (.str s) := by
  have hrequired := requiredForCall_actionTool tool (some args)
  constructor
  · rintro ⟨⟨scopes, -, hscopes⟩, -⟩
    obtain hstr | hmap := ActionTool.extract_action hextract
    · exact ⟨_, hstr⟩
    · have hunchecked : requiredForCall tool.name (some args) = .unchecked := by
        rw [hrequired]
        simp [actionStr, hmap, Json.asStr]
      rw [hunchecked] at hscopes
      exact absurd hscopes (by simp)
  · rintro ⟨s, hs⟩
    have hname : s = call.action := by
      obtain hstr | hmap := ActionTool.extract_action hextract
      · rw [hs] at hstr
        simpa using hstr
      · rw [hs] at hmap
        simp at hmap
    obtain ⟨scopes, hentry⟩ := ActionTool.tableEntry_of_extract hextract
    have hscopes : requiredForCall tool.name (some args) = .scopes scopes := by
      rw [hrequired]
      simp [actionStr, hs, Json.asStr, hname, hentry]
    refine ⟨⟨scopes, hentry, hscopes⟩, ?_⟩
    intro held scopes' hadmin hentry' hrun
    rw [hentry, Option.some.injEq] at hentry'
    subst hentry'
    unfold ActionTool.run at hrun
    split at hrun
    · rename_i hrouted
      exact (dispatch_routed_iff_of_scopes hadmin hscopes).mp hrouted
    · exact absurd hrun (by simp)

namespace Sample

def noDates (_ : String) : Option NaiveDate := none

def deleteRelation : ActionCall :=
  .manageIssueRelation ⟨.delete, none, none, some 1, none, none⟩

def stringAction : JsonObject :=
  [("action", .str "delete"), ("relation_id", .num (.posInt 1))]

def mapAction : JsonObject :=
  [("action", .obj [("delete", .null)]), ("relation_id", .num (.posInt 1))]

theorem string_action_enforced :
    ActionTool.manageIssueRelation.extract noDates stringAction =
        some deleteRelation ∧
      (ActionTool.manageIssueRelation.Enforced noDates stringAction deleteRelation ↔
        ∃ s, stringAction.get "action" = some (.str s)) :=
  ⟨by decide +kernel,
    perAction_enforced_iff noDates .manageIssueRelation stringAction deleteRelation
      (by decide +kernel)⟩

/-- A token with no scope at all deletes a relation. -/
theorem map_action_unchecked :
    ActionTool.manageIssueRelation.extract noDates mapAction =
        some deleteRelation ∧
      requiredForCall "manage_issue_relation" (some mapAction) = .unchecked ∧
      tableEntry .manageIssueRelation deleteRelation.action =
        some ["manage_issue_relations"] ∧
      ActionTool.manageIssueRelation.run noDates true ∅ mapAction =
        some deleteRelation := by
  decide +kernel

end Sample

end RuprogressMcp
