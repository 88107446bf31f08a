import RuprogressMcp.RequestPrograms
import RuprogressMcp.RedmineApi
import RuprogressMcp.UploadFiles
import RuprogressMcp.RedminePages
import RuprogressMcp.TimeImport

/-!
# Tools as programs that send requests

A tool checks its arguments, sends requests through the client, and turns a
failed request into an error result.  What it writes is the result of its
program, a protocol error or a result of the call.  The rules below are about
the two ways to go on: from an argument, and from an answer.
-/

namespace RuprogressMcp

open RedmineClient RequestProgram

/-! ## What Redmine answers -/

def CustomFieldValueInput.toWrite : CustomFieldValueInput → CustomFieldValue
  | .single s => .single (some s)
  | .multiple values => .multiple values

structure IssueRelation where
  id : ℕ
  issueId : ℕ
  issueToId : ℕ
  relationType : String
  delay : Option ℤ

structure IssueCategory where
  id : ℕ
  project : Option IdName
  name : String
  assignedTo : Option IdName

structure AttachmentInfo where
  id : ℕ
  filename : String
  filesize : ℕ
  contentType : Option String
  description : Option String
  contentUrl : String
  author : Option IdName
  createdOn : ℤ

/-- A wiki page; `parent` is the title of the parent page. -/
structure WikiPage where
  title : String
  text : Option String
  version : ℕ
  author : Option IdName
  comments : Option String
  parent : Option String
  project : Option IdName
  createdOn : ℤ
  updatedOn : Option ℤ
  attachments : Option (List AttachmentInfo)

structure WikiPageListItem where
  title : String
  parent : Option String
  version : ℕ
  createdOn : ℤ
  updatedOn : Option ℤ

structure CustomField where
  id : ℕ
  name : String
  value : Option CustomFieldValue

structure Product where
  id : ℕ
  name : String
  description : Option String
  code : Option String
  price : Option JsonNumber
  currency : Option String
  statusId : Option ℕ
  categoryId : Option ℕ
  projectId : Option ℕ
  tagList : Option (List String)
  customFields : Option (List CustomField)
  createdOn : Option ℤ
  updatedOn : Option ℤ

structure ContactAddress where
  street1 : Option String
  street2 : Option String
  city : Option String
  region : Option String
  country : Option String
  postcode : Option String

structure Contact where
  id : ℕ
  firstName : Option String
  lastName : Option String
  middleName : Option String
  company : Option String
  jobTitle : Option String
  phone : Option String
  email : Option String
  website : Option String
  skypeName : Option String
  birthday : Option String
  background : Option String
  address : Option ContactAddress
  isCompany : Option Bool
  tags : Option (List String)
  visibility : Option ℕ
  assignedTo : Option IdName
  createdOn : Option ℤ
  updatedOn : Option ℤ

structure DmsfNode where
  id : ℕ
  kind : Option String
  filename : Option String
  title : Option String
  name : Option String
  description : Option String
  version : Option String
  size : Option ℕ
  contentType : Option String
  folderId : Option ℕ
  projectId : Option ℕ
  author : Option IdName
  createdOn : Option ℤ
  updatedOn : Option ℤ

structure DmsfListEnvelope where
  nodes : List DmsfNode
  totalCount : Option ℕ

/-- The parts of an issue that deleting it would take along, as far as they
were asked for. -/
structure IssueDetail where
  journals : Option (List Json)
  attachments : Option (List AttachmentInfo)
  relations : Option (List IssueRelation)

/-- What the body of a successful response is read as. -/
def Body : ApiCall → Type
  | .getIssue _ _ => IssueDetail
  | .listIssues _ => Envelope ℕ
  | .listTimeEntries _ => Envelope TimeEntry
  | .listRelations _ => List IssueRelation
  | .createRelation _ _ => IssueRelation
  | .listIssueCategories _ => List IssueCategory
  | .getIssueCategory _ | .createIssueCategory _ _ => IssueCategory
  | .listWikiPages _ => List WikiPageListItem
  | .getWikiPage _ _ _ _ => WikiPage
  | .listProducts _ _ => Envelope Product
  | .getProduct _ | .createProduct _ => Product
  | .listContacts _ => Envelope Contact
  | .getContact _ _ | .createContact _ => Contact
  | .getAttachment _ => AttachmentInfo
  | .createUpload _ _ => Upload
  | .listDmsfNodes _ _ => DmsfListEnvelope
  | .getDmsfFile _ => Option DmsfNode
  | .commitDmsfUpload _ _ => List DmsfNode
  | .updateIssue _ _ | .deleteIssue _ | .deleteRelation _ | .addWatcher _ _
  | .removeWatcher _ _ | .updateJournal _ _ | .updateIssueCategory _ _
  | .deleteIssueCategory _ _ | .updateChecklistItem _ _ | .updateProduct _ _
  | .updateContact _ _ | .deleteContact _ | .assignContactToProject _ _
  | .removeContactFromProject _ _ | .updateTimeEntry _ _ | .updateVersion _ _
  | .deleteVersion _ | .updateMembership _ _ | .deleteMembership _
  | .writeWikiPage _ _ _ | .deleteWikiPage _ _ | .deleteAttachment _
  | .createProjectFile _ _ | .createDmsfRevision _ _ => Unit
  | _ => Json

/-- The outcome of a request for the client. -/
abbrev Answer (call : ApiCall) : Type := Except RedmineError (Body call)

/-- A method of the client. -/
abbrev ClientProgram (α : Type) : Type :=
  RequestProgram ApiCall Answer (Except RedmineError α)

/-- A tool: a protocol error, or the result of the call. -/
abbrev ToolProgram : Type :=
  RequestProgram ApiCall Answer (Except String CallToolResult)

/-! ## Tools -/

/-- What the tools take from the server and from libraries.  `scopedClient`
is the outcome of finding the credential of the call, `rewrite` is applied to
the URLs of attachments, and `readUpload` reads the file of a path. -/
structure ToolEnv where
  readOnly : Bool
  caps : OutputCaps
  scopedClient : Except String Unit
  boundary : Fence.Boundary
  displayStatus : ℕ → String
  quoteChar : Char → String
  quote : String → String
  printers : TimePrinters
  rewrite : String → String
  engine : Base64Engine
  readUpload : String → Except CallToolResult (Bytes × Option String)

def ToolEnv.resolveRef (env : ToolEnv) : ProjectRef → Except String ProjectIdent :=
  resolveProjectRef env.quoteChar env.quote

/-- `resolve_project_ref` under `map` and `transpose`. -/
def ToolEnv.resolveOptionalRef (env : ToolEnv) :
    Option ProjectRef → Except String (Option ProjectIdent)
  | some ref => (env.resolveRef ref).map some
  | none => .ok none

namespace Tool

def send (call : ApiCall) : ClientProgram (Body call) := .call call .done

/-- A request that goes on only when an earlier one has succeeded. -/
def afterSuccess {α β : Type} (program : ClientProgram α)
    (next : α → ClientProgram β) : ClientProgram β :=
  program.andThen fun
    | .ok a => next a
    | .error e => .done (.error e)

/-- An argument that is checked before anything is sent. -/
def argument {α : Type} (check : Except String α) (next : α → ToolProgram) :
    ToolProgram :=
  match check with
  | .ok a => next a
  | .error message => .done (.error message)

/-- The result of a client method, or the error result of its failure. -/
def orToolError {α : Type} (env : ToolEnv) (program : ClientProgram α)
    (next : α → ToolProgram) : ToolProgram :=
  program.andThen fun
    | .ok a => next a
    | .error e => .done (.ok (toToolError env.displayStatus e))

def answer (result : CallToolResult) : ToolProgram := .done (.ok result)

def required {α : Type} (message : String) : Option α → Except String α
  | some a => .ok a
  | none => .error message

def requiredFor {α : Type} (field action : String) (value : Option α) :
    Except String α :=
  required (field ++ " is required for action=\"" ++ action ++ "\"") value

def readOnlyRefusal (tool action instead : String) : CallToolResult :=
  err .readOnly
    ("this server is running in read-only mode; " ++ tool ++ "(action=\"" ++
      action ++ "\") is disabled")
    (some ("use " ++ instead ++
      " instead, or ask the operator to disable read-only mode"))

/-- A write is refused in read-only mode before its arguments are read. -/
def unlessReadOnly (env : ToolEnv) (refusal : CallToolResult)
    (write : ToolProgram) : ToolProgram :=
  if env.readOnly then answer refusal else write

/-! ## Values -/

def optionalField {α : Type} (key : String) (toValue : α → Json) :
    Option α → List (String × Json)
  | some a => [(key, toValue a)]
  | none => []

def integer (n : ℤ) : Json :=
  if 0 ≤ n then Pagination.number n.toNat else .num (.negInt (Int64.ofInt n))

def textList (texts : List String) : Json := .arr (texts.map Json.str)

def wrapped (env : ToolEnv) (kind : String) (text : String) : Json :=
  .str (wrapText env.boundary kind text)

def idNameOut (env : ToolEnv) (kind : String) (idName : IdName) : Json :=
  .obj (JsonObject.ofFields [("id", Pagination.number idName.id),
    ("name", wrapped env kind idName.name)])

def instantOut (env : ToolEnv) (instant : ℤ) : Json :=
  .str (env.printers.instant instant)

def customFieldValueOut (env : ToolEnv) (field : CustomField) : Json :=
  .obj (JsonObject.ofFields [("id", Pagination.number field.id),
    ("name", wrapped env "issue.custom_field.name" field.name),
    ("value",
      match field.value with
      | none | some (.single none) => .null
      | some (.single (some s)) => wrapped env "issue.custom_field.value" s
      | some (.multiple items) =>
          .arr (items.map (wrapped env "issue.custom_field.value")))])

def customFieldEntriesToWrite (entries : List CustomFieldEntry) : Json :=
  .arr (entries.map fun entry =>
    CustomFieldWrite.serialize ⟨entry.id, entry.value.toWrite⟩)

def attachmentOut (env : ToolEnv) (a : AttachmentInfo) : Json :=
  .obj (JsonObject.ofFields [("id", Pagination.number a.id),
    ("filename", wrapped env "attachment.filename" a.filename),
    ("filesize", Pagination.number a.filesize),
    ("content_type", optionToValue Json.str a.contentType),
    ("description",
      optionToValue (wrapped env "attachment.description") a.description),
    ("content_url", .str (env.rewrite a.contentUrl)),
    ("author", optionToValue (idNameOut env "user.name") a.author),
    ("created_on", instantOut env a.createdOn)])

/-- A request that changes nothing. -/
def IsGet (call : ApiCall) : Prop := call.request.method = .get

/-! ## Rules -/

section Rules

variable {allowed : ApiCall → Prop} {env : ToolEnv} {α β : Type}

theorem sendsOnly_send {call : ApiCall} (hcall : allowed call) :
    (send call).SendsOnly allowed :=
  sendsOnly_call hcall fun _ => sendsOnly_done allowed _

theorem sendsOnly_afterSuccess {program : ClientProgram α}
    {next : α → ClientProgram β} (hprogram : program.SendsOnly allowed)
    (hnext : ∀ a, (next a).SendsOnly allowed) :
    (afterSuccess program next).SendsOnly allowed := by
  refine hprogram.andThen fun result => ?_
  cases result with
  | ok a => exact hnext a
  | error e => exact sendsOnly_done allowed _

theorem sendsOnly_argument {check : Except String α} {next : α → ToolProgram}
    (hnext : ∀ a, check = .ok a → (next a).SendsOnly allowed) :
    (argument check next).SendsOnly allowed := by
  unfold argument
  cases check with
  | ok a => exact hnext a rfl
  | error message => exact sendsOnly_done allowed _

theorem sendsOnly_orToolError {program : ClientProgram α}
    {next : α → ToolProgram} (hprogram : program.SendsOnly allowed)
    (hnext : ∀ a, (next a).SendsOnly allowed) :
    (orToolError env program next).SendsOnly allowed := by
  refine hprogram.andThen fun result => ?_
  cases result with
  | ok a => exact hnext a
  | error e => exact sendsOnly_done allowed _

theorem sendsOnly_answer (allowed : ApiCall → Prop) (result : CallToolResult) :
    (answer result).SendsOnly allowed :=
  sendsOnly_done allowed _

/-- One request of the client: it is reported when it fails, and the call goes
on when it succeeds. -/
theorem ensures_request {call : ApiCall} {next : Body call → ToolProgram}
    {post : List (Exchange Answer) → Except String CallToolResult → Prop} :
    (orToolError env (send call) next).Ensures post ↔
      (∀ e, post [⟨call, .error e⟩]
        (.ok (toToolError env.displayStatus e))) ∧
      ∀ body, (next body).Ensures fun rest result =>
        post (⟨call, .ok body⟩ :: rest) result := by
  rw [orToolError, ensures_andThen, send, ensures_call]
  constructor
  · intro hall
    exact ⟨fun e => ensures_done.mp (ensures_done.mp (hall (.error e))),
      fun body => ensures_done.mp (hall (.ok body))⟩
  · rintro ⟨herror, hok⟩ answer
    refine ensures_done.mpr ?_
    cases answer with
    | ok body => exact hok body
    | error e => exact ensures_done.mpr (herror e)

theorem play_afterSuccess {server : ∀ call, Answer call}
    {program : ClientProgram α} {next : α → ClientProgram β} {a : α}
    (hplay : (program.play server).2 = .ok a) :
    (afterSuccess program next).play server =
      ((program.play server).1 ++ ((next a).play server).1,
        ((next a).play server).2) := by
  rw [afterSuccess, play_andThen, hplay]

theorem play_orToolError {server : ∀ call, Answer call}
    {program : ClientProgram α} {next : α → ToolProgram} {a : α}
    (hplay : (program.play server).2 = .ok a) :
    (orToolError env program next).play server =
      ((program.play server).1 ++ ((next a).play server).1,
        ((next a).play server).2) := by
  rw [orToolError, play_andThen, hplay]

end Rules

/-! ## Failures -/

def Succeeded (exchange : Exchange Answer) : Prop :=
  ∃ body, exchange.2 = .ok body

/-- A failed request ends the method, and the method fails in no other way. -/
def Honest {α : Type} (program : ClientProgram α) : Prop :=
  program.Ensures fun exchanges result =>
    (∀ exchange ∈ exchanges.dropLast, Succeeded exchange) ∧
      ((∃ a, result = .ok a) ↔ ∀ exchange ∈ exchanges, Succeeded exchange)

/-- A failed request ends the call, and with an error. -/
structure Concludes (exchanges : List (Exchange Answer))
    (output : CallToolResult) : Prop where
  stops : ∀ exchange ∈ exchanges.dropLast, Succeeded exchange
  reports : output.isError = false →
    ∀ exchange ∈ exchanges, Succeeded exchange

/-- The tool cannot refuse its arguments any more. -/
def Concluding (program : ToolProgram) : Prop :=
  program.Ensures fun exchanges result =>
    ∃ output, result = .ok output ∧ Concludes exchanges output

/-- The tool refuses its arguments before it sends anything. -/
def Orderly (program : ToolProgram) : Prop :=
  program.Ensures fun exchanges result =>
    match result with
    | .error _ => exchanges = []
    | .ok output => Concludes exchanges output

section Failures

variable {env : ToolEnv} {α β : Type}

theorem honest_send (call : ApiCall) : Honest (send call) := by
  refine ensures_call.mpr fun answer => ensures_done.mpr ⟨?_, ?_⟩
  · exact fun _ hmem => absurd hmem List.not_mem_nil
  · rw [List.forall_mem_singleton]
    exact Iff.rfl

theorem honest_done (a : α) : Honest (.done (.ok a) : ClientProgram α) :=
  ensures_done.mpr ⟨fun _ hmem => absurd hmem List.not_mem_nil,
    fun _ _ hmem => absurd hmem List.not_mem_nil, fun _ => ⟨a, rfl⟩⟩

theorem succeeded_dropLast_append {before after : List (Exchange Answer)}
    (hbefore : ∀ exchange ∈ before, Succeeded exchange)
    (hafter : ∀ exchange ∈ after.dropLast, Succeeded exchange) :
    ∀ exchange ∈ (before ++ after).dropLast, Succeeded exchange := by
  cases after with
  | nil =>
      rw [List.append_nil]
      exact fun exchange hmem => hbefore exchange (List.mem_of_mem_dropLast hmem)
  | cons first rest =>
      rw [List.dropLast_append_of_ne_nil (List.cons_ne_nil _ _),
        List.forall_mem_append]
      exact ⟨hbefore, hafter⟩

theorem honest_afterSuccess {program : ClientProgram α}
    {next : α → ClientProgram β} (hprogram : Honest program)
    (hnext : ∀ a, Honest (next a)) : Honest (afterSuccess program next) := by
  refine ensures_andThen.mpr
    (Ensures.mono hprogram fun before middle hbefore => ?_)
  obtain ⟨hstops, hok⟩ := hbefore
  cases middle with
  | ok a =>
      have hall := hok.mp ⟨a, rfl⟩
      refine Ensures.mono (hnext a) fun after result hafter => ?_
      refine ⟨succeeded_dropLast_append hall hafter.1, hafter.2.trans ?_⟩
      rw [List.forall_mem_append]
      exact ⟨fun h => ⟨hall, h⟩, And.right⟩
  | error e =>
      refine ensures_done.mpr ?_
      rw [List.append_nil]
      refine ⟨hstops, fun ⟨_, heq⟩ => (by cases heq), fun hall => ?_⟩
      obtain ⟨a, heq⟩ := hok.mpr hall
      cases heq

theorem concluding_answer (output : CallToolResult) :
    Concluding (answer output) :=
  ensures_done.mpr ⟨output, rfl, fun _ hmem => absurd hmem List.not_mem_nil,
    fun _ _ hmem => absurd hmem List.not_mem_nil⟩

/-- To go on after a request, whose failure is reported in some way. -/
theorem concluding_andThen {program : ClientProgram α}
    {rest : Except RedmineError α → ToolProgram} (hprogram : Honest program)
    (hok : ∀ a, Concluding (rest (.ok a)))
    (herror : ∀ e, ∃ output, rest (.error e) = answer output ∧
      output.isError = true) :
    Concluding (program.andThen rest) := by
  refine ensures_andThen.mpr
    (Ensures.mono hprogram fun before middle hbefore => ?_)
  obtain ⟨hstops, hall⟩ := hbefore
  cases middle with
  | ok a =>
      replace hall := hall.mp ⟨a, rfl⟩
      refine Ensures.mono (hok a) fun after result hafter => ?_
      obtain ⟨output, hresult, hconcludes⟩ := hafter
      refine ⟨output, hresult, succeeded_dropLast_append hall hconcludes.stops,
        fun hsuccess => ?_⟩
      rw [List.forall_mem_append]
      exact ⟨hall, hconcludes.reports hsuccess⟩
  | error e =>
      obtain ⟨output, hrest, hfailed⟩ := herror e
      rw [hrest]
      refine ensures_done.mpr ⟨output, rfl, ?_, ?_⟩
      · rw [List.append_nil]
        exact hstops
      · rw [hfailed]
        exact fun h => absurd h (by decide)

@[simp] theorem isError_toToolError (displayStatus : ℕ → String)
    (e : RedmineError) : (toToolError displayStatus e).isError = true := by
  unfold toToolError
  split <;> first | rfl | (split_ifs <;> rfl)

theorem concluding_orToolError {program : ClientProgram α}
    {next : α → ToolProgram} (hprogram : Honest program)
    (hnext : ∀ a, Concluding (next a)) :
    Concluding (orToolError env program next) :=
  concluding_andThen hprogram hnext fun e =>
    ⟨_, rfl, isError_toToolError env.displayStatus e⟩

theorem Concluding.orderly {program : ToolProgram}
    (hconcluding : Concluding program) : Orderly program := by
  refine Ensures.mono hconcluding fun exchanges result hresult => ?_
  obtain ⟨output, rfl, hconcludes⟩ := hresult
  exact hconcludes

/-- The usual end: one method of the client, and its result or its failure. -/
theorem orderly_request {program : ClientProgram α} (hprogram : Honest program)
    (output : α → CallToolResult) :
    Orderly (orToolError env program fun a => answer (output a)) :=
  (concluding_orToolError hprogram fun a =>
    concluding_answer (output a)).orderly

theorem orderly_argument {check : Except String α} {next : α → ToolProgram}
    (hnext : ∀ a, Orderly (next a)) : Orderly (argument check next) := by
  cases check with
  | ok a => exact hnext a
  | error message => exact ensures_done.mpr rfl

theorem orderly_unlessReadOnly {refusal : CallToolResult}
    {write : ToolProgram} (hwrite : Orderly write) :
    Orderly (unlessReadOnly env refusal write) := by
  unfold unlessReadOnly
  split_ifs
  · exact (concluding_answer refusal).orderly
  · exact hwrite

end Failures

end Tool

namespace Sample

/-- A server with a credential, in read-only mode or not. -/
def toolEnv (readOnly : Bool) : ToolEnv where
  readOnly := readOnly
  caps := ⟨1000, 1000000⟩
  scopedClient := .ok ()
  boundary := Fence.Boundary.new fun _ => ⟨0, by decide⟩
  displayStatus := toString
  quoteChar c := "'" ++ c.toString ++ "'"
  quote text := "\"" ++ text ++ "\""
  printers := ⟨⟨fun date => toString date.year, id⟩, toString⟩
  rewrite := id
  engine := base64Engine
  readUpload _ := .error pathNotAllowed

end Sample

end RuprogressMcp
