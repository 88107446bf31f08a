import RuprogressMcp.PluginTools

/-!
# Documents

The managing tool of DMSF documents.  A new document is uploaded first and
then committed to a project, so everything that can be checked is checked
before the upload.  An update adds a revision, which has to carry a title and
a name; those that are not given are taken from the current revision.
-/

namespace RuprogressMcp

open RedmineClient RequestProgram Tool

/-! ## Versions -/

structure DmsfVersion where
  major : ℕ
  minor : ℕ
  patch : ℕ
deriving DecidableEq

def DmsfVersion.fromStr (quote : String → String) (s : String) :
    Except String DmsfVersion :=
  let reject := "invalid version " ++ quote s ++ ": expected \"X\", \"X.Y\", " ++
    "or \"X.Y.Z\", each part a non-negative integer"
  let parts := s.toList.splitOn '.'
  if s.isEmpty || 3 < parts.length then .error reject
  else
    match parts.mapM (RustText.parseUnsigned (2 ^ 32)) with
    | some nums => .ok ⟨nums.getD 0 0, nums.getD 1 0, nums.getD 2 0⟩
    | none => .error reject

/-! ## Outputs and bodies -/

def documentOut (env : ToolEnv) (n : DmsfNode) : Json :=
  .obj (JsonObject.ofFields [("id", Pagination.number n.id),
    ("type", optionToValue Json.str n.kind),
    ("filename", optionToValue Json.str n.filename),
    ("title", optionToValue Json.str n.title),
    ("name", optionToValue Json.str n.name),
    ("description",
      optionToValue (wrapped env "document.description") n.description),
    ("version", optionToValue Json.str n.version),
    ("size", optionToValue Pagination.number n.size),
    ("content_type", optionToValue Json.str n.contentType),
    ("folder_id", optionToValue Pagination.number n.folderId),
    ("project_id", optionToValue Pagination.number n.projectId),
    ("author", optionToValue IdName.toValue n.author),
    ("created_on", optionToValue (instantOut env) n.createdOn),
    ("updated_on", optionToValue (instantOut env) n.updatedOn)])

structure ManageDocumentOutput where
  documents : Option (List DmsfNode) := none
  pagination : Option Pagination := none
  document : Option DmsfNode := none
  documentId : Option ℕ := none
  updatedFields : Option (List String) := none
  note : Option String := none

def ManageDocumentOutput.toValue (env : ToolEnv)
    (output : ManageDocumentOutput) : Json :=
  .obj (JsonObject.ofFields [("success", .bool true),
    ("documents", optionToValue (fun ns => .arr (ns.map (documentOut env)))
      output.documents),
    ("pagination",
      optionToValue (fun p => .obj p.toObject) output.pagination),
    ("document", optionToValue (documentOut env) output.document),
    ("document_id", optionToValue Pagination.number output.documentId),
    ("updated_fields", optionToValue textList output.updatedFields),
    ("note", optionToValue Json.str output.note)])

structure DmsfRevisionWrite where
  title : String
  name : String
  description : Option String
  comment : Option String
  customFieldValues : Option (List CustomFieldEntry)

def DmsfRevisionWrite.body (revision : DmsfRevisionWrite) : Json :=
  .obj [("dmsf_file_revision", .obj (("title", .str revision.title) ::
    ("name", .str revision.name) ::
      (optionalField "description" Json.str revision.description ++
        optionalField "comment" Json.str revision.comment ++
        optionalField "custom_field_values" customFieldEntriesToWrite
          revision.customFieldValues)))]

structure DmsfUploadedFile where
  token : String
  name : String
  title : Option String
  description : Option String
  comment : Option String
  version : Option DmsfVersion
  customFieldValues : Option (List CustomFieldEntry)

def DmsfUploadedFile.fields (file : DmsfUploadedFile) : JsonObject :=
  ("token", .str file.token) :: ("name", .str file.name) ::
    (optionalField "title" Json.str file.title ++
      optionalField "description" Json.str file.description ++
      optionalField "comment" Json.str file.comment ++
      optionalField "version_major" serializeU64
        (file.version.map DmsfVersion.major) ++
      optionalField "version_minor" serializeU64
        (file.version.map DmsfVersion.minor) ++
      optionalField "version_patch" serializeU64
        (file.version.map DmsfVersion.patch) ++
      optionalField "custom_field_values" customFieldEntriesToWrite
        file.customFieldValues)

def commitBody (file : DmsfUploadedFile) (folderId : Option ℕ) : Json :=
  .obj (("attachments", .obj [("uploaded_file", .obj file.fields)]) ::
    optionalField "folder_id" serializeU64 folderId)

/-! ## Requests -/

def listDmsfNodes (project : ProjectIdent) (folderId : Option ℕ)
    (limit offset : ℕ) : ClientProgram (Page DmsfNode) :=
  afterSuccess (send (.listDmsfNodes project
    (insertOptional (pageQuery .default limit offset) "folder_id"
      (folderId.map toString)))) fun (envelope : DmsfListEnvelope) =>
  .done (.ok {
    items := envelope.nodes
    totalCount := envelope.totalCount.getD envelope.nodes.length
    offset := offset
    limit := limit
    truncated := false })

def createUpload (content : Bytes) (filename contentType : Option String) :
    ClientProgram Upload :=
  send (.createUpload (insertOptional
    (insertOptional .default "filename" filename) "content_type" contentType)
    content)

/-- Go on with the token of an upload. -/
def mintUploadToken (env : ToolEnv) (content : Bytes) (filename : String)
    (next : Upload → ToolProgram) : ToolProgram :=
  (createUpload content (some filename) none).andThen fun
    | .ok upload => next upload
    | .error e => answer (uploadFailure env.displayStatus e)

/-! ## `manage_document` -/

def documentNotFound : CallToolResult :=
  err .notFound
    ("the requested DMSF document was not found or carries no revision this " ++
      "client can make sense of")
    (some ("verify document_id is correct; it may have been deleted, or the " ++
      "credential cannot see it"))

/-- What is uploaded for a new document. -/
structure DocumentUpload where
  version : Option DmsfVersion
  name : String
  content : Bytes

/-- An argument error, or a result of the call. -/
abbrev Ending : Type := Except String CallToolResult

/-- A check that may end the call. -/
def unlessEnded {α : Type} (check : Except Ending α) (next : α → ToolProgram) :
    ToolProgram :=
  match check with
  | .ok a => next a
  | .error ending => .done ending

theorem orderly_unlessEnded {α : Type} {check : Except Ending α}
    {next : α → ToolProgram} (hnext : ∀ a, Orderly (next a)) :
    Orderly (unlessEnded check next) := by
  cases check with
  | ok a => exact hnext a
  | error ending =>
      cases ending with
      | ok output => exact (concluding_answer output).orderly
      | error message => exact ensures_done.mpr rfl

/-- The bytes of the one source that is given, and the name for them. -/
def documentSource (env : ToolEnv) (params : ManageDocumentParams) :
    Except Ending (Bytes × Option String) :=
  match params.contentBase64 with
  | some b64 =>
      if params.name.isNone then
        .error (.error ("name is required for action=\"create\" when using " ++
          "content_base64"))
      else
        match decodeUploadBase64 env.engine "manage_document" b64
            uploadFileMaxBytes with
        | .ok content => .ok (content, params.name)
        | .error (.malformed e) =>
            .error (.error ("content_base64 is not valid base64: " ++ e))
        | .error (.tooLarge result) => .error (.ok result)
  | none =>
      match env.readUpload (params.filePath.getD "") with
      | .ok (content, inferred) => .ok (content, params.name <|> inferred)
      | .error result => .error (.ok result)

def sourcesSet (params : ManageDocumentParams) : ℕ :=
  [params.contentBase64.isSome, params.filePath.isSome,
    params.sourceUrl.isSome].count true

def documentUpload (env : ToolEnv) (params : ManageDocumentParams) :
    Except Ending DocumentUpload := do
  let version ←
    match params.version with
    | some v =>
        ((DmsfVersion.fromStr env.quote v).map some).mapError Except.error
    | none => .ok none
  if sourcesSet params ≠ 1 then
    .error (.ok (sourceRequired "manage_document"))
  else if params.sourceUrl.isSome then
    .error (.ok unsupportedSource)
  else
    let (content, name) ← documentSource env params
    match name with
    | some name => return ⟨version, name, content⟩
    | none => .error (.error ("name could not be determined from file_path; " ++
        "provide it explicitly"))

/-- The upload has been accepted and the commit has not. -/
def commitFailed (env : ToolEnv) (e : RedmineError) : CallToolResult :=
  let result := toToolError env.displayStatus e
  match result.structuredContent with
  | .obj payload =>
      match JsonObject.get payload "error" with
      | some (.str message) =>
          { result with structuredContent := .obj (JsonObject.insert "error"
              (.str ("the file was uploaded successfully, but committing it " ++
                "to DMSF failed: " ++ message)) payload) }
      | _ => result
  | _ => result

def commitNote : Option ℕ → String
  | some id => "the commit response is sparse by design (id/name only); call " ++
      "manage_document(action=\"get\", document_id=" ++ toString id ++
        ") for full metadata"
  | none => "the commit response named no document id; call action=\"list\" " ++
      "to find the new document"

def ManageDocumentParams.uploadedFile (params : ManageDocumentParams)
    (upload : DocumentUpload) (token : String) : DmsfUploadedFile where
  token := token
  name := upload.name
  title := params.title
  description := params.description
  comment := params.comment
  version := upload.version
  customFieldValues := params.customFields

def ManageDocumentParams.updatedFields (params : ManageDocumentParams) :
    List String :=
  givenFields [("title", params.title.isSome), ("name", params.name.isSome),
    ("description", params.description.isSome),
    ("comment", params.comment.isSome),
    ("custom_fields", params.customFields.isSome)]

def ManageDocumentParams.revision (params : ManageDocumentParams)
    (current : DmsfNode) : DmsfRevisionWrite where
  title := (params.title <|> current.title).getD ""
  name := (params.name <|> current.name).getD ""
  description := params.description
  comment := params.comment
  customFieldValues := params.customFields

def manageDocument (env : ToolEnv) (params : ManageDocumentParams) :
    ToolProgram :=
  let output (output : ManageDocumentOutput) : ToolProgram :=
    answer (ok (output.toValue env) env.caps)
  let action := ManageDocumentAction.variants.name params.action
  let refusal := readOnlyRefusal "manage_document" action listOrGetInstead
  match params.action with
  | .list =>
      argument (env.requireProjectIdent action params.projectId)
        fun project =>
      argument env.scopedClient fun _ =>
      orToolError env (listDmsfNodes project params.folderId
        (clampLimit params.limit) (params.offset.getD 0)) fun page =>
      output { documents := some page.items
               pagination := some (Pagination.fromPage page) }
  | .get =>
      argument (requiredFor "document_id" action params.documentId)
        fun documentId =>
      argument env.scopedClient fun _ =>
      orToolError env (send (.getDmsfFile (UInt64.ofNat documentId))) fun
        | some node => output { document := some node }
        | none => answer documentNotFound
  | .create =>
      unlessReadOnly env refusal <|
      unlessEnded (documentUpload env params) fun file =>
      argument (env.requireProjectIdent action params.projectId)
        fun project =>
      argument env.scopedClient fun _ =>
      mintUploadToken env file.content file.name fun upload =>
      (send (.commitDmsfUpload project
        (commitBody (params.uploadedFile file upload.token)
          params.folderId))).andThen fun
        | .ok nodes =>
            let documentId := (List.head? nodes).map DmsfNode.id
            output { documentId, note := some (commitNote documentId) }
        | .error e => answer (commitFailed env e)
  | .update =>
      unlessReadOnly env refusal <|
      argument (requiredFor "document_id" action params.documentId)
        fun documentId =>
      argument (requireUpdate params.updatedFields) fun _ =>
      argument env.scopedClient fun _ =>
      orToolError env (send (.getDmsfFile (UInt64.ofNat documentId))) fun
        | none => answer documentNotFound
        | some current =>
            orToolError env (send (.createDmsfRevision (UInt64.ofNat documentId)
              (params.revision current).body)) fun _ =>
            output { documentId := some documentId
                     updatedFields := some params.updatedFields
                     note := some ("a new revision was created; earlier " ++
                       "revisions still exist") }

end RuprogressMcp
