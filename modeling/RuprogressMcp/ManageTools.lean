import RuprogressMcp.ToolPrograms

/-!
# The managing tools of the tracker

Relations, categories and wiki pages are each managed by one tool with an
action that is a read or a write.  A write of a category or a page is followed
by a read of what was written.
-/

namespace RuprogressMcp

open RedmineClient RequestProgram Tool

/-- What stands for the writes of these tools in a refusal. -/
def listInstead : String := "action=\"list\""

def listOrGetInstead : String := "action=\"list\" or action=\"get\""

/-! ## `manage_issue_relation` -/

def relationTypes : List String :=
  ["relates", "duplicates", "duplicated", "blocks", "blocked", "precedes",
    "follows", "copied_to", "copied_from"]

def relationOut (r : IssueRelation) : Json :=
  .obj (JsonObject.ofFields [("id", Pagination.number r.id),
    ("issue_id", Pagination.number r.issueId),
    ("issue_to_id", Pagination.number r.issueToId),
    ("relation_type", .str r.relationType),
    ("delay", optionToValue integer r.delay)])

def relationCreateBody (issueToId : ℕ) (relationType : Option String)
    (delay : Option ℤ) : Json :=
  .obj [("relation", .obj (("issue_to_id", serializeU64 issueToId) ::
    optionalField "relation_type" Json.str relationType ++
      optionalField "delay" integer delay))]

structure ManageIssueRelationOutput where
  relation : Option IssueRelation := none
  relations : Option (List IssueRelation) := none
  deletedRelationId : Option ℕ := none

def ManageIssueRelationOutput.toValue (output : ManageIssueRelationOutput) :
    Json :=
  .obj (JsonObject.ofFields (("success", .bool true) ::
    optionalField "relation" relationOut output.relation ++
      optionalField "relations" (fun rs => .arr (rs.map relationOut))
        output.relations ++
      optionalField "deleted_relation_id" Pagination.number
        output.deletedRelationId))

/-- A given type is one of the table. -/
def checkRelationType (env : ToolEnv) : Option String → Except String Unit
  | some relationType =>
      if relationTypes.contains relationType then .ok ()
      else .error ("relation_type must be one of " ++
        String.intercalate ", " relationTypes ++ ", got " ++
          env.quote relationType)
  | none => .ok ()

def manageIssueRelation (env : ToolEnv) (params : ManageIssueRelationParams) :
    ToolProgram :=
  let output (output : ManageIssueRelationOutput) : ToolProgram :=
    answer (ok output.toValue env.caps)
  let action := ManageIssueRelationAction.variants.name params.action
  let refusal := readOnlyRefusal "manage_issue_relation" action listInstead
  argument (checkRelationType env params.relationType) fun _ =>
  argument env.scopedClient fun _ =>
  match params.action with
  | .list =>
      argument (requiredFor "issue_id" action params.issueId) fun issueId =>
      orToolError env (send (.listRelations (UInt64.ofNat issueId)))
        fun relations => output { relations := some relations }
  | .create =>
      unlessReadOnly env refusal <|
      argument (requiredFor "issue_id" action params.issueId) fun issueId =>
      argument (requiredFor "issue_to_id" action params.issueToId)
        fun issueToId =>
      orToolError env (send (.createRelation (UInt64.ofNat issueId)
        (relationCreateBody issueToId params.relationType params.delay)))
        fun relation => output { relation := some relation }
  | .delete =>
      unlessReadOnly env refusal <|
      argument (requiredFor "relation_id" action params.relationId)
        fun relationId =>
      orToolError env (send (.deleteRelation (UInt64.ofNat relationId)))
        fun _ => output { deletedRelationId := some relationId }

/-! ## `manage_issue_category` -/

def issueCategoryOut (env : ToolEnv) (c : IssueCategory) : Json :=
  .obj (JsonObject.ofFields [("id", Pagination.number c.id),
    ("name", wrapped env "issue_category.name" c.name),
    ("project", optionToValue (idNameOut env "project.name") c.project),
    ("assigned_to", optionToValue (idNameOut env "user.name") c.assignedTo)])

def categoryBody (name : Option String) (assignedToId : Option ℕ) : Json :=
  .obj [("issue_category", .obj (optionalField "name" Json.str name ++
    optionalField "assigned_to_id" serializeU64 assignedToId))]

structure ManageIssueCategoryOutput where
  category : Option IssueCategory := none
  categories : Option (List IssueCategory) := none
  deletedCategoryId : Option ℕ := none

def ManageIssueCategoryOutput.toValue (env : ToolEnv)
    (output : ManageIssueCategoryOutput) : Json :=
  .obj (JsonObject.ofFields (("success", .bool true) ::
    optionalField "category" (issueCategoryOut env) output.category ++
      optionalField "categories"
        (fun cs => .arr (cs.map (issueCategoryOut env))) output.categories ++
      optionalField "deleted_category_id" Pagination.number
        output.deletedCategoryId))

def updateIssueCategory (id : ℕ) (body : Json) : ClientProgram IssueCategory :=
  afterSuccess (send (.updateIssueCategory (UInt64.ofNat id) body)) fun _ =>
    send (.getIssueCategory (UInt64.ofNat id))

def deleteIssueCategory (id : ℕ) (reassignToId : Option ℕ) :
    ClientProgram Unit :=
  send (.deleteIssueCategory (UInt64.ofNat id)
    (match reassignToId with
      | some reassignToId =>
          Query.default.insert "reassign_to_id" (toString reassignToId)
      | none => .default))

def isBlank (text : String) : Bool := (RustText.trim text.toList).isEmpty

def manageIssueCategory (env : ToolEnv) (params : ManageIssueCategoryParams) :
    ToolProgram :=
  let output (output : ManageIssueCategoryOutput) : ToolProgram :=
    answer (ok (output.toValue env) env.caps)
  let action := ManageIssueCategoryAction.variants.name params.action
  let refusal := readOnlyRefusal "manage_issue_category" action listInstead
  argument env.scopedClient fun _ =>
  match params.action with
  | .list =>
      argument (requiredFor "project_id" action params.projectId)
        fun projectRef =>
      argument (env.resolveRef projectRef) fun projectId =>
      orToolError env (send (.listIssueCategories projectId)) fun categories =>
      output { categories := some categories }
  | .create =>
      unlessReadOnly env refusal <|
      argument (requiredFor "project_id" action params.projectId)
        fun projectRef =>
      argument (env.resolveRef projectRef) fun projectId =>
      argument (required ("name is required (and must not be blank) for " ++
        "action=\"create\"") (params.name.filter fun n => !isBlank n))
        fun name =>
      orToolError env (send (.createIssueCategory projectId
        (categoryBody (some name) params.assignedToId))) fun category =>
      output { category := some category }
  | .update =>
      unlessReadOnly env refusal <|
      argument (requiredFor "category_id" action params.categoryId)
        fun categoryId =>
      argument (if params.name.any isBlank then
        .error "name must not be blank if given" else .ok ()) fun _ =>
      orToolError env (updateIssueCategory categoryId
        (categoryBody params.name params.assignedToId)) fun category =>
      output { category := some category }
  | .delete =>
      unlessReadOnly env refusal <|
      argument (requiredFor "category_id" action params.categoryId)
        fun categoryId =>
      orToolError env (deleteIssueCategory categoryId params.reassignToId)
        fun _ =>
      output { deletedCategoryId := some categoryId }

/-! ## `manage_redmine_wiki_page` -/

def wikiPageListItemOut (env : ToolEnv) (item : WikiPageListItem) : Json :=
  .obj (JsonObject.ofFields [("title", .str item.title),
    ("parent_title", optionToValue Json.str item.parent),
    ("version", Pagination.number item.version),
    ("created_on", instantOut env item.createdOn),
    ("updated_on", optionToValue (instantOut env) item.updatedOn)])

def wikiPageOut (env : ToolEnv) (p : WikiPage) : Json :=
  .obj (JsonObject.ofFields [("title", .str p.title),
    ("text", optionToValue (wrapped env "wiki_page.text") p.text),
    ("version", Pagination.number p.version),
    ("author", optionToValue (idNameOut env "user.name") p.author),
    ("comments", optionToValue (wrapped env "wiki_page.comments") p.comments),
    ("parent_title", optionToValue Json.str p.parent),
    ("project_id",
      optionToValue Pagination.number (p.project.map IdName.id)),
    ("created_on", instantOut env p.createdOn),
    ("updated_on", optionToValue (instantOut env) p.updatedOn),
    ("attachments", optionToValue
      (fun attachments => .arr (attachments.map (attachmentOut env)))
      p.attachments)])

structure WikiPageWrite where
  text : String
  comments : Option String := none
  title : Option String := none
  redirectExistingLinks : Option String := none

def WikiPageWrite.body (write : WikiPageWrite) : Json :=
  .obj [("wiki_page", .obj (("text", .str write.text) ::
    optionalField "comments" Json.str write.comments ++
      optionalField "title" Json.str write.title ++
      optionalField "redirect_existing_links" Json.str
        write.redirectExistingLinks))]

structure ManageWikiPageOutput where
  pages : Option (List WikiPageListItem) := none
  page : Option WikiPage := none
  deletedTitle : Option String := none
  message : Option String := none

def ManageWikiPageOutput.toValue (env : ToolEnv)
    (output : ManageWikiPageOutput) : Json :=
  .obj (JsonObject.ofFields [("success", .bool true),
    ("pages", optionToValue
      (fun pages => .arr (pages.map (wikiPageListItemOut env))) output.pages),
    ("page", optionToValue (wikiPageOut env) output.page),
    ("deleted_title", optionToValue Json.str output.deletedTitle),
    ("message", optionToValue Json.str output.message)])

def resolveWikiTitle (text : String) : Except String WikiTitle :=
  (WikiTitle.new text).mapError fun reason => "invalid configuration: " ++ reason

def requireTitle (params : ManageRedmineWikiPageParams) :
    Except String WikiTitle := do
  let raw ← requiredFor "wiki_page_title"
    (ManageWikiPageAction.variants.name params.action) params.wikiPageTitle
  resolveWikiTitle raw

def getWikiPage (project : ProjectIdent) (title : WikiTitle)
    (version : Option ℕ) (includeAttachments : Bool) : ClientProgram WikiPage :=
  send (.getWikiPage project title (version.map UInt32.ofNat)
    (if includeAttachments then
      Query.default.insert "include" "attachments"
    else .default))

def writeWikiPage (project : ProjectIdent) (title : WikiTitle)
    (write : WikiPageWrite) : ClientProgram Unit :=
  send (.writeWikiPage project title write.body)

def upsertWikiPage (project : ProjectIdent) (title : WikiTitle)
    (write : WikiPageWrite) : ClientProgram WikiPage :=
  afterSuccess (writeWikiPage project title write) fun _ =>
    getWikiPage project title none false

/-- The page was written under its old title. -/
def titleDidNotChange : CallToolResult :=
  err .forbidden
    ("the wiki page was updated but its title did not change; the " ++
      "configured credential likely lacks the rename_wiki_pages permission")
    (some ("ask the user for an account with rename_wiki_pages, or update " ++
      "the page's text without attempting a rename"))

/-- The new title of a rename, as given and as a title. -/
def requireNewTitle (params : ManageRedmineWikiPageParams)
    (oldTitle : WikiTitle) : Except String (String × WikiTitle) := do
  let newTitleRaw ← required "new_title is required for action=\"rename\""
    params.newTitle
  if newTitleRaw = oldTitle.text then
    .error "new_title must differ from wiki_page_title"
  else
    let newTitle ← resolveWikiTitle newTitleRaw
    return (newTitleRaw, newTitle)

/-- What a rename writes over the page it has read. -/
def renameWrite (params : ManageRedmineWikiPageParams) (newTitle : String)
    (current : WikiPage) : WikiPageWrite where
  text := current.text.getD ""
  comments := params.comments
  title := some newTitle
  redirectExistingLinks :=
    if params.redirectExistingLinks = some false then some "0" else none

def manageRedmineWikiPage (env : ToolEnv)
    (params : ManageRedmineWikiPageParams) : ToolProgram :=
  let output (output : ManageWikiPageOutput) : ToolProgram :=
    answer (ok (output.toValue env) env.caps)
  let action := ManageWikiPageAction.variants.name params.action
  let refusal :=
    readOnlyRefusal "manage_redmine_wiki_page" action listOrGetInstead
  argument (env.resolveRef params.projectId) fun projectIdent =>
  argument env.scopedClient fun _ =>
  match params.action with
  | .list =>
      orToolError env (send (.listWikiPages projectIdent)) fun pages =>
      output { pages := some pages }
  | .get =>
      argument (requireTitle params) fun title =>
      orToolError env (getWikiPage projectIdent title params.version
        (params.includeAttachments.getD true)) fun page =>
      output { page := some page }
  | .create | .update =>
      unlessReadOnly env refusal <|
      argument (requireTitle params) fun title =>
      argument (requiredFor "text" action params.text) fun text =>
      orToolError env (upsertWikiPage projectIdent title
        { text, comments := params.comments }) fun page =>
      output { page := some page }
  | .delete =>
      unlessReadOnly env refusal <|
      argument (requireTitle params) fun title =>
      orToolError env (send (.deleteWikiPage projectIdent title)) fun _ =>
      output { deletedTitle := some title.text
               message := some ("wiki page deleted; any child pages were " ++
                 "un-parented, not deleted") }
  | .rename =>
      unlessReadOnly env refusal <|
      argument (requireTitle params) fun oldTitle =>
      argument (requireNewTitle params oldTitle) fun newTitle =>
      orToolError env (getWikiPage projectIdent oldTitle none false)
        fun current =>
      orToolError env (writeWikiPage projectIdent oldTitle
        (renameWrite params newTitle.1 current)) fun _ =>
      (getWikiPage projectIdent newTitle.2 none false).andThen fun
        | .ok renamed => output { page := some renamed }
        | .error .notFound => answer titleDidNotChange
        | .error e => answer (toToolError env.displayStatus e)

end RuprogressMcp
