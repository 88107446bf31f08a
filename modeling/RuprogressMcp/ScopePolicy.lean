import RuprogressMcp.ToolOutput

/-!
# Per-tool scope enforcement

The table from tool names to the scopes a token must hold, the resolution of
a call's requirement from its raw arguments, and the decision that the server
makes before it routes the call to the tool.
-/

namespace RuprogressMcp

def adminScope : String := "admin"

inductive ScopeRule where
  | fixed (scopes : List String)
  | perAction (actions : List (String × List String))
  | anyOf (scopes : List String)
deriving DecidableEq

def updateIssueNotesOnly : List String := ["add_issue_notes"]
def updateIssueBase : List String := ["edit_issues"]
def updateIssueWithSubtasks : List String := ["edit_issues", "manage_subtasks"]
def updateIssueBaseWithAgile : List String := ["edit_issues", "view_agile_queries"]
def updateIssueWithSubtasksAndAgile : List String :=
  ["edit_issues", "manage_subtasks", "view_agile_queries"]
def notesOnlyFields : List String := ["notes", "private_notes"]
def agileUpdateFields : List String :=
  ["story_points", "agile_sprint_id", "agile_position"]
def createIssueBase : List String := ["add_issues"]
def tagListScopes : List String := ["create_issue_tags", "edit_issue_tags"]

def toolScopes : List (String × ScopeRule) :=
  [("get_current_user", .fixed []),
    ("get_mcp_server_info", .fixed []),
    ("list_redmine_projects", .fixed ["view_project"]),
    ("list_redmine_trackers", .fixed []),
    ("list_project_trackers", .fixed ["view_project"]),
    ("list_redmine_issue_statuses", .fixed []),
    ("list_redmine_issue_priorities", .fixed []),
    ("list_redmine_users", .fixed []),
    ("list_redmine_queries", .fixed ["view_issues"]),
    ("list_project_issue_custom_fields", .fixed []),
    ("summarize_project_status", .fixed ["view_project", "view_issues"]),
    ("list_redmine_versions", .fixed ["view_issues"]),
    ("manage_redmine_version", .fixed ["manage_versions"]),
    ("list_project_members", .fixed ["view_members"]),
    ("list_redmine_roles", .fixed []),
    ("get_project_modules", .fixed ["view_project"]),
    ("manage_project_member", .fixed ["manage_members"]),
    ("get_redmine_issue", .fixed ["view_issues"]),
    ("list_redmine_issues", .fixed ["view_issues"]),
    ("search_redmine_issues", .fixed ["search_project", "view_issues"]),
    ("list_subtasks", .fixed ["view_issues"]),
    ("get_private_notes", .fixed ["view_issues", "view_private_notes"]),
    ("list_time_entries", .fixed ["view_time_entries"]),
    ("manage_time_entry", .perAction
      [("create", ["log_time"]), ("update", ["edit_time_entries"])]),
    ("list_time_entry_activities", .fixed []),
    ("import_time_entries", .fixed ["log_time"]),
    ("create_redmine_issue", .fixed createIssueBase),
    ("update_redmine_issue", .fixed updateIssueBase),
    ("delete_redmine_issue", .fixed ["delete_issues"]),
    ("copy_issue", .fixed ["view_issues", "add_issues"]),
    ("manage_issue_relation", .perAction
      [("list", ["view_issues"]), ("create", ["manage_issue_relations"]),
        ("delete", ["manage_issue_relations"])]),
    ("manage_issue_watcher", .perAction
      [("add", ["add_issue_watchers"]), ("remove", ["delete_issue_watchers"])]),
    ("manage_issue_note", .perAction
      [("edit", ["edit_issue_notes"]), ("set_private", ["set_notes_private"])]),
    ("manage_issue_category", .perAction
      [("list", ["view_issues"]), ("create", ["manage_categories"]),
        ("update", ["manage_categories"]), ("delete", ["manage_categories"])]),
    ("search_entire_redmine", .fixed ["search_project"]),
    ("manage_redmine_wiki_page", .perAction
      [("list", ["view_wiki_pages"]), ("get", ["view_wiki_pages"]),
        ("create", ["edit_wiki_pages"]), ("update", ["edit_wiki_pages"]),
        ("delete", ["delete_wiki_pages"]), ("rename", ["rename_wiki_pages"])]),
    ("get_gantt_chart", .fixed ["view_issues"]),
    ("get_redmine_attachment", .fixed ["view_files"]),
    ("list_files", .fixed ["view_files"]),
    ("delete_file", .fixed ["manage_files"]),
    ("upload_file", .fixed ["manage_files"]),
    ("cleanup_attachment_files", .fixed []),
    ("get_checklist", .fixed []),
    ("create_checklist_item", .fixed []),
    ("update_checklist_item", .fixed []),
    ("manage_product", .fixed []),
    ("manage_contact", .fixed []),
    ("manage_document", .perAction
      [("list", ["view_documents"]), ("get", ["view_documents"]),
        ("create", ["add_documents"]), ("update", ["edit_documents"])])]

/-! ## Requirements -/

inductive Requirement where
  | unchecked
  | scopes (required : List String)
  | anyOf (any : List String)
  | scopesWithAnyOf (all any : List String)
  | unmapped
deriving DecidableEq

def actionStr (args : Option JsonObject) : Option String :=
  args.bind fun args => (args.get "action").bind Json.asStr

/-- The loop over the keys of `is_notes_only_update`. -/
def notesOnlyKeys : Bool → List String → Bool
  | sawNotesField, [] => sawNotesField
  | sawNotesField, key :: rest =>
      if key = "issue_id" then notesOnlyKeys sawNotesField rest
      else if ¬ notesOnlyFields.contains key then false
      else notesOnlyKeys true rest

def isNotesOnlyUpdate (args : JsonObject) : Bool :=
  notesOnlyKeys false (args.map Prod.fst)

def hasAgileField (args : JsonObject) : Bool :=
  agileUpdateFields.any fun field => args.containsKey field

/-- The arguments set the parent, or name it among the fields to clear. -/
def reparenting (args : JsonObject) : Bool :=
  args.containsKey "parent_issue_id" ||
    (((args.get "clear_fields").bind Json.asArray).map fun fields =>
      fields.any fun field => field.asStr == some "parent_issue_id").getD false

def updateRedmineIssueRequirement : Option JsonObject → Requirement
  | none => .scopes updateIssueBase
  | some args =>
      if isNotesOnlyUpdate args then .scopes updateIssueNotesOnly
      else
        let base :=
          if reparenting args then
            if hasAgileField args then updateIssueWithSubtasksAndAgile
            else updateIssueWithSubtasks
          else if hasAgileField args then updateIssueBaseWithAgile
          else updateIssueBase
        if args.containsKey "tag_list" then .scopesWithAnyOf base tagListScopes
        else .scopes base

def createRedmineIssueRequirement (args : Option JsonObject) : Requirement :=
  if (args.map fun args => args.containsKey "tag_list").getD false then
    .scopesWithAnyOf createIssueBase tagListScopes
  else .scopes createIssueBase

def requiredForCall (tool : String) (args : Option JsonObject) : Requirement :=
  if tool = "update_redmine_issue" then updateRedmineIssueRequirement args
  else if tool = "create_redmine_issue" then createRedmineIssueRequirement args
  else
    match toolScopes.lookup tool with
    | none => .unmapped
    | some (.fixed scopes) => .scopes scopes
    | some (.anyOf scopes) => .anyOf scopes
    | some (.perAction actions) =>
        match actionStr args with
        | none => .unchecked
        | some action =>
            match actions.lookup action with
            | none => .unchecked
            | some scopes => .scopes scopes

/-! ## The decision before a call -/

def isAdmin (held : Finset String) : Bool := decide (adminScope ∈ held)

def missing (required : List String) (held : Finset String) : List String :=
  required.filter fun scope => scope ∉ held

def anyHeld (candidates : List String) (held : Finset String) : Bool :=
  candidates.any fun scope => scope ∈ held

def insufficientScopeResult (tool : String) (missing : List String) :
    CallToolResult :=
  err .insufficientScope
    (if missing.isEmpty then
      tool ++ " has no configured OAuth scope requirement in this deployment " ++
        "and is denied by default"
    else
      "this token is missing the scope(s) required to call " ++ tool ++ ": " ++
        String.intercalate ", " missing)
    (some "re-authorize with the missing scope(s), or use a different tool")

def insufficientAnyOfResult (tool : String) (any : List String) :
    CallToolResult :=
  err .insufficientScope
    ("this token is missing every scope that would satisfy " ++ tool ++
      "'s requirement: at least one of " ++ String.intercalate ", " any)
    (some "re-authorize with one of the listed scopes, or use a different tool")

/-- The denial of a call by a token without the administrator scope, if it is
denied. -/
def scopeDenial (tool : String) (args : Option JsonObject)
    (held : Finset String) : Option CallToolResult :=
  match requiredForCall tool args with
  | .unchecked => none
  | .scopes required =>
      if (missing required held).isEmpty then none
      else some (insufficientScopeResult tool (missing required held))
  | .anyOf any =>
      if anyHeld any held then none else some (insufficientAnyOfResult tool any)
  | .scopesWithAnyOf all any =>
      if ¬ (missing all held).isEmpty then
        some (insufficientScopeResult tool (missing all held))
      else if anyHeld any held then none
      else some (insufficientAnyOfResult tool any)
  | .unmapped => some (insufficientScopeResult tool [])

/-- What becomes of a call: it is denied, or routed to its tool. -/
inductive Dispatch where
  | denied (result : CallToolResult)
  | routed
deriving DecidableEq

def dispatchToolCall (enforcing : Bool) (held : Finset String) (tool : String)
    (args : Option JsonObject) : Dispatch :=
  if enforcing && !isAdmin held then
    match scopeDenial tool args held with
    | some result => .denied result
    | none => .routed
  else .routed

theorem missing_isEmpty {required : List String} {held : Finset String} :
    (missing required held).isEmpty = true ↔ ∀ scope ∈ required, scope ∈ held := by
  simp [missing, List.isEmpty_iff, List.filter_eq_nil_iff]

theorem dispatch_routed_iff_of_scopes
    {held : Finset String} {tool : String} {args : Option JsonObject}
    {required : List String} (hadmin : isAdmin held = false)
    (hrequired : requiredForCall tool args = .scopes required) :
    dispatchToolCall true held tool args = .routed ↔
      ∀ scope ∈ required, scope ∈ held := by
  rw [← missing_isEmpty]
  unfold dispatchToolCall scopeDenial
  simp only [hadmin, hrequired]
  by_cases hempty : (missing required held).isEmpty = true
  · simp [hempty]
  · simp [hempty]

end RuprogressMcp
