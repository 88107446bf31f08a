import RuprogressMcp.IssueScopes

/-!
# The tools a deployment serves

The router holds the tools of every family, less those whose plugin is off,
those that only write when the server is read-only, and the administrative one
unless it is exposed.  With scope enforcement the listing is filtered by the
token and every call is checked against it.  The two decisions agree, and a
token holding the scopes that the server advertises is denied a served tool
only for the arguments named below.
-/

namespace RuprogressMcp

structure PluginFlags where
  agile : Bool
  checklists : Bool
  products : Bool
  crm : Bool
  dmsf : Bool
  tags : Bool
deriving DecidableEq

structure Deployment where
  plugins : PluginFlags
  readOnly : Bool
  exposeAdminTools : Bool
deriving DecidableEq

/-! ## The router -/

def metaToolRouter : List String := ["get_mcp_server_info"]

def discoveryToolRouter : List String :=
  ["list_redmine_trackers", "list_project_trackers",
    "list_redmine_issue_statuses", "list_redmine_issue_priorities",
    "list_redmine_users", "get_current_user", "list_redmine_queries"]

def projectsToolRouter : List String :=
  ["list_redmine_projects", "list_project_issue_custom_fields",
    "summarize_project_status", "list_redmine_versions",
    "manage_redmine_version", "list_project_members", "list_redmine_roles",
    "get_project_modules", "manage_project_member"]

def issuesToolRouter : List String :=
  ["get_redmine_issue", "list_redmine_issues", "search_redmine_issues",
    "list_subtasks", "get_private_notes", "create_redmine_issue",
    "update_redmine_issue", "delete_redmine_issue", "copy_issue",
    "manage_issue_relation", "manage_issue_watcher", "manage_issue_note",
    "manage_issue_category"]

def timeToolRouter : List String :=
  ["list_time_entries", "manage_time_entry", "list_time_entry_activities",
    "import_time_entries"]

def searchWikiToolRouter : List String :=
  ["search_entire_redmine", "manage_redmine_wiki_page"]

def ganttToolRouter : List String := ["get_gantt_chart"]

def filesToolRouter : List String :=
  ["get_redmine_attachment", "list_files", "delete_file", "upload_file",
    "cleanup_attachment_files"]

def checklistsToolRouter : List String :=
  ["get_checklist", "create_checklist_item", "update_checklist_item"]

def productsToolRouter : List String := ["manage_product"]

def crmToolRouter : List String := ["manage_contact"]

def dmsfToolRouter : List String := ["manage_document"]

def pluginTools : List (String × (PluginFlags → Bool)) :=
  [("get_checklist", PluginFlags.checklists),
    ("create_checklist_item", PluginFlags.checklists),
    ("update_checklist_item", PluginFlags.checklists),
    ("manage_product", PluginFlags.products),
    ("manage_contact", PluginFlags.crm),
    ("manage_document", PluginFlags.dmsf)]

/-- The tools that only write. -/
def writeTools : List String :=
  ["manage_redmine_version", "manage_project_member", "manage_time_entry",
    "import_time_entries", "create_redmine_issue", "update_redmine_issue",
    "delete_redmine_issue", "copy_issue", "manage_issue_watcher",
    "manage_issue_note", "delete_file", "upload_file",
    "create_checklist_item", "update_checklist_item"]

def mergedRouter : List String :=
  metaToolRouter ++ discoveryToolRouter ++ projectsToolRouter ++
    issuesToolRouter ++ timeToolRouter ++ searchWikiToolRouter ++
    ganttToolRouter ++ filesToolRouter ++ checklistsToolRouter ++
    productsToolRouter ++ crmToolRouter ++ dmsfToolRouter

def removeRoute (router : List String) (name : String) : List String :=
  router.filter (· ≠ name)

namespace Deployment

def toolRouter (deployment : Deployment) : List String :=
  let router := pluginTools.foldl
    (fun router entry =>
      if entry.2 deployment.plugins then router else removeRoute router entry.1)
    mergedRouter
  let router :=
    if deployment.readOnly then writeTools.foldl removeRoute router else router
  if deployment.exposeAdminTools then router
  else removeRoute router "cleanup_attachment_files"

end Deployment

/-! ## Listing and calling -/

/-- Whether the tool is listed for a token with these scopes. -/
def visibleFor (tool : String) (held : Finset String) : Bool :=
  if isAdmin held then true
  else if tool = "update_redmine_issue" then
    decide ("edit_issues" ∈ held) || decide ("add_issue_notes" ∈ held)
  else
    match toolScopes.lookup tool with
    | none => false
    | some (.fixed scopes) => scopes.all fun scope => scope ∈ held
    | some (.anyOf scopes) => anyHeld scopes held
    | some (.perAction actions) =>
        actions.any fun entry => entry.2.all fun scope => scope ∈ held

/-- What becomes of a request to call a tool. -/
inductive CallOutcome where
  | denied (result : CallToolResult)
  | notFound
  | run
deriving DecidableEq

namespace Deployment

def listTools (deployment : Deployment) (enforcing : Bool)
    (held : Finset String) : List String :=
  if enforcing then deployment.toolRouter.filter fun tool => visibleFor tool held
  else deployment.toolRouter

def callTool (deployment : Deployment) (enforcing : Bool)
    (held : Finset String) (tool : String) (args : Option JsonObject) :
    CallOutcome :=
  match dispatchToolCall enforcing held tool args with
  | .denied result => .denied result
  | .routed => if tool ∈ deployment.toolRouter then .run else .notFound

end Deployment

/-! ## Advertised scopes -/

def readScopes : List String :=
  ["view_project", "search_project", "view_members", "view_issues",
    "view_documents", "view_files", "view_wiki_pages", "view_time_entries",
    "view_private_notes", "view_issue_watchers"]

def writeScopes : List String :=
  ["add_issues", "edit_issues", "delete_issues", "manage_subtasks",
    "manage_issue_relations", "add_issue_watchers", "delete_issue_watchers",
    "add_issue_notes", "edit_issue_notes", "set_notes_private", "log_time",
    "edit_time_entries", "manage_versions", "manage_categories",
    "manage_wiki", "edit_wiki_pages", "rename_wiki_pages",
    "delete_wiki_pages", "add_documents", "edit_documents",
    "delete_documents", "manage_files", "manage_members"]

def agileReadScopes : List String := ["view_agile_queries"]

def tagsReadScopes : List String := ["view_issue_tags"]

def tagsWriteScopes : List String := ["create_issue_tags", "edit_issue_tags"]

def advertised (readOnly agile tags : Bool) : List String :=
  readScopes ++ (if readOnly then [] else writeScopes) ++
    (if agile then agileReadScopes else []) ++
    (if tags then
      tagsReadScopes ++ (if readOnly then [] else tagsWriteScopes)
    else [])

def Deployment.advertised (deployment : Deployment) : List String :=
  RuprogressMcp.advertised deployment.readOnly deployment.plugins.agile
    deployment.plugins.tags

/-! ## What a requirement asks -/

/-- The scopes meet the requirement. -/
def Requirement.Met (held : Finset String) : Requirement → Prop
  | .unchecked => True
  | .scopes required => ∀ scope ∈ required, scope ∈ held
  | .anyOf any => ∃ scope ∈ any, scope ∈ held
  | .scopesWithAnyOf all any =>
      (∀ scope ∈ all, scope ∈ held) ∧ ∃ scope ∈ any, scope ∈ held
  | .unmapped => False

section Dispatch

variable {held : Finset String} {tool : String} {args : Option JsonObject}

theorem anyHeld_iff {candidates : List String} :
    anyHeld candidates held = true ↔ ∃ scope ∈ candidates, scope ∈ held := by
  simp [anyHeld]

theorem scopeDenial_eq_none_iff :
    scopeDenial tool args held = none ↔ (requiredForCall tool args).Met held := by
  unfold scopeDenial
  cases requiredForCall tool args with
  | unchecked => simp [Requirement.Met]
  | scopes required =>
      simp only [Requirement.Met, ← missing_isEmpty]
      split <;> simp_all
  | anyOf any =>
      simp only [Requirement.Met, ← anyHeld_iff]
      split <;> simp_all
  | scopesWithAnyOf all any =>
      simp only [Requirement.Met, ← anyHeld_iff, ← missing_isEmpty]
      by_cases hall : (missing all held).isEmpty = true
      · by_cases hany : anyHeld any held = true <;> simp [hall, hany]
      · simp [hall]
  | unmapped => simp [Requirement.Met]

/-- With enforcement a call is routed exactly for an administrator and for a
token that meets the call's requirement. -/
theorem dispatch_routed_iff :
    dispatchToolCall true held tool args = .routed ↔
      isAdmin held = true ∨ (requiredForCall tool args).Met held := by
  rw [← scopeDenial_eq_none_iff]
  unfold dispatchToolCall
  cases hadmin : isAdmin held with
  | true => simp
  | false => cases scopeDenial tool args held <;> simp

end Dispatch

/-! ## The scope table -/

def isUpdateOrCreate (tool : String) : Bool :=
  tool = "update_redmine_issue" || tool = "create_redmine_issue"

theorem lookup_of_mem_nodup
    {α β : Type} [BEq α] [LawfulBEq α] {table : List (α × β)} {key : α}
    {value : β} (hnodup : (table.map Prod.fst).Nodup)
    (hmem : (key, value) ∈ table) : table.lookup key = some value := by
  obtain ⟨before, after, rfl⟩ := List.append_of_mem hmem
  refine List.lookup_eq_some_iff.mpr ⟨before, after, rfl, fun entry hentry => ?_⟩
  simp only [List.map_append, List.map_cons, List.nodup_append] at hnodup
  have hne := hnodup.2.2 _ (List.mem_map_of_mem hentry) key (by simp)
  simpa using fun h : key = entry.1 => hne h.symm

theorem mem_of_lookup_some
    {α β : Type} [BEq α] [LawfulBEq α] {table : List (α × β)} {key : α}
    {value : β} (hlookup : table.lookup key = some value) :
    (key, value) ∈ table := by
  obtain ⟨before, after, rfl, -⟩ := List.lookup_eq_some_iff.mp hlookup
  simp

/-- The actions of a tool are distinct, and there is one at least. -/
theorem perAction_distinct {tool : String}
    {actions : List (String × List String)}
    (hrule : toolScopes.lookup tool = some (.perAction actions)) :
    (actions.map Prod.fst).Nodup ∧ actions ≠ [] := by
  have hall : ∀ entry ∈ toolScopes, ∀ actions, entry.2 = .perAction actions →
      (actions.map Prod.fst).Nodup ∧ actions ≠ [] := by
    simp [toolScopes]
  exact hall _ (mem_of_lookup_some hrule) actions rfl

theorem lookup_update :
    toolScopes.lookup "update_redmine_issue" = some (.fixed updateIssueBase) := by
  simp [toolScopes, List.lookup_cons]

theorem lookup_create :
    toolScopes.lookup "create_redmine_issue" = some (.fixed createIssueBase) := by
  simp [toolScopes, List.lookup_cons]

section Requirements

variable {tool : String} {args : Option JsonObject}

theorem requiredForCall_of_none (hrule : toolScopes.lookup tool = none) :
    requiredForCall tool args = .unmapped := by
  unfold requiredForCall
  have hupdate : tool ≠ "update_redmine_issue" := by
    rintro rfl
    simp [lookup_update] at hrule
  have hcreate : tool ≠ "create_redmine_issue" := by
    rintro rfl
    simp [lookup_create] at hrule
  simp [hupdate, hcreate, hrule]

theorem requiredForCall_of_fixed {scopes : List String}
    (hupdate : tool ≠ "update_redmine_issue")
    (hcreate : tool ≠ "create_redmine_issue")
    (hrule : toolScopes.lookup tool = some (.fixed scopes)) :
    requiredForCall tool args = .scopes scopes := by
  unfold requiredForCall
  simp [hupdate, hcreate, hrule]

theorem requiredForCall_of_anyOf {scopes : List String}
    (hrule : toolScopes.lookup tool = some (.anyOf scopes)) :
    requiredForCall tool args = .anyOf scopes := by
  unfold requiredForCall
  have hupdate : tool ≠ "update_redmine_issue" := by
    rintro rfl
    simp [lookup_update] at hrule
  have hcreate : tool ≠ "create_redmine_issue" := by
    rintro rfl
    simp [lookup_create] at hrule
  simp [hupdate, hcreate, hrule]

theorem requiredForCall_of_perAction {actions : List (String × List String)}
    (hrule : toolScopes.lookup tool = some (.perAction actions)) :
    requiredForCall tool args =
      ((actionStr args).bind fun action => actions.lookup action).elim
        .unchecked .scopes := by
  unfold requiredForCall
  have hupdate : tool ≠ "update_redmine_issue" := by
    rintro rfl
    simp [lookup_update] at hrule
  have hcreate : tool ≠ "create_redmine_issue" := by
    rintro rfl
    simp [lookup_create] at hrule
  simp only [hupdate, hcreate, hrule, if_false]
  cases actionStr args with
  | none => rfl
  | some action => cases h : actions.lookup action <;> simp [h]

theorem createRequirement_met_iff {held : Finset String} :
    (createRedmineIssueRequirement args).Met held ↔
      "add_issues" ∈ held ∧
        ((args.map fun args => args.containsKey "tag_list").getD false = true →
          ∃ scope ∈ tagListScopes, scope ∈ held) := by
  unfold createRedmineIssueRequirement
  by_cases htags :
      (args.map fun args => args.containsKey "tag_list").getD false = true
  · rw [if_pos htags]
    simp [Requirement.Met, createIssueBase, htags]
  · rw [if_neg htags]
    simp [Requirement.Met, createIssueBase, htags]

/-- An update beyond notes asks for the right to edit issues, and for more with
each kind of field it writes. -/
theorem updateRequirement_met_iff {held : Finset String} {args : JsonObject}
    (hnotes : isNotesOnlyUpdate args = false) :
    (updateRedmineIssueRequirement (some args)).Met held ↔
      "edit_issues" ∈ held ∧
        (reparenting args = true → "manage_subtasks" ∈ held) ∧
          (hasAgileField args = true → "view_agile_queries" ∈ held) ∧
            (args.containsKey "tag_list" = true →
              ∃ scope ∈ tagListScopes, scope ∈ held) := by
  simp only [updateRedmineIssueRequirement, hnotes, Bool.false_eq_true, if_false]
  cases hparent : reparenting args <;> cases hagile : hasAgileField args <;>
    cases htags : args.containsKey "tag_list" <;>
      simp [Requirement.Met, updateIssueBase, updateIssueWithSubtasks,
        updateIssueBaseWithAgile, updateIssueWithSubtasksAndAgile, and_assoc]

/-- An update asks for the right to edit issues, or for that to add notes. -/
theorem updateRequirement_met {held : Finset String}
    (hmet : (updateRedmineIssueRequirement args).Met held) :
    "edit_issues" ∈ held ∨ "add_issue_notes" ∈ held := by
  cases args with
  | none => exact .inl (hmet _ (by simp [updateIssueBase]))
  | some args =>
      cases hnotes : isNotesOnlyUpdate args with
      | true =>
          simp only [updateRedmineIssueRequirement, hnotes, if_true] at hmet
          exact .inr (hmet _ (by simp [updateIssueNotesOnly]))
      | false => exact .inl ((updateRequirement_met_iff hnotes).mp hmet).1

end Requirements

/-! ## Listed tools are callable -/

/-- The arguments that name an action and nothing else. -/
def actionArgs (action : String) : Option JsonObject :=
  some [("action", .str action)]

@[simp] theorem actionStr_actionArgs (action : String) :
    actionStr (actionArgs action) = some action := rfl

theorem requiredForCall_actionArgs {tool : String}
    {actions : List (String × List String)} {entry : String × List String}
    (hrule : toolScopes.lookup tool = some (.perAction actions))
    (hentry : entry ∈ actions) :
    requiredForCall tool (actionArgs entry.1) = .scopes entry.2 := by
  rw [requiredForCall_of_perAction hrule, actionStr_actionArgs, Option.bind_some,
    lookup_of_mem_nodup (perAction_distinct hrule).1 hentry, Option.elim_some]

/-- Some arguments of every tool have their scopes checked. -/
theorem exists_checked (tool : String) :
    ∃ args, requiredForCall tool args ≠ .unchecked := by
  by_cases hupdate : tool = "update_redmine_issue"
  · exact ⟨none, by simp [hupdate, requiredForCall, updateRedmineIssueRequirement]⟩
  by_cases hcreate : tool = "create_redmine_issue"
  · exact ⟨none, by simp [hcreate, requiredForCall, createRedmineIssueRequirement]⟩
  cases hrule : toolScopes.lookup tool with
  | none => exact ⟨none, by simp [requiredForCall_of_none hrule]⟩
  | some rule =>
      cases rule with
      | fixed scopes =>
          exact ⟨none, by simp [requiredForCall_of_fixed hupdate hcreate hrule]⟩
      | anyOf scopes => exact ⟨none, by simp [requiredForCall_of_anyOf hrule]⟩
      | perAction actions =>
          obtain ⟨entry, hentry⟩ :=
            List.exists_mem_of_ne_nil _ (perAction_distinct hrule).2
          refine ⟨actionArgs entry.1, ?_⟩
          simp [requiredForCall_actionArgs hrule hentry]

/-- A token without the administrator scope sees the tools of which it can
meet the requirement of some checked arguments. -/
theorem visibleFor_iff_met {tool : String} {held : Finset String}
    (hadmin : isAdmin held = false) :
    visibleFor tool held = true ↔
      ∃ args, requiredForCall tool args ≠ .unchecked ∧
        (requiredForCall tool args).Met held := by
  unfold visibleFor
  simp only [hadmin, Bool.false_eq_true, if_false]
  by_cases hupdate : tool = "update_redmine_issue"
  · subst hupdate
    simp only [if_true, Bool.or_eq_true, decide_eq_true_eq]
    constructor
    · rintro (hedit | hnotes)
      · exact ⟨none, by simp [requiredForCall, updateRedmineIssueRequirement],
          by simpa [requiredForCall, updateRedmineIssueRequirement,
            Requirement.Met, updateIssueBase] using hedit⟩
      · refine ⟨some [("notes", .null)], ?_⟩
        have hrequired :
            requiredForCall "update_redmine_issue" (some [("notes", .null)]) =
              .scopes updateIssueNotesOnly := by
          simp [requiredForCall, updateRedmineIssueRequirement,
            isNotesOnlyUpdate, notesOnlyKeys, notesOnlyFields]
        rw [hrequired]
        exact ⟨by simp, by simpa [Requirement.Met, updateIssueNotesOnly] using hnotes⟩
    · rintro ⟨args, -, hmet⟩
      exact updateRequirement_met (by simpa [requiredForCall] using hmet)
  · simp only [hupdate, if_false]
    cases hrule : toolScopes.lookup tool with
    | none => simp [requiredForCall_of_none hrule, Requirement.Met]
    | some rule =>
        cases rule with
        | fixed scopes =>
            by_cases hcreate : tool = "create_redmine_issue"
            · subst hcreate
              rw [lookup_create] at hrule
              obtain rfl : createIssueBase = scopes := by simpa using hrule
              constructor
              · intro hall
                exact ⟨none, by simp [requiredForCall, createRedmineIssueRequirement],
                  by simpa [requiredForCall, createRedmineIssueRequirement,
                    Requirement.Met] using hall⟩
              · rintro ⟨args, -, hmet⟩
                have hadd : "add_issues" ∈ held :=
                  (createRequirement_met_iff.mp
                    (by simpa [requiredForCall] using hmet)).1
                simpa [createIssueBase] using hadd
            · simp [requiredForCall_of_fixed hupdate hcreate hrule, Requirement.Met]
        | anyOf scopes =>
            simp [requiredForCall_of_anyOf hrule, Requirement.Met, anyHeld_iff]
        | perAction actions =>
            constructor
            · intro hany
              simp only [List.any_eq_true, List.all_eq_true,
                decide_eq_true_eq] at hany
              obtain ⟨entry, hentry, hheld⟩ := hany
              refine ⟨actionArgs entry.1, ?_⟩
              rw [requiredForCall_actionArgs hrule hentry]
              exact ⟨by simp, hheld⟩
            · rintro ⟨args, hchecked, hmet⟩
              rw [requiredForCall_of_perAction hrule] at hchecked hmet
              cases hfound :
                  (actionStr args).bind fun action => actions.lookup action with
              | none => simp [hfound] at hchecked
              | some scopes =>
                  rw [hfound] at hmet
                  obtain ⟨action, -, hlookup⟩ := Option.bind_eq_some_iff.mp hfound
                  simp only [List.any_eq_true, List.all_eq_true,
                    decide_eq_true_eq]
                  exact ⟨_, mem_of_lookup_some hlookup, hmet⟩

/-- A token is shown a tool exactly when it can run it: some arguments whose
scopes are checked get through the checks. -/
theorem Deployment.listed_iff_callable
    (deployment : Deployment) (held : Finset String) (tool : String) :
    tool ∈ deployment.listTools true held ↔
      ∃ args, requiredForCall tool args ≠ .unchecked ∧
        deployment.callTool true held tool args = .run := by
  have hvisible : visibleFor tool held = true ↔
      ∃ args, requiredForCall tool args ≠ .unchecked ∧
        dispatchToolCall true held tool args = .routed := by
    simp only [dispatch_routed_iff]
    cases hadmin : isAdmin held with
    | true => simpa [visibleFor, hadmin] using exists_checked tool
    | false => simpa using visibleFor_iff_met hadmin
  have hrun : ∀ args, deployment.callTool true held tool args = .run ↔
      dispatchToolCall true held tool args = .routed ∧
        tool ∈ deployment.toolRouter := by
    intro args
    unfold Deployment.callTool
    cases dispatchToolCall true held tool args with
    | denied result => simp
    | routed => by_cases hserved : tool ∈ deployment.toolRouter <;> simp [hserved]
  simp only [Deployment.listTools, if_true, List.mem_filter, hvisible, hrun]
  constructor
  · rintro ⟨hserved, args, hchecked, hrouted⟩
    exact ⟨args, hchecked, hrouted, hserved⟩
  · rintro ⟨args, hchecked, hrouted, hserved⟩
    exact ⟨hserved, args, hchecked, hrouted⟩

/-! ## Served tools -/

@[simp] theorem mem_removeRoute {router : List String} {name tool : String} :
    tool ∈ removeRoute router name ↔ tool ∈ router ∧ tool ≠ name := by
  simp [removeRoute]

theorem mem_foldl_removeRoute {names router : List String} {tool : String} :
    tool ∈ names.foldl removeRoute router ↔ tool ∈ router ∧ tool ∉ names := by
  induction names generalizing router with
  | nil => simp
  | cons name rest ih =>
      rw [List.foldl_cons, ih, mem_removeRoute, List.mem_cons, not_or, and_assoc]

theorem mem_foldl_plugins
    {plugins : PluginFlags} {entries : List (String × (PluginFlags → Bool))}
    {router : List String} {tool : String} :
    tool ∈ entries.foldl
        (fun router entry =>
          if entry.2 plugins then router else removeRoute router entry.1)
        router ↔
      tool ∈ router ∧ ∀ entry ∈ entries, entry.1 = tool → entry.2 plugins = true := by
  induction entries generalizing router with
  | nil => simp
  | cons entry rest ih =>
      rw [List.foldl_cons, ih, List.forall_mem_cons]
      cases henabled : entry.2 plugins with
      | true => simp
      | false =>
          have hname : tool ≠ entry.1 ↔ (entry.1 = tool → False) := ⟨
            fun hne heq => hne heq.symm, fun hne heq => hne heq.symm⟩
          rw [if_neg (by simp), mem_removeRoute, and_assoc, hname]
          simp

theorem Deployment.mem_toolRouter_iff {deployment : Deployment} {tool : String} :
    tool ∈ deployment.toolRouter ↔
      (tool ∈ mergedRouter ∧ ∀ entry ∈ pluginTools, entry.1 = tool →
          entry.2 deployment.plugins = true) ∧
        (deployment.readOnly = true → tool ∉ writeTools) ∧
          (deployment.exposeAdminTools = false →
            tool ≠ "cleanup_attachment_files") := by
  unfold Deployment.toolRouter
  rw [← mem_foldl_plugins]
  cases deployment.readOnly <;> cases deployment.exposeAdminTools <;>
    simp [mem_foldl_removeRoute, and_assoc]

/-! ## What the advertised scopes open -/

/-- The call names an action other than the reading ones. -/
def WritesByAction (tool : String) (args : Option JsonObject) : Prop :=
  ∃ actions action scopes,
    toolScopes.lookup tool = some (.perAction actions) ∧
      actionStr args = some action ∧ actions.lookup action = some scopes ∧
        action ∉ ["list", "get"]

/-- The call updates an issue with a field of the agile plugin. -/
def WritesAgile (tool : String) (args : Option JsonObject) : Prop :=
  tool = "update_redmine_issue" ∧ args.any hasAgileField = true

/-- The call creates or updates an issue with tags. -/
def WritesTags (tool : String) (args : Option JsonObject) : Prop :=
  isUpdateOrCreate tool = true ∧
    args.any (fun args => args.containsKey "tag_list") = true

theorem merged_mapped : ∀ tool ∈ mergedRouter, toolScopes.lookup tool ≠ none := by
  decide +kernel

theorem fixed_scopes_advertised :
    ∀ entry ∈ toolScopes, ∀ scopes, entry.2 = .fixed scopes →
      (∀ scope ∈ scopes, scope ∈ readScopes ++ writeScopes) ∧
        (entry.1 ∉ writeTools → ∀ scope ∈ scopes, scope ∈ readScopes) := by
  simp [toolScopes, writeTools, readScopes, writeScopes, updateIssueBase,
    createIssueBase]

def ScopeRule.actions : ScopeRule → List (String × List String)
  | .perAction actions => actions
  | _ => []

theorem action_scopes_advertised :
    ∀ entry ∈ toolScopes, ∀ action ∈ entry.2.actions,
      action.2.all (· ∈ readScopes ++ writeScopes) = true := by
  decide +kernel

/-- Of a tool that is not removed from read-only servers, the reading actions
ask for scopes to read and each other action for one that is not advertised
there. -/
theorem action_scopes_read :
    ∀ entry ∈ toolScopes, entry.1 ∉ writeTools → ∀ action ∈ entry.2.actions,
      if action.1 ∈ ["list", "get"] then
        action.2.all (· ∈ readScopes) = true
      else
        action.2.any
          (· ∉ readScopes ++ agileReadScopes ++ tagsReadScopes) = true := by
  decide +kernel

theorem no_anyOf : ∀ entry ∈ toolScopes, ∀ scopes, entry.2 ≠ .anyOf scopes := by
  simp [toolScopes]

section Advertised

variable {deployment : Deployment} {tool : String} {args : Option JsonObject}

theorem mem_advertised {scope : String} :
    scope ∈ deployment.advertised ↔
      scope ∈ readScopes ∨
        (deployment.readOnly = false ∧ scope ∈ writeScopes) ∨
          (deployment.plugins.agile = true ∧ scope ∈ agileReadScopes) ∨
            (deployment.plugins.tags = true ∧
              (scope ∈ tagsReadScopes ∨
                deployment.readOnly = false ∧ scope ∈ tagsWriteScopes)) := by
  unfold Deployment.advertised advertised
  cases deployment.readOnly <;> cases deployment.plugins.agile <;>
    cases deployment.plugins.tags <;> simp

theorem mem_advertised_of_read {scope : String} (hscope : scope ∈ readScopes) :
    scope ∈ deployment.advertised :=
  mem_advertised.mpr (.inl hscope)

theorem mem_advertised_of_writable {scope : String}
    (hwritable : deployment.readOnly = false)
    (hscope : scope ∈ readScopes ++ writeScopes) :
    scope ∈ deployment.advertised := by
  rcases List.mem_append.mp hscope with hread | hwrite
  · exact mem_advertised_of_read hread
  · exact mem_advertised.mpr (.inr (.inl ⟨hwritable, hwrite⟩))

/-- A read-only server advertises nothing beyond the scopes to read. -/
theorem mem_of_mem_advertised {scope : String}
    (hreadOnly : deployment.readOnly = true)
    (hscope : scope ∈ deployment.advertised) :
    scope ∈ readScopes ++ agileReadScopes ++ tagsReadScopes := by
  rcases mem_advertised.mp hscope with hread | ⟨hwritable, -⟩ | ⟨-, hagile⟩ |
    ⟨-, htags | ⟨hwritable, -⟩⟩
  · simp [hread]
  · rw [hreadOnly] at hwritable
    exact absurd hwritable (by simp)
  · simp [hagile]
  · simp [htags]
  · rw [hreadOnly] at hwritable
    exact absurd hwritable (by simp)

theorem isAdmin_advertised : isAdmin deployment.advertised.toFinset = false := by
  simp [isAdmin, adminScope, mem_advertised, readScopes, writeScopes,
    agileReadScopes, tagsReadScopes, tagsWriteScopes]

theorem agile_advertised_iff :
    "view_agile_queries" ∈ deployment.advertised ↔
      deployment.plugins.agile = true := by
  simp [mem_advertised, readScopes, writeScopes, agileReadScopes,
    tagsReadScopes, tagsWriteScopes]

theorem tagList_advertised_iff (hwritable : deployment.readOnly = false) :
    (∃ scope ∈ tagListScopes, scope ∈ deployment.advertised) ↔
      deployment.plugins.tags = true := by
  simp [tagListScopes, mem_advertised, readScopes, writeScopes,
    agileReadScopes, tagsReadScopes, tagsWriteScopes, hwritable]

theorem Deployment.run_iff_met (hserved : tool ∈ deployment.toolRouter) :
    deployment.callTool true deployment.advertised.toFinset tool args = .run ↔
      (requiredForCall tool args).Met deployment.advertised.toFinset := by
  have hrouted : dispatchToolCall true deployment.advertised.toFinset tool args =
      .routed ↔ _ := dispatch_routed_iff
  simp only [isAdmin_advertised, Bool.false_eq_true, false_or] at hrouted
  rw [← hrouted]
  unfold Deployment.callTool
  cases dispatchToolCall true deployment.advertised.toFinset tool args <;>
    simp [hserved]

theorem hasAgileField_of_notesOnly {given : JsonObject}
    (hnotes : isNotesOnlyUpdate given = true) : hasAgileField given = false := by
  have habsent : ∀ field ∈ agileUpdateFields, given.containsKey field = false := by
    intro field hfield
    refine absent_of_notesOnly hnotes ?_ ?_ <;> revert hfield <;>
      simp only [agileUpdateFields, notesOnlyFields] <;> grind
  simpa [hasAgileField] using habsent

theorem tagList_of_notesOnly {given : JsonObject}
    (hnotes : isNotesOnlyUpdate given = true) :
    given.containsKey "tag_list" = false :=
  absent_of_notesOnly hnotes (by simp) (by simp [notesOnlyFields])

/-- A server that is not read-only advertises what an update asks for, but for
the scopes of the plugins that are off. -/
theorem update_met_iff (hwritable : deployment.readOnly = false) :
    (requiredForCall "update_redmine_issue" args).Met
        deployment.advertised.toFinset ↔
      (args.any hasAgileField = true → deployment.plugins.agile = true) ∧
        (args.any (fun args => args.containsKey "tag_list") = true →
          deployment.plugins.tags = true) := by
  have hwrite : ∀ scope ∈ writeScopes, scope ∈ deployment.advertised :=
    fun scope hscope =>
      mem_advertised_of_writable hwritable (List.mem_append_right _ hscope)
  cases args with
  | none =>
      simpa [requiredForCall, updateRedmineIssueRequirement, Requirement.Met,
        updateIssueBase] using hwrite "edit_issues" (by simp [writeScopes])
  | some given =>
      have hrequired : requiredForCall "update_redmine_issue" (some given) =
          updateRedmineIssueRequirement (some given) := by
        simp [requiredForCall]
      rw [hrequired, Option.any_some, Option.any_some]
      cases hnotes : isNotesOnlyUpdate given with
      | true =>
          simpa [updateRedmineIssueRequirement, hnotes, Requirement.Met,
            updateIssueNotesOnly, hasAgileField_of_notesOnly hnotes,
            tagList_of_notesOnly hnotes] using hwrite "add_issue_notes" (by simp [writeScopes])
      | false =>
          rw [updateRequirement_met_iff hnotes]
          simp only [List.mem_toFinset, hwrite "edit_issues" (by simp [writeScopes]),
            hwrite "manage_subtasks" (by simp [writeScopes]), implies_true, true_and,
            agile_advertised_iff, tagList_advertised_iff hwritable]

theorem create_met_iff (hwritable : deployment.readOnly = false) :
    (requiredForCall "create_redmine_issue" args).Met
        deployment.advertised.toFinset ↔
      (args.any (fun args => args.containsKey "tag_list") = true →
        deployment.plugins.tags = true) := by
  have hrequired : requiredForCall "create_redmine_issue" args =
      createRedmineIssueRequirement args := by
    simp [requiredForCall]
  have hadd : "add_issues" ∈ deployment.advertised :=
    mem_advertised_of_writable hwritable (by simp [writeScopes])
  rw [hrequired, createRequirement_met_iff]
  cases args <;>
    simp [hadd, ← tagList_advertised_iff hwritable]

/-- A tool with fixed scopes that is served has them advertised. -/
theorem fixed_met {scopes : List String}
    (hkept : deployment.readOnly = true → tool ∉ writeTools)
    (hrule : toolScopes.lookup tool = some (.fixed scopes)) :
    (Requirement.scopes scopes).Met deployment.advertised.toFinset := by
  have hscopes := fixed_scopes_advertised _ (mem_of_lookup_some hrule) scopes rfl
  intro scope hscope
  rw [List.mem_toFinset]
  cases hreadOnly : deployment.readOnly with
  | true => exact mem_advertised_of_read (hscopes.2 (hkept hreadOnly) scope hscope)
  | false => exact mem_advertised_of_writable hreadOnly (hscopes.1 scope hscope)

/-- Of a tool with scopes for each action, a served one, the actions that a
read-only server does not advertise are those that write. -/
theorem perAction_met_iff {actions : List (String × List String)}
    (hkept : deployment.readOnly = true → tool ∉ writeTools)
    (hrule : toolScopes.lookup tool = some (.perAction actions)) :
    (requiredForCall tool args).Met deployment.advertised.toFinset ↔
      (deployment.readOnly = true → ¬ WritesByAction tool args) := by
  have hwrites : WritesByAction tool args ↔
      ∃ action scopes, actionStr args = some action ∧
        actions.lookup action = some scopes ∧ action ∉ ["list", "get"] := by
    constructor
    · rintro ⟨actions', action, scopes, hrule', hrest⟩
      obtain rfl : actions = actions' := by simpa [hrule] using hrule'
      exact ⟨action, scopes, hrest⟩
    · rintro ⟨action, scopes, hrest⟩
      exact ⟨actions, action, scopes, hrule, hrest⟩
  rw [requiredForCall_of_perAction hrule, hwrites]
  cases haction : actionStr args with
  | none => simp [Requirement.Met]
  | some action =>
      rw [Option.bind_some]
      cases hlookup : actions.lookup action with
      | none => simp [Requirement.Met, hlookup]
      | some scopes =>
          have hmem := mem_of_lookup_some hlookup
          have hall := action_scopes_advertised _ (mem_of_lookup_some hrule) _ hmem
          simp only [List.all_eq_true, decide_eq_true_eq] at hall
          cases hreadOnly : deployment.readOnly with
          | false =>
              simpa [Requirement.Met] using fun scope hscope =>
                mem_advertised_of_writable hreadOnly (hall scope hscope)
          | true =>
              have hread := action_scopes_read _ (mem_of_lookup_some hrule)
                (hkept hreadOnly) _ hmem
              by_cases hreads : action ∈ ["list", "get"]
              · rw [if_pos hreads] at hread
                simp only [List.all_eq_true, decide_eq_true_eq] at hread
                refine iff_of_true ?_ ?_
                · intro scope hscope
                  exact List.mem_toFinset.mpr
                    (mem_advertised_of_read (hread scope hscope))
                · rintro - ⟨action', scopes', haction', -, hwrite⟩
                  obtain rfl : action = action' := by simpa using haction'
                  exact hwrite hreads
              · rw [if_neg hreads] at hread
                simp only [List.any_eq_true, decide_eq_true_eq] at hread
                obtain ⟨scope, hscope, hnot⟩ := hread
                refine iff_of_false ?_ ?_
                · intro hmet
                  exact hnot (mem_of_mem_advertised hreadOnly
                    (List.mem_toFinset.mp (hmet scope hscope)))
                · intro hnever
                  exact hnever rfl ⟨action, scopes, rfl, hlookup, hreads⟩

end Advertised

/-- A token that holds exactly the advertised scopes can make every call of a
served tool, but for the writing actions on a read-only server and the fields
of a plugin that is off. -/
theorem Deployment.advertised_runs_iff
    (deployment : Deployment) (tool : String)
    (hserved : tool ∈ deployment.toolRouter) (args : Option JsonObject) :
    deployment.callTool true deployment.advertised.toFinset tool args = .run ↔
      (deployment.readOnly = true → ¬ WritesByAction tool args) ∧
        (WritesAgile tool args → deployment.plugins.agile = true) ∧
          (WritesTags tool args → deployment.plugins.tags = true) := by
  have hkept := (Deployment.mem_toolRouter_iff.mp hserved).2.1
  have hmerged := (Deployment.mem_toolRouter_iff.mp hserved).1.1
  rw [Deployment.run_iff_met hserved]
  by_cases hupdate : tool = "update_redmine_issue"
  · subst hupdate
    have hwritable : deployment.readOnly = false := by
      by_contra hreadOnly
      exact hkept (by simpa using hreadOnly) (by simp [writeTools])
    simp [update_met_iff hwritable, hwritable, WritesAgile, WritesTags,
      isUpdateOrCreate]
  by_cases hcreate : tool = "create_redmine_issue"
  · subst hcreate
    have hwritable : deployment.readOnly = false := by
      by_contra hreadOnly
      exact hkept (by simpa using hreadOnly) (by simp [writeTools])
    simp [create_met_iff hwritable, hwritable, WritesAgile, WritesTags,
      isUpdateOrCreate]
  have hissues : ¬ WritesAgile tool args ∧ ¬ WritesTags tool args := by
    simp [WritesAgile, WritesTags, isUpdateOrCreate, hupdate, hcreate]
  simp only [hissues.1, hissues.2, false_implies, and_true]
  cases hrule : toolScopes.lookup tool with
  | none => exact absurd hrule (merged_mapped tool hmerged)
  | some rule =>
      cases rule with
      | fixed scopes =>
          rw [requiredForCall_of_fixed hupdate hcreate hrule]
          refine iff_of_true (fixed_met hkept hrule) ?_
          rintro - ⟨actions, _, _, hrule', -⟩
          simp [hrule] at hrule'
      | anyOf scopes =>
          exact absurd rfl (no_anyOf _ (mem_of_lookup_some hrule) scopes)
      | perAction actions => exact perAction_met_iff hkept hrule

namespace Sample

/-- A read-only server without plugins. -/
def readOnlyServer : Deployment :=
  ⟨⟨false, false, false, false, false, false⟩, true, false⟩

theorem relation_create_not_advertised :
    "manage_issue_relation" ∈ readOnlyServer.toolRouter ∧
      readOnlyServer.callTool true readOnlyServer.advertised.toFinset
        "manage_issue_relation" (actionArgs "create") ≠ .run := by
  have hserved : "manage_issue_relation" ∈ readOnlyServer.toolRouter := by
    decide +kernel
  refine ⟨hserved, fun hrun => ?_⟩
  exact ((readOnlyServer.advertised_runs_iff _ hserved _).mp hrun).1 rfl
    ⟨_, "create", _, rfl, rfl, rfl, by simp⟩

end Sample

end RuprogressMcp
