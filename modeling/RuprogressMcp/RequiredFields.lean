import RuprogressMcp.IssueParams

/-!
# Errors of Redmine and the recovery of required fields

The in-band form of every error of the Redmine client, and the decision after
a rejected issue write: a validation error that names missing fields may be
answered once by filling their configured defaults, provided the definitions
of the project's custom fields can be read.
-/

namespace RuprogressMcp

inductive RedmineError where
  | transport
  | api (status : ℕ) (errors : List String)
  | unauthorized
  | forbidden
  | notFound
  | rateLimited (retryAfter : Option ℕ)
  | decode (context : String)
  | config (reason : String)
  | limitExceeded (what : String) (limit actual : ℕ)
  | oauth (status : ℕ) (error : String) (description : Option String)
  | foreignOrigin (origin : String)
deriving DecidableEq

/-- The error envelope of a failed request; `displayStatus` is the printed
form of a status code. -/
def toToolError (displayStatus : ℕ → String) : RedmineError → CallToolResult
  | .unauthorized => err .unauthorized
      "Redmine rejected the configured credential (401 unauthorized)"
      (some ("ask the operator to check the configured Redmine credential; " ++
        "do not retry with the same request"))
  | .forbidden => err .forbidden
      ("the configured Redmine credential lacks permission for this " ++
        "operation (403 forbidden)")
      (some ("try a different tool, or ask the user for an account with the " ++
        "required permission"))
  | .notFound => err .notFound "the requested Redmine resource was not found"
      (some ("verify the id/identifier is correct; it may have been deleted, " ++
        "or the credential cannot see it"))
  | .rateLimited _ => err .rateLimited "Redmine rate-limited this request"
      (some "wait before retrying the same request")
  | .api status errors =>
      if status = 422 then
        err .validationFailed
          ("Redmine rejected the request: " ++ String.intercalate "; " errors)
          (some "fix the fields named in the error and retry")
      else if 500 ≤ status ∧ status < 600 then
        err .unexpectedResponse
          ("Redmine returned " ++ displayStatus status ++ ": " ++
            String.intercalate "; " errors)
          (some ("Redmine failed internally; under OAuth on Redmine older " ++
            "than 6.1.6/7.0.3 this is what a locked or inactive user's token " ++
            "produces - ask the operator"))
      else
        err .unexpectedResponse
          ("Redmine returned " ++ displayStatus status ++ ": " ++
            String.intercalate "; " errors) none
  | .transport => err .unreachable "could not reach the Redmine server"
      (some "retry later; do not change the request")
  | .decode context => err .unexpectedResponse
      ("received an unexpected response shape from Redmine while reading " ++
        context) none
  | .config reason => err .misconfigured
      ("invalid Redmine client configuration: " ++ reason)
      (some ("this is a server configuration problem the model cannot fix; " ++
        "report it to the operator"))
  | .limitExceeded what limit actual => err .limitExceeded
      ("Redmine response exceeded the configured limit for " ++ what ++ ": " ++
        toString actual ++ " > " ++ toString limit)
      (some ("narrow the request (a smaller limit or a more specific filter) " ++
        "and retry"))
  | .foreignOrigin _ => err .unexpectedResponse
      ("Redmine returned a download link or redirect pointing outside the " ++
        "configured Redmine origin")
      (some ("this is a server configuration problem the model cannot fix; " ++
        "the operator should check REDMINE_URL"))
  | .oauth _ error _ => err .unexpectedResponse
      ("Redmine request failed: oauth error: " ++ error) none

/-! ## Fields named by a rejection -/

def requiredFieldMarkers : List String :=
  ["can't be blank", "cannot be blank", "is not included in the list",
    "is invalid"]

/-- The position of the first occurrence of a pattern. -/
def findText (pattern : List Char) : List Char → Option ℕ
  | [] => if pattern.isEmpty then some 0 else none
  | c :: rest =>
      if pattern.isPrefixOf (c :: rest) then some 0
      else (findText pattern rest).map (· + 1)

def stripPrefix (start s : List Char) : List Char :=
  if start.isPrefixOf s then s.drop start.length else s

/-- The label before the first marker that the message contains. -/
def requiredFieldLabel (raw : String) : Option String :=
  let text := stripPrefix "Validation failed: ".toList raw.toList
  let lower := text.map Char.toLower
  requiredFieldMarkers.findSome? fun marker =>
    (findText marker.toList lower).map fun idx =>
      trim (String.ofList (text.take idx))

def parseRequiredFieldErrors (errors : List String) : List String :=
  errors.filterMap requiredFieldLabel

def coreIssueFieldLabels : List String :=
  ["Subject", "Description", "Tracker", "Status", "Priority", "Assignee",
    "Category", "Target version", "Parent task", "Start date", "Due date",
    "Estimated time", "Done ratio", "Is private", "Spent time"]

def looksLikeCustomField (label : String) : Bool :=
  !coreIssueFieldLabels.any fun core =>
    core.toList.map Char.toLower == label.toList.map Char.toLower

def requiredFieldError (missing : List String) (autofillEnabled : Bool) :
    CallToolResult :=
  let hint :=
    if !missing.any looksLikeCustomField then
      "these are standard issue fields, not custom fields; look up a valid " ++
        "value with the discovery tools (list_redmine_trackers, " ++
        "list_redmine_issue_statuses, ...) and set it explicitly"
    else if autofillEnabled then
      "these look like custom fields with no usable default; call " ++
        "list_project_issue_custom_fields to see the allowed values and set " ++
        "them explicitly"
    else
      "these look like custom fields; set them explicitly (call " ++
        "list_project_issue_custom_fields to see the allowed values), or ask " ++
        "the operator to set REDMINE_AUTOFILL_REQUIRED_CUSTOM_FIELDS=true"
  errWith .validationFailed
    ("Redmine rejected the request: missing or invalid required field(s): " ++
      String.intercalate ", " missing)
    (some hint) [("missing_required_fields", .arr (missing.map Json.str))]

/-! ## Filling them from defaults -/

inductive CustomFieldDefaultValue where
  | single (s : String)
  | multiple (items : List String)
deriving DecidableEq

structure CustomFieldConfig where
  autofillRequired : Bool
  defaults : List (String × CustomFieldDefaultValue)

/-- What autofill reads of a custom field definition. -/
structure AutofillDef where
  id : ℕ
  name : String
  defaultValue : Option String
  possibleValues : Option (List String)
  multiple : Option Bool
deriving DecidableEq

structure Fill where
  id : ℕ
  name : String
  value : CustomFieldValue
deriving DecidableEq

section Autofill

variable (normalize : String → String) (cfg : CustomFieldConfig)

def pickCandidate (field : AutofillDef) : Option (List String × Bool) :=
  match field.defaultValue.filter (· ≠ "") with
  | some default => some ([default], false)
  | none =>
      match cfg.defaults.find? fun entry =>
        normalize entry.1 == normalize field.name with
      | some (_, .single s) => if s = "" then none else some ([s], false)
      | some (_, .multiple items) =>
          if items.isEmpty then none else some (items, true)
      | none => none

def computeFill (defs : List AutofillDef) (label : String) : Option Fill := do
  let field ← defs.find? fun d => normalize d.name == normalize label
  let (candidate, fromArray) ← pickCandidate normalize cfg field
  match field.possibleValues with
  | some possible =>
      if !possible.isEmpty && !candidate.all possible.contains then none
  | none => pure ()
  let value :=
    if field.multiple.getD fromArray then CustomFieldValue.multiple candidate
    else .single candidate.head?
  return { id := field.id, name := field.name, value }

def computeAutofill (defs : List AutofillDef) (missing : List String) :
    List Fill :=
  missing.filterMap (computeFill normalize cfg defs)

def mergeFill (merged : List CustomFieldWrite) (fill : Fill) :
    List CustomFieldWrite :=
  if merged.any fun entry => entry.id == fill.id then
    let (before, rest) := merged.span fun entry => entry.id != fill.id
    before ++ ⟨fill.id, fill.value⟩ :: rest.tail
  else merged ++ [⟨fill.id, fill.value⟩]

def mergeFills (existing : Option (List CustomFieldWrite)) (fills : List Fill) :
    List CustomFieldWrite :=
  fills.foldl mergeFill (existing.getD [])

/-- The answers to the reads that autofill makes: the project of the issue,
its custom fields, and the definitions of all custom fields. -/
structure DefinitionReads where
  issueProject : Except RedmineError ℕ
  members : Except RedmineError (Option (List (ℕ × String)))
  definitions : Except RedmineError (List AutofillDef)

def fetchDefinitionsForAutofill (reads : DefinitionReads) :
    Except RedmineError (List AutofillDef) := do
  let _ ← reads.issueProject
  let members := (← reads.members).getD []
  match reads.definitions with
  | .ok definitions =>
      .ok (definitions.filter fun d => members.any fun member => member.1 == d.id)
  | .error .forbidden =>
      .ok (members.map fun member => ⟨member.1, member.2, none, none, none⟩)
  | .error e => .error e

inductive RequiredFieldRecovery where
  | giveUp (result : CallToolResult)
  | retry (merged : List CustomFieldWrite) (fills : List Fill)

def recoverRequiredFields (reads : DefinitionReads)
    (customFields : Option (List CustomFieldWrite)) :
    RedmineError → Option RequiredFieldRecovery
  | .api status errors =>
      if status ≠ 422 then none
      else
        let missing := parseRequiredFieldErrors errors
        if missing.isEmpty then none
        else if !cfg.autofillRequired then
          some (.giveUp (requiredFieldError missing false))
        else
          match fetchDefinitionsForAutofill reads with
          | .error _ => some (.giveUp (requiredFieldError missing true))
          | .ok defs =>
              let fills := computeAutofill normalize cfg defs missing
              if fills.isEmpty then
                some (.giveUp (requiredFieldError missing true))
              else some (.retry (mergeFills customFields fills) fills)
  | _ => none

end Autofill

def retryStillMissingRequiredFields : RedmineError → Option CallToolResult
  | .api status errors =>
      if status ≠ 422 then none
      else
        let missing := parseRequiredFieldErrors errors
        if missing.isEmpty then none
        else some (requiredFieldError missing true)
  | _ => none

end RuprogressMcp
