import RuprogressMcp.RequiredFields

/-!
# Reporting a partially applied update

The part of `update_redmine_issue` from its first write on: the core update
with its follow-up read and at most one retry, the metadata of the minted
attachments, and the agile read, write and re-read.  Only the agile failures
say that the core fields were already updated, so an update whose write was
accepted is reported as such exactly when the reads before them succeed.
-/

namespace RuprogressMcp

/-! ## Answers of the server -/

structure Issue where
  body : Json
  attachments : Option (List Json)
deriving DecidableEq

structure AgileData where
  id : Option ℕ
  storyPoints : Option ℕ
  agileSprintId : Option ℕ
  position : Option ℕ
deriving DecidableEq

structure AgileDataAttributes where
  id : Option ℕ
  storyPoints : Option (Option ℕ)
  agileSprintId : Option ℕ
  position : Option ℕ
deriving DecidableEq

def AgileDataAttributes.mergeOver (current : Option AgileData)
    (requested : AgileChange) : AgileDataAttributes where
  id := current.bind (·.id)
  storyPoints :=
    requested.storyPoints <|> (current.bind (·.storyPoints)).map some
  agileSprintId := requested.agileSprintId <|> current.bind (·.agileSprintId)
  position := requested.position <|> current.bind (·.position)

/-- What a write does at the server and what the client hears of it.  A
success that arrives was accepted; an accepted write may still be answered by
an error or get lost on the way back. -/
structure PutOutcome where
  accepted : Bool
  answer : Except RedmineError Unit
  accepted_of_ok : answer = .ok () → accepted = true

inductive Attempt where
  | first | second
deriving DecidableEq

/-- The answers to every request that an update may send. -/
structure UpdateAnswers where
  put : Attempt → IssueUpdate → PutOutcome
  getAfterPut : Attempt → Except RedmineError Issue
  getIssue : Except RedmineError Issue
  definitionReads : DefinitionReads
  getAttachment : ℕ → Except RedmineError Json
  agileRead : Except RedmineError (Option AgileData)
  agilePut : AgileDataAttributes → Except RedmineError Unit
  agileReread : Except RedmineError (Option AgileData)

/-- What the tool uses besides the answers: the printed form of a status, the
comparison form of a field name, the autofill configuration, the rendering of
an issue and the response caps. -/
structure UpdateEnv where
  displayStatus : ℕ → String
  normalizeFieldName : String → String
  customFields : CustomFieldConfig
  render : Issue → Option AgileData → Option (List Fill) → Json
  caps : OutputCaps

/-- The result of the tool, and whether the server accepted a core write. -/
structure UpdateOutcome where
  result : CallToolResult
  coreAccepted : Bool

/-! ## The flow -/

section Flow

variable (env : UpdateEnv) (answers : UpdateAnswers) (prepared : PreparedUpdate)

/-- A `PUT`, then a follow-up `GET`. -/
def updateIssue (attempt : Attempt) (patch : IssueUpdate) :
    Except RedmineError Issue := do
  (answers.put attempt patch).answer
  answers.getAfterPut attempt

def retryPatch (merged : List CustomFieldWrite) : IssueUpdate :=
  { prepared.patch with customFields := some merged }

/-- The decision after the first write failed. -/
def recovery (e : RedmineError) : Option RequiredFieldRecovery :=
  recoverRequiredFields env.normalizeFieldName env.customFields
    answers.definitionReads prepared.patch.customFields e

/-- The issue to report, or the result that ends the call. -/
inductive CoreStage where
  | done (issue : Issue) (fills : Option (List Fill))
  | failed (result : CallToolResult)

/-- The core write, or a plain read when no core field changes. -/
def coreStage : CoreStage × Bool :=
  if prepared.hasCoreChange then
    let accepted := (answers.put .first prepared.patch).accepted
    match updateIssue answers .first prepared.patch with
    | .ok issue => (.done issue none, accepted)
    | .error e =>
        match recovery env answers prepared e with
        | none => (.failed (toToolError env.displayStatus e), accepted)
        | some (.giveUp result) => (.failed result, accepted)
        | some (.retry merged fills) =>
            let patch := retryPatch prepared merged
            let accepted := accepted || (answers.put .second patch).accepted
            match updateIssue answers .second patch with
            | .ok issue => (.done issue (some fills), accepted)
            | .error e2 =>
                (.failed ((retryStillMissingRequiredFields e2).getD
                  (toToolError env.displayStatus e2)), accepted)
  else
    match answers.getIssue with
    | .ok issue => (.done issue none, false)
    | .error e => (.failed (toToolError env.displayStatus e), false)

def fetchAttachments (ids : List ℕ) : Except RedmineError (List Json) :=
  ids.mapM answers.getAttachment

def attachmentStage (issue : Issue) : Except CallToolResult Issue :=
  if prepared.attachmentIds.isEmpty then .ok issue
  else
    match fetchAttachments answers prepared.attachmentIds with
    | .ok attachments => .ok { issue with attachments := some attachments }
    | .error e => .error (toToolError env.displayStatus e)

def coreAppliedNotice : String :=
  "the issue's core fields were already updated successfully; only the agile " ++
    "fields failed to apply: "

def agileFailureResult (e : RedmineError) (coreAlreadyApplied : Bool) :
    CallToolResult :=
  let result := toToolError env.displayStatus e
  match coreAlreadyApplied, result.structuredContent with
  | true, .obj fields =>
      match (JsonObject.get fields "error").bind Json.asStr with
      | some message =>
          { result with structuredContent := .obj (JsonObject.insert "error"
              (.str (coreAppliedNotice ++ message)) fields) }
      | none => result
  | _, _ => result

def agileStage : Except CallToolResult (Option AgileData) :=
  if prepared.agileChange.isSome then
    match answers.agileRead with
    | .error e => .error (agileFailureResult env e prepared.hasCoreChange)
    | .ok current =>
        match answers.agilePut
          (AgileDataAttributes.mergeOver current prepared.agileChange) with
        | .error e => .error (agileFailureResult env e prepared.hasCoreChange)
        | .ok () =>
            match answers.agileReread with
            | .error e => .error (agileFailureResult env e prepared.hasCoreChange)
            | .ok row => .ok (some (row.getD ⟨none, none, none, none⟩))
  else .ok none

/-- The part of `update_redmine_issue` after its checks. -/
def sendUpdate : UpdateOutcome :=
  match coreStage env answers prepared with
  | (.failed result, accepted) => ⟨result, accepted⟩
  | (.done issue fills, accepted) =>
      match attachmentStage env answers prepared issue with
      | .error result => ⟨result, accepted⟩
      | .ok issue =>
          match agileStage env answers prepared with
          | .error result => ⟨result, accepted⟩
          | .ok agile => ⟨ok (env.render issue agile fills) env.caps, accepted⟩

end Flow

/-! ## What an error message says -/

def errorMessage (result : CallToolResult) : Option String :=
  result.structuredContent.asObject.bind fun fields =>
    (JsonObject.get fields "error").bind Json.asStr

def opensWithNotice (message : String) : Bool :=
  "the issue's core fields were already updated".toList.isPrefixOf message.toList

/-- The message opens with the notice that the core fields were updated. -/
def saysCoreApplied (result : CallToolResult) : Bool :=
  (errorMessage result).any opensWithNotice

theorem errorMessage_err (code : ErrorCode) (message : String)
    (hint : Option String) : errorMessage (err code message hint) = some message := by
  simp [errorMessage, err, Json.asObject, JsonObject.ofFields,
    JsonObject.get_insert, Json.asStr]

theorem opensWithNotice_append {start : String} (rest : String)
    (hstart : start.toList.head?.any (· ≠ 't') = true) :
    opensWithNotice (start ++ rest) = false := by
  have hnotice : "the issue's core fields were already updated".toList =
      't' :: "he issue's core fields were already updated".toList := by decide +kernel
  unfold opensWithNotice
  rw [String.toList_append, hnotice]
  cases hlist : start.toList with
  | nil => simp [hlist] at hstart
  | cons c cs =>
      have hne : c ≠ 't' := by simpa [hlist] using hstart
      simp [List.isPrefixOf, Ne.symm hne]

theorem toToolError_eq_err (displayStatus : ℕ → String) (e : RedmineError) :
    ∃ code message hint, toToolError displayStatus e = err code message hint ∧
      opensWithNotice message = false := by
  cases e with
  | transport | unauthorized | forbidden | notFound | rateLimited | foreignOrigin =>
      exact ⟨_, _, _, rfl, by decide +kernel⟩
  | api status errors =>
      by_cases hvalidation : status = 422
      · refine ⟨_, _, _, by simp only [toToolError, hvalidation, if_true]; rfl, ?_⟩
        exact opensWithNotice_append _ (by decide +kernel)
      · by_cases hserver : 500 ≤ status ∧ status < 600
        · refine ⟨_, _, _,
            by simp only [toToolError, hvalidation, hserver, if_false]; rfl, ?_⟩
          simp only [String.append_assoc]
          exact opensWithNotice_append _ (by decide +kernel)
        · refine ⟨_, _, _,
            by simp only [toToolError, hvalidation, hserver, if_false]; rfl, ?_⟩
          simp only [String.append_assoc]
          exact opensWithNotice_append _ (by decide +kernel)
  | decode context => exact ⟨_, _, _, rfl, opensWithNotice_append _ (by decide +kernel)⟩
  | config reason => exact ⟨_, _, _, rfl, opensWithNotice_append _ (by decide +kernel)⟩
  | oauth status error description =>
      exact ⟨_, _, _, rfl, opensWithNotice_append _ (by decide +kernel)⟩
  | limitExceeded what limit actual =>
      refine ⟨_, _, _, rfl, ?_⟩
      simp only [String.append_assoc]
      exact opensWithNotice_append _ (by decide +kernel)

theorem errorMessage_errWith
    (code : ErrorCode) (message : String) (hint : Option String) {key : String}
    (value : Json) (hkey : "error" ≠ key) :
    errorMessage (errWith code message hint [(key, value)]) = some message := by
  simp [errorMessage, errWith, err, Json.asObject, JsonObject.ofFields,
    JsonObject.get_insert, Json.asStr, hkey]

/-- An error result that does not tell of the core update. -/
structure Unreported (result : CallToolResult) : Prop where
  isError : result.isError = true
  silent : saysCoreApplied result = false

theorem unreported_toToolError (displayStatus : ℕ → String) (e : RedmineError) :
    Unreported (toToolError displayStatus e) := by
  obtain ⟨code, message, hint, herr, hsilent⟩ := toToolError_eq_err displayStatus e
  rw [herr]
  exact ⟨rfl, by simp [saysCoreApplied, errorMessage_err, hsilent]⟩

theorem unreported_requiredFieldError (missing : List String)
    (autofillEnabled : Bool) :
    Unreported (requiredFieldError missing autofillEnabled) := by
  refine ⟨rfl, ?_⟩
  unfold saysCoreApplied requiredFieldError
  rw [errorMessage_errWith _ _ _ _ (by decide +kernel), Option.any_some]
  exact opensWithNotice_append _ (by decide +kernel)

theorem saysCoreApplied_agileFailure (env : UpdateEnv) (e : RedmineError) :
    saysCoreApplied (agileFailureResult env e true) = true := by
  obtain ⟨code, message, hint, herr, -⟩ := toToolError_eq_err env.displayStatus e
  have hmessage : errorMessage (agileFailureResult env e true) =
      some (coreAppliedNotice ++ message) := by
    simp [errorMessage, agileFailureResult, herr, err, Json.asObject,
      JsonObject.ofFields, JsonObject.get_insert, Json.asStr]
  have hnotice : coreAppliedNotice.toList =
      "the issue's core fields were already updated".toList ++
        " successfully; only the agile fields failed to apply: ".toList := by
    decide +kernel
  unfold saysCoreApplied opensWithNotice
  rw [hmessage, Option.any_some, String.toList_append, hnotice, List.append_assoc,
    List.isPrefixOf_iff_prefix]
  exact List.prefix_append _ _

/-! ## When a partial update is reported -/

section Reporting

variable (env : UpdateEnv) (answers : UpdateAnswers) (prepared : PreparedUpdate)

/-- The server accepted a core write of the update. -/
def CoreWriteAccepted : Prop :=
  prepared.hasCoreChange = true ∧
    ((answers.put .first prepared.patch).accepted = true ∨
      ∃ e merged fills, updateIssue answers .first prepared.patch = .error e ∧
        recovery env answers prepared e = some (.retry merged fills) ∧
        (answers.put .second (retryPatch prepared merged)).accepted = true)

/-- The answer to the last core write and its follow-up read arrive. -/
def CoreUpdated : Prop :=
  (∃ issue, updateIssue answers .first prepared.patch = .ok issue) ∨
    ∃ e merged fills issue, updateIssue answers .first prepared.patch = .error e ∧
      recovery env answers prepared e = some (.retry merged fills) ∧
      updateIssue answers .second (retryPatch prepared merged) = .ok issue

/-- So does the metadata of every attachment. -/
def CoreReadBack : Prop :=
  CoreUpdated env answers prepared ∧
    ∃ attachments,
      fetchAttachments answers prepared.attachmentIds = .ok attachments

variable {env answers prepared}

theorem unreported_giveUp {e : RedmineError} {result : CallToolResult}
    (hrecovery : recovery env answers prepared e = some (.giveUp result)) :
    Unreported result := by
  unfold recovery recoverRequiredFields at hrecovery
  split at hrecovery
  · split at hrecovery
    · cases hrecovery
    · simp only at hrecovery
      split at hrecovery
      · cases hrecovery
      · split at hrecovery
        · cases hrecovery
          exact unreported_requiredFieldError _ _
        · split at hrecovery
          · cases hrecovery
            exact unreported_requiredFieldError _ _
          · split at hrecovery
            · cases hrecovery
              exact unreported_requiredFieldError _ _
            · cases hrecovery
  · cases hrecovery

theorem unreported_secondFailure (e : RedmineError) :
    Unreported ((retryStillMissingRequiredFields e).getD
      (toToolError env.displayStatus e)) := by
  unfold retryStillMissingRequiredFields
  split
  · split
    · rw [Option.getD_none]
      exact unreported_toToolError _ _
    · simp only
      split
      · rw [Option.getD_none]
        exact unreported_toToolError _ _
      · exact unreported_requiredFieldError _ _
  · exact unreported_toToolError _ _

theorem coreStage_spec (hcore : prepared.hasCoreChange = true) :
    ((coreStage env answers prepared).2 = true ↔
        CoreWriteAccepted env answers prepared) ∧
      ((∃ issue fills, (coreStage env answers prepared).1 = .done issue fills ∧
          CoreUpdated env answers prepared) ∨
        ∃ result, (coreStage env answers prepared).1 = .failed result ∧
          Unreported result ∧ ¬ CoreUpdated env answers prepared) := by
  unfold coreStage CoreWriteAccepted CoreUpdated
  simp only [hcore, if_true, true_and]
  cases hfirst : updateIssue answers .first prepared.patch with
  | ok issue => simp
  | error e =>
      cases hrecovery : recovery env answers prepared e with
      | none => simp [hrecovery, unreported_toToolError]
      | some decision =>
          cases decision with
          | giveUp result => simp [hrecovery, unreported_giveUp hrecovery]
          | retry merged fills =>
              cases hsecond :
                  updateIssue answers .second (retryPatch prepared merged) with
              | ok issue => simp [hrecovery, hsecond]
              | error e2 =>
                  simp [hrecovery, hsecond, unreported_secondFailure]

theorem attachmentStage_spec (issue : Issue) :
    (∃ found, attachmentStage env answers prepared issue = .ok found ∧
        ∃ attachments,
          fetchAttachments answers prepared.attachmentIds = .ok attachments) ∨
      ∃ result, attachmentStage env answers prepared issue = .error result ∧
        Unreported result ∧
        ¬ ∃ attachments,
          fetchAttachments answers prepared.attachmentIds = .ok attachments := by
  unfold attachmentStage
  split
  · rename_i hempty
    rw [List.isEmpty_iff.mp hempty]
    exact Or.inl ⟨issue, rfl, [], rfl⟩
  · cases hfetch : fetchAttachments answers prepared.attachmentIds with
    | ok attachments => exact Or.inl ⟨_, rfl, attachments, rfl⟩
    | error e =>
        exact Or.inr ⟨_, rfl, unreported_toToolError _ _, by simp⟩

theorem agileStage_error {result : CallToolResult}
    (hcore : prepared.hasCoreChange = true)
    (hstage : agileStage env answers prepared = .error result) :
    saysCoreApplied result = true := by
  unfold agileStage at hstage
  rw [hcore] at hstage
  split at hstage
  · split at hstage
    · cases hstage
      exact saysCoreApplied_agileFailure env _
    · split at hstage
      · cases hstage
        exact saysCoreApplied_agileFailure env _
      · split at hstage
        · cases hstage
          exact saysCoreApplied_agileFailure env _
        · cases hstage
  · cases hstage

theorem sendUpdate_accepted :
    (sendUpdate env answers prepared).coreAccepted =
      (coreStage env answers prepared).2 := by
  unfold sendUpdate
  split
  · rename_i result accepted hstage
    rw [hstage]
  · rename_i issue fills accepted hstage
    rw [hstage]
    split
    · rfl
    · split <;> rfl

theorem coreStage_untouched (hcore : prepared.hasCoreChange = false) :
    (coreStage env answers prepared).2 = false := by
  unfold coreStage
  simp only [hcore]
  split
  · rename_i hissue
    simp at hissue
  · split <;> rfl

/-- An accepted core write is reported by every error result, exactly when
the reads that follow it and precede the agile requests succeed. -/
theorem partial_update_reported_iff
    (env : UpdateEnv) (answers : UpdateAnswers) (prepared : PreparedUpdate) :
    ((sendUpdate env answers prepared).coreAccepted = true →
        (sendUpdate env answers prepared).result.isError = true →
        saysCoreApplied (sendUpdate env answers prepared).result = true) ↔
      (CoreWriteAccepted env answers prepared →
        CoreReadBack env answers prepared) := by
  rw [sendUpdate_accepted]
  cases hcore : prepared.hasCoreChange with
  | false =>
      have hnot : ¬ CoreWriteAccepted env answers prepared := by
        rintro ⟨hchange, -⟩
        rw [hcore] at hchange
        exact absurd hchange (by simp)
      simp [coreStage_untouched hcore, hnot]
  | true =>
      obtain ⟨haccepted, hend⟩ : ((coreStage env answers prepared).2 = true ↔ _) ∧ _ :=
        coreStage_spec hcore
      rw [haccepted]
      refine imp_congr_right fun _ => ?_
      unfold sendUpdate CoreReadBack
      generalize coreStage env answers prepared = stage at hend
      obtain ⟨stage, accepted⟩ := stage
      obtain ⟨issue, fills, rfl, hupdated⟩ | ⟨result, rfl, hsilent, hnot⟩ := hend
      · have hattachments :
            (∃ found, attachmentStage env answers prepared issue = .ok found ∧ _) ∨ _ :=
          attachmentStage_spec issue
        obtain ⟨found, hstage, hfetched⟩ | ⟨result, hstage, hsilent, hnot⟩ :=
          hattachments
        · simp only [hstage]
          cases hagile : agileStage env answers prepared with
          | error result =>
              simp [hupdated, hfetched, agileStage_error hcore hagile]
          | ok agile =>
              have hsuccess : (ok (env.render found agile fills) env.caps).isError =
                  false := rfl
              simp [hupdated, hfetched, hsuccess]
        · simp [hstage, hsilent.isError, hsilent.silent, hnot]
      · simp [hsilent.isError, hsilent.silent, hnot]

end Reporting

namespace Sample

def updateEnv : UpdateEnv where
  displayStatus _ := ""
  normalizeFieldName := id
  customFields := ⟨false, []⟩
  render issue _ _ := issue.body
  caps := ⟨200, 65536⟩

def notesUpdate : PreparedUpdate where
  issueId := 7
  patch := { notes := some "done" }
  agileChange := ⟨none, none, none⟩
  hasCoreChange := true
  attachmentIds := []

/-- The note is written; the connection drops before the follow-up read. -/
def droppedReadBack : UpdateAnswers where
  put _ _ := ⟨true, .ok (), fun _ => rfl⟩
  getAfterPut _ := .error .transport
  getIssue := .error .transport
  definitionReads := ⟨.error .transport, .error .transport, .error .transport⟩
  getAttachment _ := .error .transport
  agileRead := .error .transport
  agilePut _ := .error .transport
  agileReread := .error .transport

/-- The note was written, and the error says only that the server could not
be reached. -/
theorem applied_note_unreported :
    ¬ ((sendUpdate updateEnv droppedReadBack notesUpdate).coreAccepted = true →
        (sendUpdate updateEnv droppedReadBack notesUpdate).result.isError = true →
        saysCoreApplied (sendUpdate updateEnv droppedReadBack notesUpdate).result =
          true) := by
  decide +kernel

end Sample

end RuprogressMcp
