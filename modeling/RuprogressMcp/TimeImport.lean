import RuprogressMcp.OutputCapping
import RuprogressMcp.RetryBudget
import RuprogressMcp.UntrustedFence
import RuprogressMcp.UpdatePayload
import RuprogressMcp.WikiPaths

/-!
# Bulk import of time entries

`import_time_entries` checks every entry before it sends anything, then posts
the entries one by one.  The loop keeps the list of results, a stop flag and
two counters, and walks the entries together with the project references that
the checks resolved.  Every request is sent through the retry loop of the
client, which sends a `POST` once.
-/

namespace RuprogressMcp

/-! ## Parameters and output -/

def importMaxEntries : ℕ := 500

structure ImportEntryParams where
  hours : JsonNumber
  projectId : Option ProjectRef
  issueId : Option ℕ
  userId : Option ℕ
  activityId : Option ℕ
  comments : Option String
  spentOn : Option NaiveDate
deriving DecidableEq

structure ImportTimeEntriesParams where
  entries : List ImportEntryParams
  stopOnError : Bool
deriving DecidableEq

/-- The body of `POST /time_entries.json`. -/
structure TimeEntryCreate where
  issueId : Option ℕ
  projectId : Option RedmineClient.ProjectIdent
  spentOn : Option NaiveDate
  hours : JsonNumber
  activityId : Option ℕ
  comments : Option String
  userId : Option ℕ

structure IdName where
  id : ℕ
  name : String
deriving DecidableEq

/-- A time entry as Redmine sends it; the times are instants. -/
structure TimeEntry where
  id : ℕ
  project : IdName
  issue : Option ℕ
  user : IdName
  activity : IdName
  hours : JsonNumber
  comments : Option String
  spentOn : NaiveDate
  createdOn : ℤ
  updatedOn : ℤ
deriving DecidableEq

structure TimeEntryOut where
  id : ℕ
  project : IdName
  issueId : Option ℕ
  user : IdName
  activity : IdName
  hours : JsonNumber
  comments : Option String
  spentOn : NaiveDate
  createdOn : ℤ
  updatedOn : ℤ
deriving DecidableEq

def wrapText (boundary : Fence.Boundary) (kind text : String) : String :=
  String.ofList (boundary.wrap kind.toList text.toList)

def timeEntryOut (boundary : Fence.Boundary) (e : TimeEntry) : TimeEntryOut where
  id := e.id
  project := ⟨e.project.id,
    wrapText boundary "time_entry.project.name" e.project.name⟩
  issueId := e.issue
  user := ⟨e.user.id, wrapText boundary "time_entry.user.name" e.user.name⟩
  activity := ⟨e.activity.id,
    wrapText boundary "time_entry.activity.name" e.activity.name⟩
  hours := e.hours
  comments := e.comments.map (wrapText boundary "time_entry.comments")
  spentOn := e.spentOn
  createdOn := e.createdOn
  updatedOn := e.updatedOn

/-- The printed form of an instant, besides those of a date and of a floating
point value. -/
structure TimePrinters extends Printers where
  instant : ℤ → String

def IdName.toValue (idName : IdName) : Json :=
  .obj (JsonObject.ofFields
    [("id", Pagination.number idName.id), ("name", .str idName.name)])

def TimeEntryOut.toValue (printers : TimePrinters) (e : TimeEntryOut) : Json :=
  .obj (JsonObject.ofFields
    [("id", Pagination.number e.id), ("project", e.project.toValue),
      ("issue_id", optionToValue Pagination.number e.issueId),
      ("user", e.user.toValue), ("activity", e.activity.toValue),
      ("hours", .num (printers.float e.hours)),
      ("comments", optionToValue Json.str e.comments),
      ("spent_on", .str (printers.date e.spentOn)),
      ("created_on", .str (printers.instant e.createdOn)),
      ("updated_on", .str (printers.instant e.updatedOn))])

def errorText (structured : Json) (key default : String) : String :=
  ((structured.asObject.bind fun fields => JsonObject.get fields key).bind
    Json.asStr).getD default

/-- The code and the message of the envelope of a failed request. -/
def describeError (displayStatus : ℕ → String) (e : RedmineError) : String :=
  let structured := (toToolError displayStatus e).structuredContent
  errorText structured "code" "UNEXPECTED_RESPONSE" ++ ": " ++
    errorText structured "error" "unknown error"

/-! ## The surroundings of a call -/

/-- The errors of the retry loop among those of the client. -/
def RedmineError.ofClient : Retry.ClientError → RedmineError
  | .transport _ _ => .transport
  | .api status errors => .api status errors
  | .unauthorized => .unauthorized
  | .forbidden => .forbidden
  | .notFound => .notFound
  | .rateLimited retryAfter => .rateLimited retryAfter
  | .decode context => .decode context
  | .config reason => .config reason
  | .limitExceeded what limit actual => .limitExceeded what limit actual
  | .oauth status error description => .oauth status error description
  | .foreignOrigin origin => .foreignOrigin origin

/-- What one request meets, and what the body of its response reads as when
the status is one of success. -/
structure ImportAnswer where
  attempt : Retry.Attempt
  body : Except RedmineError TimeEntry

/-- `answers` and `clock` are those of the requests in the order in which they
are sent; `scopedClient` is the outcome of finding the credential of the call. -/
structure ImportWorld where
  quoteChar : Char → String
  quote : String → String
  displayStatus : ℕ → String
  printers : TimePrinters
  boundary : Fence.Boundary
  scopedClient : Except String Unit
  client : Retry.Client
  clock : ℕ → ℕ
  answers : ℕ → ImportAnswer

/-- What a call has posted, and what it returns. -/
structure ImportRun where
  posts : List TimeEntryCreate
  output : Except String ImportTimeEntriesOutput

/-- The comparison of a floating point value with zero.  A printed value is
above zero unless it has a sign or no digit but zero before its exponent. -/
def atMostZero : JsonNumber → Bool
  | .posInt n => n == 0
  | .negInt n => decide (n.toInt ≤ 0)
  | .float text =>
      text.toList.head? == some '-' ||
        (text.toList.takeWhile (· != 'e')).all fun c => c == '0' || c == '.'

example : atMostZero (.float "0.0") = true ∧ atMostZero (.float "-2.5") = true ∧
    atMostZero (.float "1e-7") = false := by decide

namespace ImportWorld

variable (world : ImportWorld)

/-! ## Checks -/

def resolveRef : ProjectRef → Except String RedmineClient.ProjectIdent :=
  resolveProjectRef world.quoteChar world.quote

def entryPath (index : ℕ) : String := "entries[" ++ toString index ++ "]"

def checkEntry (index : ℕ) (entry : ImportEntryParams) :
    Except String (Option RedmineClient.ProjectIdent) :=
  if atMostZero entry.hours then
    .error (entryPath index ++ ".hours must be positive")
  else if entry.projectId.isNone && entry.issueId.isNone then
    .error (entryPath index ++
      " needs at least one of project_id or issue_id")
  else
    match entry.projectId with
    | none => .ok none
    | some ref => (world.resolveRef ref).map some

/-- The first pass, from the entry with the given index on. -/
def resolveProjects : ℕ → List ImportEntryParams →
    Except String (List (Option RedmineClient.ProjectIdent))
  | _, [] => .ok []
  | index, entry :: rest => do
      let projectIdent ← world.checkEntry index entry
      let later ← resolveProjects (index + 1) rest
      return projectIdent :: later

/-! ## Requests -/

def timeEntryCreate (entry : ImportEntryParams)
    (projectIdent : Option RedmineClient.ProjectIdent) : TimeEntryCreate where
  issueId := entry.issueId
  projectId := projectIdent
  spentOn := entry.spentOn
  hours := entry.hours
  activityId := entry.activityId
  comments := entry.comments
  userId := entry.userId

/-- `create_time_entry` after the given number of requests: how often the
request was sent, and what came of it. -/
def createTimeEntry (sent : ℕ) : Option (ℕ × Except RedmineError TimeEntry) := do
  let outcome ← Retry.sendWithRetry world.client .post true
    (fun attempt => (world.answers (sent + attempt)).attempt) (world.clock sent)
    (world.client.policy.maxRetries + 1)
  let sends := outcome.starts.length
  return (sends,
    match outcome.result with
    | .ok _ => (world.answers (sent + sends - 1)).body
    | .error error => .error (.ofClient error))

/-- The variables of the second pass, with what has been posted. -/
structure ImportLoop where
  posts : List TimeEntryCreate
  results : List ImportEntryResult
  succeeded : ℕ
  failed : ℕ
  stopped : Bool

def ImportLoop.start : ImportLoop where
  posts := []
  results := []
  succeeded := 0
  failed := 0
  stopped := false

def timeEntryValue (e : TimeEntry) : Json :=
  (timeEntryOut world.boundary e).toValue world.printers

def notAttempted (index : ℕ) : ImportEntryResult :=
  ⟨index, false, false, none, none⟩

/-- One round of the second pass. -/
def importEntry (stopOnError : Bool) (loop : ImportLoop)
    (item : (ImportEntryParams × Option RedmineClient.ProjectIdent) × ℕ) :
    Option ImportLoop :=
  let ((entry, projectIdent), index) := item
  if loop.stopped then
    some { loop with results := loop.results ++ [notAttempted index] }
  else do
    let create := timeEntryCreate entry projectIdent
    let (sends, created) ← world.createTimeEntry loop.posts.length
    let posts := loop.posts ++ List.replicate sends create
    match created with
    | .ok created =>
        return {
          posts
          results := loop.results ++ [⟨index, true, true,
            some (world.timeEntryValue created), none⟩]
          succeeded := saturatingAdd loop.succeeded 1
          failed := loop.failed
          stopped := loop.stopped }
    | .error e =>
        return {
          posts
          results := loop.results ++ [⟨index, true, false, none,
            some (describeError world.displayStatus e)⟩]
          succeeded := loop.succeeded
          failed := saturatingAdd loop.failed 1
          stopped := loop.stopped || stopOnError }

def tooManyEntries (count : ℕ) : String :=
  "entries has " ++ toString count ++ " items, over the " ++
    toString importMaxEntries ++
    "-entry cap per call; split into multiple invocations"

/-- `none` would be a request whose retry loop does not end. -/
def importTimeEntries (params : ImportTimeEntriesParams) : Option ImportRun :=
  if params.entries.isEmpty then
    some ⟨[], .error "entries must not be empty"⟩
  else if importMaxEntries < params.entries.length then
    some ⟨[], .error (tooManyEntries params.entries.length)⟩
  else
    match world.resolveProjects 0 params.entries with
    | .error message => some ⟨[], .error message⟩
    | .ok resolvedProjects =>
        match world.scopedClient with
        | .error message => some ⟨[], .error message⟩
        | .ok () => do
            let loop ← (params.entries.zip resolvedProjects).zipIdx.foldlM
              (world.importEntry params.stopOnError) .start
            return ⟨loop.posts, .ok {
              total := params.entries.length
              attempted := saturatingAdd loop.succeeded loop.failed
              succeeded := loop.succeeded
              failed := loop.failed
              results := loop.results }⟩

/-! ## Requests are sent once -/

/-- What the request with the given number leads to.  A response of success
whose body cannot be read counts as a failure. -/
def outcome (n : ℕ) : Except RedmineError TimeEntry :=
  match world.client.onlyResult (world.answers n).attempt with
  | .ok _ => (world.answers n).body
  | .error error => .error (.ofClient error)

def succeeds (n : ℕ) : Bool := (world.outcome n).isOk

theorem createTimeEntry_eq (sent : ℕ) :
    world.createTimeEntry sent = some (1, world.outcome sent) := by
  unfold createTimeEntry outcome
  rw [Retry.sendWithRetry_once _ _ _ _ rfl]
  rfl

/-! ## Entries that pass the checks -/

structure Accepts (entry : ImportEntryParams) : Prop where
  hours : atMostZero entry.hours = false
  addressed : entry.projectId.isSome ∨ entry.issueId.isSome
  resolves : ∀ ref ∈ entry.projectId,
    ∃ ident, world.resolveRef ref = .ok ident

def projectIdent (entry : ImportEntryParams) :
    Option RedmineClient.ProjectIdent :=
  entry.projectId.bind fun ref => (world.resolveRef ref).toOption

variable {world}

theorem checkEntry_eq_ok_iff
    {index : ℕ} {entry : ImportEntryParams}
    {ident : Option RedmineClient.ProjectIdent} :
    world.checkEntry index entry = .ok ident ↔
      world.Accepts entry ∧ ident = world.projectIdent entry := by
  unfold checkEntry projectIdent
  split
  · rename_i hhours
    refine ⟨nofun, fun ⟨haccepts, _⟩ => ?_⟩
    simp [haccepts.hours] at hhours
  rename_i hhours
  split
  · rename_i hmissing
    refine ⟨nofun, fun ⟨haccepts, _⟩ => ?_⟩
    have haddressed := haccepts.addressed
    simp_all
  rename_i hmissing
  have haddressed : entry.projectId.isSome ∨ entry.issueId.isSome := by
    cases hproject : entry.projectId <;> cases hissue : entry.issueId <;>
      simp_all
  cases hproject : entry.projectId with
  | none =>
      constructor
      · rintro ⟨rfl⟩
        exact ⟨⟨by simpa using hhours, haddressed, by simp [hproject]⟩, rfl⟩
      · rintro ⟨-, rfl⟩
        rfl
  | some ref =>
      cases hresolve : world.resolveRef ref with
      | error message =>
          simp only [hresolve, Except.map]
          refine ⟨nofun, fun ⟨haccepts, _⟩ => ?_⟩
          obtain ⟨found, hfound⟩ := haccepts.resolves ref hproject
          rw [hresolve] at hfound
          cases hfound
      | ok found =>
          simp only [hresolve, Except.map, Option.bind_some, Except.toOption]
          constructor
          · rintro ⟨rfl⟩
            refine ⟨⟨by simpa using hhours, haddressed, ?_⟩, rfl⟩
            rintro other hother
            cases hproject.symm.trans hother
            exact ⟨found, hresolve⟩
          · rintro ⟨-, rfl⟩
            rfl

theorem resolveProjects_eq_ok_iff
    {index : ℕ} {entries : List ImportEntryParams}
    {idents : List (Option RedmineClient.ProjectIdent)} :
    world.resolveProjects index entries = .ok idents ↔
      (∀ entry ∈ entries, world.Accepts entry) ∧
        idents = entries.map world.projectIdent := by
  induction entries generalizing index idents with
  | nil =>
      constructor
      · rintro ⟨rfl⟩
        simp
      · rintro ⟨-, rfl⟩
        rfl
  | cons entry rest ih =>
      simp only [resolveProjects, bind_eq_ok_iff, checkEntry_eq_ok_iff, ih,
        List.forall_mem_cons, List.map_cons]
      constructor
      · rintro ⟨ident, ⟨haccepts, rfl⟩, later, ⟨hrest, rfl⟩, ⟨rfl⟩⟩
        exact ⟨⟨haccepts, hrest⟩, rfl⟩
      · rintro ⟨⟨haccepts, hrest⟩, rfl⟩
        exact ⟨_, ⟨haccepts, rfl⟩, _, ⟨hrest, rfl⟩, rfl⟩

/-! ## The second pass -/

variable (world)

def payload (entry : ImportEntryParams) : TimeEntryCreate :=
  timeEntryCreate entry (world.projectIdent entry)

/-- The record of the entry at a position when so many entries have been
attempted. -/
def record (attempted index : ℕ) : ImportEntryResult :=
  if index < attempted then
    match world.outcome index with
    | .ok created => ⟨index, true, true,
        some (world.timeEntryValue created), none⟩
    | .error e => ⟨index, true, false, none,
        some (describeError world.displayStatus e)⟩
  else notAttempted index

def successes (attempted : ℕ) : ℕ :=
  (List.range attempted).countP world.succeeds

def failures (attempted : ℕ) : ℕ :=
  (List.range attempted).countP fun n => !world.succeeds n

/-- The variables of the loop after the given entries.  What has been posted
tells how many of them were attempted. -/
structure Progress (stopOnError : Bool) (done : List ImportEntryParams)
    (loop : ImportLoop) : Prop where
  within : loop.posts.length ≤ done.length
  posts : loop.posts = (done.take loop.posts.length).map world.payload
  results : loop.results =
    (List.range done.length).map (world.record loop.posts.length)
  succeeded : loop.succeeded = world.successes loop.posts.length
  failed : loop.failed = world.failures loop.posts.length
  running : loop.stopped = false → loop.posts.length = done.length ∧
    (stopOnError = true → ∀ n < done.length, world.succeeds n = true)
  halted : loop.stopped = true → stopOnError = true ∧
    ∃ last, loop.posts.length = last + 1 ∧ world.succeeds last = false ∧
      ∀ n < last, world.succeeds n = true

variable {world}

theorem record_of_lt {attempted index : ℕ} (hlt : index < attempted) :
    world.record attempted index = world.record (index + 1) index := by
  simp [record, hlt]

/-- A further request does not change the records before it. -/
theorem map_record_range (attempted : ℕ) :
    (List.range (attempted + 1)).map (world.record (attempted + 1)) =
      (List.range attempted).map (world.record attempted) ++
        [world.record (attempted + 1) attempted] := by
  rw [List.range_succ, List.map_append, List.map_singleton]
  congr 1
  refine List.map_congr_left fun index hindex => ?_
  have hlt := List.mem_range.mp hindex
  rw [record_of_lt hlt, record_of_lt (Nat.lt_succ_of_lt hlt)]

theorem successes_succ (attempted : ℕ) :
    world.successes (attempted + 1) =
      world.successes attempted + (world.succeeds attempted).toNat := by
  unfold successes
  rw [List.range_succ, List.countP_append, List.countP_singleton]
  cases world.succeeds attempted <;> rfl

theorem failures_succ (attempted : ℕ) :
    world.failures (attempted + 1) =
      world.failures attempted + (!world.succeeds attempted).toNat := by
  unfold failures
  rw [List.range_succ, List.countP_append, List.countP_singleton]
  cases world.succeeds attempted <;> rfl

theorem successes_le (attempted : ℕ) : world.successes attempted ≤ attempted :=
  List.countP_le_length.trans_eq List.length_range

theorem failures_le (attempted : ℕ) : world.failures attempted ≤ attempted :=
  List.countP_le_length.trans_eq List.length_range

theorem successes_add_failures (attempted : ℕ) :
    world.successes attempted + world.failures attempted = attempted := by
  induction attempted with
  | zero => rfl
  | succ attempted ih =>
      rw [successes_succ, failures_succ]
      cases world.succeeds attempted <;> simp <;> omega

theorem saturatingAdd_one {a : ℕ} (ha : a < 2 ^ 64 - 1) :
    saturatingAdd a 1 = a + 1 := by
  unfold saturatingAdd
  omega

theorem Progress.start (stopOnError : Bool) :
    world.Progress stopOnError [] .start where
  within := le_rfl
  posts := rfl
  results := rfl
  succeeded := rfl
  failed := rfl
  running _ := ⟨rfl, fun _ n hn => absurd hn (Nat.not_lt_zero n)⟩
  halted h := by cases h

/-- An entry after a stop is recorded as not attempted. -/
theorem Progress.skip
    {stopOnError : Bool} {done : List ImportEntryParams} {loop : ImportLoop}
    (entry : ImportEntryParams) (hprogress : world.Progress stopOnError done loop)
    (hstopped : loop.stopped = true) :
    world.Progress stopOnError (done ++ [entry])
      { loop with results := loop.results ++ [notAttempted done.length] } where
  within := by
    have hwithin := hprogress.within
    simp only [List.length_append, List.length_singleton]
    omega
  posts := by
    rw [List.take_append_of_le_length hprogress.within]
    exact hprogress.posts
  results := by
    have hskipped : world.record loop.posts.length done.length =
        notAttempted done.length :=
      if_neg (Nat.not_lt.mpr hprogress.within)
    rw [List.length_append, List.length_singleton, List.range_succ,
      List.map_append, List.map_singleton, hskipped, hprogress.results]
  succeeded := hprogress.succeeded
  failed := hprogress.failed
  running h := by simp [hstopped] at h
  halted := hprogress.halted

/-- What a round that posts its entry does. -/
theorem importEntry_attempt
    {stopOnError : Bool} {loop : ImportLoop} {index : ℕ}
    (entry : ImportEntryParams) (ident : Option RedmineClient.ProjectIdent)
    (hrunning : loop.stopped = false) (hindex : loop.posts.length = index) :
    world.importEntry stopOnError loop ((entry, ident), index) = some {
      posts := loop.posts ++ [timeEntryCreate entry ident]
      results := loop.results ++ [world.record (index + 1) index]
      succeeded :=
        if world.succeeds index then saturatingAdd loop.succeeded 1
        else loop.succeeded
      failed :=
        if world.succeeds index then loop.failed
        else saturatingAdd loop.failed 1
      stopped := !world.succeeds index && stopOnError } := by
  subst hindex
  simp only [importEntry, hrunning, Bool.false_eq_true, if_false,
    createTimeEntry_eq, Option.bind_eq_bind, Option.bind_some]
  cases houtcome : world.outcome loop.posts.length with
  | ok created =>
      have hsucceeds : world.succeeds loop.posts.length = true := by
        simp [succeeds, houtcome, Except.isOk, Except.toBool]
      simp [record, houtcome, hsucceeds]
  | error e =>
      have hfails : world.succeeds loop.posts.length = false := by
        simp [succeeds, houtcome, Except.isOk, Except.toBool]
      simp [record, houtcome, hfails]

theorem Progress.attempt
    {stopOnError : Bool} {done : List ImportEntryParams} {loop loop' : ImportLoop}
    (entry : ImportEntryParams) (hprogress : world.Progress stopOnError done loop)
    (hbound : done.length < 2 ^ 64 - 1) (hrunning : loop.stopped = false)
    (hround : world.importEntry stopOnError loop
      ((entry, world.projectIdent entry), done.length) = some loop') :
    world.Progress stopOnError (done ++ [entry]) loop' := by
  obtain ⟨hall, hgood⟩ := hprogress.running hrunning
  rw [importEntry_attempt entry _ hrunning hall] at hround
  obtain rfl := Option.some.inj hround
  have hlength : (loop.posts ++
      [timeEntryCreate entry (world.projectIdent entry)]).length =
        done.length + 1 := by
    simp [hall]
  have hsucceeded : loop.succeeded < 2 ^ 64 - 1 := by
    rw [hprogress.succeeded, hall]
    exact (successes_le _).trans_lt hbound
  have hfailed : loop.failed < 2 ^ 64 - 1 := by
    rw [hprogress.failed, hall]
    exact (failures_le _).trans_lt hbound
  constructor
  · simp only [hlength, List.length_append, List.length_singleton, le_refl]
  · have hposts := hprogress.posts
    rw [hall, List.take_length] at hposts
    simp only [hlength]
    rw [List.take_of_length_le (by simp), List.map_append, ← hposts]
    rfl
  · simp only [hlength]
    rw [List.length_append, List.length_singleton, map_record_range,
      hprogress.results, hall]
  · simp only [hlength, successes_succ]
    rw [saturatingAdd_one hsucceeded, hprogress.succeeded, hall]
    cases world.succeeds done.length <;> rfl
  · simp only [hlength, failures_succ]
    rw [saturatingAdd_one hfailed, hprogress.failed, hall]
    cases world.succeeds done.length <;> rfl
  · intro hstopped
    refine ⟨by simp [hall], fun hstop n hn => ?_⟩
    subst hstop
    have hlast : world.succeeds done.length = true := by simpa using hstopped
    rw [List.length_append, List.length_singleton] at hn
    rcases Nat.lt_succ_iff_lt_or_eq.mp hn with hlt | rfl
    · exact hgood rfl n hlt
    · exact hlast
  · intro hstopped
    obtain ⟨hlast, hstop⟩ : world.succeeds done.length = false ∧
        stopOnError = true := by
      simpa using hstopped
    exact ⟨hstop, done.length, hlength, hlast, hgood hstop⟩

/-- One round of the loop. -/
theorem Progress.step
    {stopOnError : Bool} {done : List ImportEntryParams} {loop : ImportLoop}
    (entry : ImportEntryParams) (hprogress : world.Progress stopOnError done loop)
    (hbound : done.length < 2 ^ 64 - 1) :
    ∃ loop', world.importEntry stopOnError loop
        ((entry, world.projectIdent entry), done.length) = some loop' ∧
      world.Progress stopOnError (done ++ [entry]) loop' := by
  by_cases hstopped : loop.stopped = true
  · refine ⟨_, ?_, hprogress.skip entry hstopped⟩
    simp [importEntry, hstopped]
  · have hrunning : loop.stopped = false := by simpa using hstopped
    obtain ⟨loop', hround⟩ : ∃ loop', world.importEntry stopOnError loop
        ((entry, world.projectIdent entry), done.length) = some loop' :=
      ⟨_, importEntry_attempt entry _ hrunning (hprogress.running hrunning).1⟩
    exact ⟨loop', hround, hprogress.attempt entry hbound hrunning hround⟩

/-- The whole loop. -/
theorem Progress.run
    {stopOnError : Bool} {done : List ImportEntryParams} {loop : ImportLoop}
    (rest : List ImportEntryParams)
    (hprogress : world.Progress stopOnError done loop)
    (hbound : (done ++ rest).length < 2 ^ 64) :
    ∃ loop', ((rest.zip (rest.map world.projectIdent)).zipIdx
        done.length).foldlM (world.importEntry stopOnError) loop = some loop' ∧
      world.Progress stopOnError (done ++ rest) loop' := by
  induction rest generalizing done loop with
  | nil => exact ⟨loop, rfl, by simpa using hprogress⟩
  | cons entry rest ih =>
      simp only [List.length_append, List.length_cons] at hbound
      obtain ⟨next, hround, hnext⟩ := hprogress.step entry (by omega)
      obtain ⟨last, hrest, hlast⟩ := ih hnext (by
        simp only [List.length_append, List.length_singleton]
        omega)
      refine ⟨last, ?_, by simpa using hlast⟩
      rw [List.length_append, List.length_singleton] at hrest
      simp only [List.map_cons, List.zip_cons_cons, List.zipIdx_cons,
        List.foldlM_cons, hround, Option.bind_eq_bind, Option.bind_some]
      exact hrest

/-! ## Every entry is accounted for -/

variable (world)

structure Importable (params : ImportTimeEntriesParams) : Prop where
  nonempty : params.entries ≠ []
  withinCap : params.entries.length ≤ importMaxEntries
  accepted : ∀ entry ∈ params.entries, world.Accepts entry

/-- The project that a reference stands for: the one with this number, or the
one with this identifier. -/
inductive RefersTo : ProjectRef → RedmineClient.ProjectIdent → Prop
  | id (number : ℕ) : RefersTo (.id number) (.id (UInt64.ofNat number))
  | identifier (slug : RedmineClient.ProjectIdentifier) :
      RefersTo (.identifier slug.text) (.identifier slug)

/-- The request asks for what the entry says and for nothing else. -/
structure AsksFor (entry : ImportEntryParams) (post : TimeEntryCreate) : Prop where
  issueId : post.issueId = entry.issueId
  projectId : Option.Rel RefersTo entry.projectId post.projectId
  spentOn : post.spentOn = entry.spentOn
  hours : post.hours = entry.hours
  activityId : post.activityId = entry.activityId
  comments : post.comments = entry.comments
  userId : post.userId = entry.userId

/-- The output tells of every entry what became of its request. -/
structure Accounts (params : ImportTimeEntriesParams)
    (posts : List TimeEntryCreate) (output : ImportTimeEntriesOutput) : Prop where
  total : output.total = params.entries.length
  indices : output.results.map ImportEntryResult.index =
    List.range params.entries.length
  within : output.attempted ≤ params.entries.length
  posted : List.Forall₂ AsksFor (params.entries.take output.attempted) posts
  whole : params.stopOnError = false →
    output.attempted = params.entries.length
  stops : params.stopOnError = true →
    (∀ n < output.attempted, world.succeeds n = false →
      n + 1 = output.attempted) ∧
    (output.attempted < params.entries.length →
      ∃ n, n + 1 = output.attempted ∧ world.succeeds n = false)
  attempted_iff : ∀ n result, output.results[n]? = some result →
    (result.attempted = true ↔ n < output.attempted)
  success_iff : ∀ n result, output.results[n]? = some result →
    (result.success = true ↔ n < output.attempted ∧ world.succeeds n = true)
  created : ∀ n result, output.results[n]? = some result →
    n < output.attempted → ∀ entry, world.outcome n = .ok entry →
      result.timeEntry = some (world.timeEntryValue entry) ∧
        result.error = none
  rejected : ∀ n result, output.results[n]? = some result →
    n < output.attempted → ∀ e, world.outcome n = .error e →
      result.timeEntry = none ∧
        result.error = some (describeError world.displayStatus e)
  attempted : output.attempted =
    output.results.countP ImportEntryResult.attempted
  succeeded : output.succeeded =
    output.results.countP ImportEntryResult.success
  failed : output.failed = output.results.countP fun result =>
    result.attempted && !result.success
  sum : output.attempted = output.succeeded + output.failed

variable {world}

theorem refersTo_of_resolved
    {quoteChar : Char → String} {quote : String → String} {ref : ProjectRef}
    {ident : RedmineClient.ProjectIdent}
    (hresolved : resolveProjectRef quoteChar quote ref = .ok ident) :
    RefersTo ref ident := by
  cases ref with
  | id number =>
      cases hresolved
      exact .id number
  | identifier s =>
      cases hslug : RedmineClient.ProjectIdentifier.fromStr s with
      | error error => simp [resolveProjectRef, hslug] at hresolved
      | ok slug =>
          simp only [resolveProjectRef, hslug, Except.ok.injEq] at hresolved
          obtain rfl := RedmineClient.text_of_fromStr hslug
          exact hresolved ▸ .identifier slug

theorem asksFor_payload
    {entry : ImportEntryParams} (haccepts : world.Accepts entry) :
    AsksFor entry (world.payload entry) where
  issueId := rfl
  projectId := by
    change Option.Rel RefersTo entry.projectId (world.projectIdent entry)
    unfold projectIdent
    cases hproject : entry.projectId with
    | none => exact .none
    | some ref =>
        obtain ⟨ident, hresolved⟩ := haccepts.resolves ref hproject
        rw [Option.bind_some, hresolved]
        exact .some (refersTo_of_resolved hresolved)
  spentOn := rfl
  hours := rfl
  activityId := rfl
  comments := rfl
  userId := rfl

/-- Every request that was sent asks for what its entry says. -/
theorem Progress.asks
    {stopOnError : Bool} {done : List ImportEntryParams} {loop : ImportLoop}
    (hprogress : world.Progress stopOnError done loop)
    (haccepted : ∀ entry ∈ done, world.Accepts entry) :
    List.Forall₂ AsksFor (done.take loop.posts.length) loop.posts := by
  have hposts := hprogress.posts
  generalize loop.posts.length = attempted at hposts
  rw [hposts, List.forall₂_map_right_iff, List.forall₂_same]
  intro entry hentry
  exact asksFor_payload (haccepted entry (List.mem_of_mem_take hentry))

theorem record_index (attempted index : ℕ) :
    (world.record attempted index).index = index := by
  unfold record
  split
  · cases world.outcome index <;> rfl
  · rfl

theorem record_attempted (attempted index : ℕ) :
    (world.record attempted index).attempted = decide (index < attempted) := by
  unfold record
  split
  · rename_i hlt
    cases world.outcome index <;> simp [hlt]
  · rename_i hge
    simp [hge, notAttempted]

theorem record_success (attempted index : ℕ) :
    (world.record attempted index).success =
      (decide (index < attempted) && world.succeeds index) := by
  unfold record succeeds
  split
  · rename_i hlt
    cases world.outcome index <;> simp [hlt, Except.isOk, Except.toBool]
  · rename_i hge
    simp [hge, notAttempted]

/-- A count over records is one over the requests. -/
theorem countP_record
    {attempted count : ℕ} (hle : attempted ≤ count)
    (good : ImportEntryResult → Bool) (sent : ℕ → Bool)
    (hgood : ∀ n, good (world.record attempted n) =
      (decide (n < attempted) && sent n)) :
    ((List.range count).map (world.record attempted)).countP good =
      (List.range attempted).countP sent := by
  obtain ⟨more, rfl⟩ := Nat.exists_eq_add_of_le hle
  rw [List.countP_map, List.range_add, List.countP_append, List.countP_map]
  have hsent : (List.range attempted).countP (good ∘ world.record attempted) =
      (List.range attempted).countP sent := by
    refine List.countP_congr fun n hn => ?_
    simp [hgood, List.mem_range.mp hn]
  have hrest : (List.range more).countP
      ((good ∘ world.record attempted) ∘ (attempted + ·)) = 0 := by
    rw [List.countP_eq_zero]
    intro n _
    simp [hgood]
  rw [hsent, hrest, Nat.add_zero]

/-- Without `stop_on_error` every entry is sent. -/
theorem Progress.whole
    {stopOnError : Bool} {entries : List ImportEntryParams} {loop : ImportLoop}
    (hprogress : world.Progress stopOnError entries loop)
    (hgoes : stopOnError = false) : loop.posts.length = entries.length := by
  by_cases hstopped : loop.stopped = true
  · rw [(hprogress.halted hstopped).1] at hgoes
    cases hgoes
  · exact (hprogress.running (by simpa using hstopped)).1

/-- With `stop_on_error` nothing is sent behind the first failure, and nothing
else keeps an entry from being sent. -/
theorem Progress.stops
    {stopOnError : Bool} {entries : List ImportEntryParams} {loop : ImportLoop}
    (hprogress : world.Progress stopOnError entries loop)
    (hstop : stopOnError = true) :
    (∀ n < loop.posts.length, world.succeeds n = false →
      n + 1 = loop.posts.length) ∧
    (loop.posts.length < entries.length →
      ∃ n, n + 1 = loop.posts.length ∧ world.succeeds n = false) := by
  by_cases hstopped : loop.stopped = true
  · obtain ⟨-, last, hlast, hfails, hbefore⟩ := hprogress.halted hstopped
    refine ⟨fun n hn hfailed => ?_, fun _ => ⟨last, hlast.symm, hfails⟩⟩
    by_contra hne
    have hgood := hbefore n (by omega)
    rw [hgood] at hfailed
    cases hfailed
  · obtain ⟨hall, hgood⟩ := hprogress.running (by simpa using hstopped)
    refine ⟨fun n hn hfailed => ?_, fun hlt => absurd hall hlt.ne⟩
    rw [hgood hstop n (hall ▸ hn)] at hfailed
    cases hfailed

theorem Progress.accounts
    {params : ImportTimeEntriesParams} {loop : ImportLoop}
    (hprogress : world.Progress params.stopOnError params.entries loop)
    (himportable : world.Importable params) :
    world.Accounts params loop.posts {
      total := params.entries.length
      attempted := saturatingAdd loop.succeeded loop.failed
      succeeded := loop.succeeded
      failed := loop.failed
      results := loop.results } := by
  have hcap := himportable.withinCap
  have hwithin := hprogress.within
  have hsum : loop.succeeded + loop.failed = loop.posts.length := by
    rw [hprogress.succeeded, hprogress.failed, successes_add_failures]
  have hattempted : saturatingAdd loop.succeeded loop.failed =
      loop.posts.length := by
    unfold saturatingAdd
    unfold importMaxEntries at hcap
    omega
  have hresult : ∀ n result, loop.results[n]? = some result →
      result = world.record loop.posts.length n := by
    intro n result hget
    rw [hprogress.results, List.getElem?_map, Option.map_eq_some_iff] at hget
    obtain ⟨index, hindex, rfl⟩ := hget
    obtain ⟨_, rfl⟩ := List.getElem?_eq_some_iff.mp hindex
    simp
  rw [hattempted]
  constructor
  · rfl
  · simp only [hprogress.results, List.map_map]
    exact List.map_id'' (record_index _) _
  · exact hwithin
  · exact hprogress.asks himportable.accepted
  · exact hprogress.whole
  · exact hprogress.stops
  · intro n result hget
    rw [hresult n result hget, record_attempted, decide_eq_true_iff]
  · intro n result hget
    rw [hresult n result hget, record_success, Bool.and_eq_true,
      decide_eq_true_iff]
  · intro n result hget hlt entry houtcome
    rw [hresult n result hget]
    simp only at hlt
    simp [record, hlt, houtcome]
  · intro n result hget hlt e houtcome
    rw [hresult n result hget]
    simp only at hlt
    simp [record, hlt, houtcome]
  · simp only [hprogress.results]
    rw [countP_record hwithin _ (fun _ => true) (by simp [record_attempted])]
    simp
  · simp only [hprogress.results]
    rw [countP_record hwithin _ world.succeeds (by simp [record_success])]
    exact hprogress.succeeded
  · simp only [hprogress.results]
    rw [countP_record hwithin _ (fun n => !world.succeeds n) (by
      intro n
      rw [record_attempted, record_success]
      cases decide (n < loop.posts.length) <;> rfl)]
    exact hprogress.failed
  · exact hsum.symm

/-- A call either sends nothing or accounts for every entry. -/
theorem importTimeEntries_accounts
    (world : ImportWorld) (params : ImportTimeEntriesParams) :
    ∃ run, world.importTimeEntries params = some run ∧
      (¬ world.Importable params →
        run.posts = [] ∧ ∃ message, run.output = .error message) ∧
      (world.Importable params →
        match world.scopedClient with
        | .error message => run.posts = [] ∧ run.output = .error message
        | .ok () => ∃ output, run.output = .ok output ∧
            world.Accounts params run.posts output) := by
  unfold importTimeEntries
  split
  · rename_i hempty
    refine ⟨_, rfl, fun _ => ⟨rfl, _, rfl⟩, fun himportable => ?_⟩
    exact absurd (List.isEmpty_iff.mp hempty) himportable.nonempty
  rename_i hnonempty
  split
  · rename_i hover
    refine ⟨_, rfl, fun _ => ⟨rfl, _, rfl⟩, fun himportable => ?_⟩
    exact absurd himportable.withinCap (Nat.not_le.mpr hover)
  rename_i hcap
  have hcap : params.entries.length ≤ importMaxEntries := Nat.not_lt.mp hcap
  cases hresolve : world.resolveProjects 0 params.entries with
  | error message =>
      refine ⟨_, rfl, fun _ => ⟨rfl, _, rfl⟩, fun himportable => ?_⟩
      rw [resolveProjects_eq_ok_iff.mpr ⟨himportable.accepted, rfl⟩] at hresolve
      cases hresolve
  | ok idents =>
      obtain ⟨haccepted, rfl⟩ := resolveProjects_eq_ok_iff.mp hresolve
      have himportable : world.Importable params :=
        ⟨fun hnil => hnonempty (List.isEmpty_iff.mpr hnil), hcap, haccepted⟩
      simp only
      cases hscoped : world.scopedClient with
      | error message =>
          exact ⟨_, rfl, fun hnot => absurd himportable hnot, fun _ => ⟨rfl, rfl⟩⟩
      | ok credential =>
          obtain ⟨loop, hloop, hprogress⟩ :=
            (@Progress.start world params.stopOnError).run params.entries (by
              rw [List.nil_append]
              unfold importMaxEntries at hcap
              omega)
          rw [List.nil_append] at hprogress
          simp only [List.length_nil] at hloop
          simp only [hloop, Option.bind_eq_bind, Option.bind_some]
          exact ⟨_, rfl, fun hnot => absurd himportable hnot,
            fun _ => ⟨_, rfl, hprogress.accounts himportable⟩⟩

end ImportWorld

end RuprogressMcp
