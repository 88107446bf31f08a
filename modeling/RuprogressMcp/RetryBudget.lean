import RuprogressMcp.RustText
import RuprogressMcp.BoundedLoops

/-!
# The retry budget of a request

`send_with_retry` sends a request, and sends it again after a delay while the
method is safe, the failure looks transient, retries are left and the deadline
that was fixed on entry has not passed.  Times are nanoseconds.  What the
outside world does is given attempt by attempt: the reply, how long it took,
the random jitter, and how late the sleeping task is woken up.  The deadline
is tested before the sleep, so a retry starts in time exactly when the delay
is shorter than what remains.
-/

namespace Retry

/-! ## Errors of the client -/

inductive ClientError where
  | transport (timeout connect : Bool)
  | api (status : ℕ) (errors : List String)
  | unauthorized
  | forbidden
  | notFound
  | rateLimited (retryAfter : Option ℕ)
  | decode (context : String)
  | config (reason : String)
  | limitExceeded (what : String) (limit actual : ℕ)
  | oauth (status : ℕ) (error : String) (description : Option String)
  | foreignOrigin (origin : String)
deriving DecidableEq

def isServerError (status : ℕ) : Bool := decide (500 ≤ status ∧ status < 600)

def isSuccess (status : ℕ) : Bool := decide (200 ≤ status ∧ status < 300)

def ClientError.isRetryable : ClientError → Bool
  | rateLimited _ => true
  | api status _ => isServerError status
  | transport timeout connect => timeout || connect
  | unauthorized | forbidden | notFound | decode _ | config _
  | limitExceeded _ _ _ | foreignOrigin _ | oauth _ _ _ => false

/-- The error of a status; `errors` is what the body parses to. -/
def fromStatus (status : ℕ) (errors : List String) (retryAfter : Option ℕ) :
    ClientError :=
  if status = 401 then .unauthorized
  else if status = 403 then .forbidden
  else if status = 404 then .notFound
  else if status = 429 then .rateLimited retryAfter
  else .api status errors

/-! ## Delays -/

inductive Method where
  | get | head | post | put | delete | patch | options | trace | connect
  | extension (name : String)
deriving DecidableEq

def methodIsRetryable (method : Method) : Bool :=
  method = .get || method = .head

inductive Credential where
  | apiKey (key : String)
  | basic (user pass : String)
  | bearer (token : String)
deriving DecidableEq

structure RetryPolicy where
  maxRetries : ℕ
  base : ℕ
  maxBackoff : ℕ

def nanosPerSec : ℕ := 10 ^ 9

def nanosPerMilli : ℕ := 10 ^ 6

def u32Max : ℕ := 2 ^ 32 - 1

def u64Max : ℕ := 2 ^ 64 - 1

def durationMax : ℕ := u64Max * nanosPerSec + (nanosPerSec - 1)

/-- The longest backoff before a retry, in whole milliseconds. -/
def backoffCapMillis (policy : RetryPolicy) (attempt : ℕ) : ℕ :=
  let factor := if 2 ^ attempt ≤ u32Max then 2 ^ attempt else u32Max
  let cap := min (min (policy.base * factor) durationMax) policy.maxBackoff
  min (cap / nanosPerMilli) u64Max

/-- The jitter is any number up to the cap. -/
def backoffDuration (policy : RetryPolicy) (attempt jitter : ℕ) : ℕ :=
  min jitter (backoffCapMillis policy attempt) * nanosPerMilli

/-- The delay that a `Retry-After` header asks for.  `untilDate` gives the
seconds from now to the date that a text denotes. -/
def retryAfter (untilDate : List Char → Option ℤ) (header : Option (List Char)) :
    Option ℕ :=
  header.bind fun value =>
    let value := RustText.trim value
    match RustText.parseUnsigned (2 ^ 64) value with
    | some secs => some (secs * nanosPerSec)
    | none => (untilDate value).map fun delta => delta.toNat * nanosPerSec

def clampRetryAfter (delay maxBackoff : ℕ) : ℕ := min delay maxBackoff

/-! ## The loop -/

/-- What one send leads to.  Reading the body of an error response may fail by
itself. -/
inductive Reply where
  | response (status : ℕ) (retryAfter : Option (List Char))
      (body : Except ClientError (List String))
  | failed (timeout connect : Bool)

structure Attempt where
  reply : Reply
  took : ℕ
  untilDate : List Char → Option ℤ
  jitter : ℕ
  late : ℕ

structure Client where
  policy : RetryPolicy
  totalTimeout : ℕ
  credential : Credential
  clockMax : ℕ

/-- `none` when the sum is no instant of the clock. -/
def checkedAdd (clockMax now duration : ℕ) : Option ℕ :=
  if now + duration ≤ clockMax then some (now + duration) else none

def Client.deadline (client : Client) (entry : ℕ) : ℕ :=
  (checkedAdd client.clockMax entry client.totalTimeout).getD entry

/-- Either the function returns, or the failure is a candidate for a retry. -/
def Client.classify (client : Client) (attempt : Attempt) :
    Except ClientError ℕ ⊕ ClientError :=
  match attempt.reply with
  | .response status header body =>
      if isSuccess status then .inl (.ok status)
      else
        let delay := (retryAfter attempt.untilDate header).map fun delay =>
          clampRetryAfter delay client.policy.maxBackoff
        match body with
        | .error error => .inl (.error error)
        | .ok errors => .inr (fromStatus status errors delay)
  | .failed timeout connect => .inr (.transport timeout connect)

/-- A bearer credential's answer of an inactive user. -/
def Client.bearer500 (client : Client) (error : ClientError) : Bool :=
  match client.credential, error with
  | .bearer _, .api status _ => decide (status = 500)
  | _, _ => false

def Client.canRetry (client : Client) (method : Method) (deadline : ℕ)
    (error : ClientError) (attempt now : ℕ) : Bool :=
  methodIsRetryable method && error.isRetryable && !client.bearer500 error &&
    decide (attempt < client.policy.maxRetries) && decide (now < deadline)

/-- The delay before it is cut to the remaining time. -/
def Client.delay (client : Client) (error : ClientError)
    (attempt jitter : ℕ) : ℕ :=
  match error with
  | .rateLimited (some delay) => delay
  | _ => backoffDuration client.policy attempt jitter

/-- The head of the loop, with the start of each attempt made and the delay of
each sleep. -/
structure RetryLoop where
  clock : ℕ
  attempt : ℕ
  starts : List ℕ
  sleeps : List ℕ

structure RetryOutcome where
  result : Except ClientError ℕ
  starts : List ℕ
  sleeps : List ℕ
deriving DecidableEq

def RetryLoop.body (client : Client) (method : Method) (cloneable : Bool)
    (world : ℕ → Attempt) (deadline : ℕ) (loop : RetryLoop) :
    RetryOutcome ⊕ RetryLoop :=
  if !cloneable then
    .inl ⟨.error (.config "request body cannot be cloned for retry"),
      loop.starts, loop.sleeps⟩
  else
    let attempt := world loop.attempt
    let starts := loop.starts ++ [loop.clock]
    let now := loop.clock + attempt.took
    match client.classify attempt with
    | .inl result => .inl ⟨result, starts, loop.sleeps⟩
    | .inr error =>
        if client.canRetry method deadline error loop.attempt now then
          let remaining := deadline - now
          let backoff :=
            min (client.delay error loop.attempt attempt.jitter) remaining
          .inr {
            clock := now + backoff + attempt.late
            attempt := min (loop.attempt + 1) u32Max
            starts
            sleeps := loop.sleeps ++ [backoff] }
        else .inl ⟨.error error, starts, loop.sleeps⟩

def RetryLoop.start (entry : ℕ) : RetryLoop where
  clock := entry
  attempt := 0
  starts := []
  sleeps := []

/-- `send_with_retry`, for at most the given attempts. -/
def sendWithRetry (client : Client) (method : Method) (cloneable : Bool)
    (world : ℕ → Attempt) (entry fuel : ℕ) : Option RetryOutcome :=
  Loop.run (RetryLoop.body client method cloneable world (client.deadline entry))
    fuel (RetryLoop.start entry)

/-! ## One iteration -/

theorem backoffDuration_le (policy : RetryPolicy) (attempt jitter : ℕ) :
    backoffDuration policy attempt jitter ≤ policy.maxBackoff := by
  have hcap : backoffCapMillis policy attempt * nanosPerMilli ≤
      policy.maxBackoff := by
    unfold backoffCapMillis
    simp only
    generalize (if 2 ^ attempt ≤ u32Max then 2 ^ attempt else u32Max) = factor
    calc min (min (min (policy.base * factor) durationMax) policy.maxBackoff /
            nanosPerMilli) u64Max * nanosPerMilli
        ≤ min (min (policy.base * factor) durationMax) policy.maxBackoff /
            nanosPerMilli * nanosPerMilli :=
          Nat.mul_le_mul_right _ (min_le_left _ _)
      _ ≤ min (min (policy.base * factor) durationMax) policy.maxBackoff :=
          Nat.div_mul_le_self _ _
      _ ≤ policy.maxBackoff := min_le_right _ _
  unfold backoffDuration
  exact (Nat.mul_le_mul_right _ (min_le_right _ _)).trans hcap

section Iteration

variable {client : Client} {method : Method} {world : ℕ → Attempt}
  {deadline : ℕ} {loop loop' : RetryLoop} {outcome : RetryOutcome}

theorem classify_rateLimited
    {attempt : Attempt} {delay : ℕ}
    (hclassify : client.classify attempt =
      .inr (.rateLimited (some delay))) :
    delay ≤ client.policy.maxBackoff := by
  unfold Client.classify at hclassify
  split at hclassify
  · split at hclassify
    · cases hclassify
    simp only at hclassify
    split at hclassify
    · cases hclassify
    simp only [fromStatus, Sum.inr.injEq] at hclassify
    split_ifs at hclassify
    simp only [ClientError.rateLimited.injEq, Option.map_eq_some_iff] at hclassify
    obtain ⟨asked, -, rfl⟩ := hclassify
    exact min_le_right _ _
  · cases hclassify

theorem delay_le
    {attempt : Attempt} {error : ClientError}
    (hclassify : client.classify attempt = .inr error) (count : ℕ) :
    client.delay error count attempt.jitter ≤ client.policy.maxBackoff := by
  unfold Client.delay
  split
  · exact classify_rateLimited hclassify
  · exact backoffDuration_le _ _ _

/-- When the failed attempt of an iteration ends. -/
def RetryLoop.now (world : ℕ → Attempt) (loop : RetryLoop) : ℕ :=
  loop.clock + (world loop.attempt).took

/-- What an iteration that goes on has done. -/
theorem RetryLoop.body_next
    (hbody : loop.body client method true world deadline = .inr loop') :
    ∃ error, client.classify (world loop.attempt) = .inr error ∧
      client.canRetry method deadline error loop.attempt (loop.now world) =
        true ∧
      loop' = {
        clock := loop.now world +
          min (client.delay error loop.attempt (world loop.attempt).jitter)
            (deadline - loop.now world) + (world loop.attempt).late
        attempt := min (loop.attempt + 1) u32Max
        starts := loop.starts ++ [loop.clock]
        sleeps := loop.sleeps ++
          [min (client.delay error loop.attempt (world loop.attempt).jitter)
            (deadline - loop.now world)] } := by
  unfold RetryLoop.body at hbody
  simp only [Bool.not_true, Bool.false_eq_true, if_false] at hbody
  split at hbody
  · cases hbody
  rename_i error hclassify
  split at hbody
  · rename_i hretry
    cases hbody
    exact ⟨error, hclassify, hretry, rfl⟩
  · cases hbody

/-- What an iteration that leaves the loop has done. -/
theorem RetryLoop.body_stop
    (hbody : loop.body client method true world deadline = .inl outcome) :
    outcome.starts = loop.starts ++ [loop.clock] ∧
      outcome.sleeps = loop.sleeps ∧
      ∀ error, client.classify (world loop.attempt) = .inr error →
        client.canRetry method deadline error loop.attempt (loop.now world) =
          false := by
  unfold RetryLoop.body at hbody
  simp only [Bool.not_true, Bool.false_eq_true, if_false] at hbody
  split at hbody
  · rename_i result hclassify
    cases hbody
    refine ⟨rfl, rfl, ?_⟩
    intro error hother
    rw [hclassify] at hother
    cases hother
  · rename_i error hclassify
    split at hbody
    · cases hbody
    · rename_i hretry
      cases hbody
      refine ⟨rfl, rfl, ?_⟩
      intro other hother
      rw [hclassify] at hother
      cases hother
      exact Bool.not_eq_true _ ▸ hretry

theorem canRetry_iff {error : ClientError} {attempt now : ℕ} :
    client.canRetry method deadline error attempt now = true ↔
      methodIsRetryable method = true ∧ error.isRetryable = true ∧
        client.bearer500 error = false ∧
        attempt < client.policy.maxRetries ∧ now < deadline := by
  simp [Client.canRetry, and_assoc]

end Iteration

theorem Client.deadline_of_lt
    {client : Client} {entry now : ℕ}
    (hentry : entry ≤ now) (hnow : now < client.deadline entry) :
    client.deadline entry = entry + client.totalTimeout := by
  unfold Client.deadline checkedAdd at hnow ⊢
  split
  · rfl
  · rename_i hover
    rw [if_neg hover] at hnow
    simp only [Option.getD_none] at hnow
    omega

/-! ## Whole calls -/

/-- What holds at the head of every iteration. -/
structure RetryLoop.Kept (client : Client) (method : Method) (entry : ℕ)
    (loop : RetryLoop) : Prop where
  clock : entry ≤ loop.clock
  counted : loop.starts.length = loop.attempt
  attempts : loop.attempt ≤ client.policy.maxRetries
  once : methodIsRetryable method = false → loop.attempt = 0
  sleeps : ∀ delay ∈ loop.sleeps, delay ≤ client.policy.maxBackoff

/-- The delay before the next retry, if there is one, ends before the
deadline, also when the task is woken up late. -/
def RetryLoop.Punctual (client : Client) (method : Method)
    (world : ℕ → Attempt) (deadline : ℕ) (loop : RetryLoop) : Prop :=
  ∀ error, client.classify (world loop.attempt) = .inr error →
    client.canRetry method deadline error loop.attempt (loop.now world) =
      true →
    client.delay error loop.attempt (world loop.attempt).jitter +
      (world loop.attempt).late < deadline - loop.now world

/-- The budget of a call. -/
structure WithinBudget (client : Client) (method : Method) (entry : ℕ)
    (outcome : RetryOutcome) : Prop where
  once : methodIsRetryable method = false → outcome.starts.length = 1
  attempts : outcome.starts.length ≤ client.policy.maxRetries + 1
  sleeps : ∀ delay ∈ outcome.sleeps, delay ≤ client.policy.maxBackoff
  deadline : ∀ start ∈ outcome.starts.tail,
    start < entry + client.totalTimeout

section Calls

variable {client : Client} {method : Method} {world : ℕ → Attempt}
  {entry : ℕ} {loop loop' : RetryLoop} {outcome : RetryOutcome}

theorem RetryLoop.Kept.start (client : Client) (method : Method) (entry : ℕ) :
    (RetryLoop.start entry).Kept client method entry where
  clock := le_refl _
  counted := rfl
  attempts := Nat.zero_le _
  once := fun _ => rfl
  sleeps := fun _ hmem => absurd hmem List.not_mem_nil

theorem RetryLoop.Kept.next
    (hu32 : client.policy.maxRetries ≤ u32Max)
    (hkept : loop.Kept client method entry)
    (hbody : loop.body client method true world (client.deadline entry) =
      .inr loop') :
    loop'.Kept client method entry ∧ loop'.attempt = loop.attempt + 1 := by
  obtain ⟨error, hclassify, hretry, rfl⟩ := RetryLoop.body_next hbody
  obtain ⟨hmethod, -, -, hleft, -⟩ := canRetry_iff.mp hretry
  have hclock := hkept.clock
  have hcount : min (loop.attempt + 1) u32Max = loop.attempt + 1 := by omega
  refine ⟨⟨?_, ?_, ?_, ?_, ?_⟩, hcount⟩
  · show entry ≤ loop.clock + _ + _ + _
    omega
  · simp only [List.length_append, List.length_singleton, hkept.counted, hcount]
  · simp only [hcount]
    omega
  · intro hunsafe
    rw [hmethod] at hunsafe
    cases hunsafe
  · intro delay hmem
    rcases List.mem_append.mp hmem with hold | hnew
    · exact hkept.sleeps delay hold
    · rw [List.mem_singleton.mp hnew]
      exact (min_le_left _ _).trans (delay_le hclassify loop.attempt)

theorem RetryLoop.Kept.stop
    (hkept : loop.Kept client method entry)
    (hbody : loop.body client method true world (client.deadline entry) =
      .inl outcome) :
    (methodIsRetryable method = false → outcome.starts.length = 1) ∧
      outcome.starts.length ≤ client.policy.maxRetries + 1 ∧
      ∀ delay ∈ outcome.sleeps, delay ≤ client.policy.maxBackoff := by
  obtain ⟨hstarts, hsleeps, -⟩ := RetryLoop.body_stop hbody
  have hlength : outcome.starts.length = loop.attempt + 1 := by
    rw [hstarts, List.length_append, hkept.counted, List.length_singleton]
  refine ⟨?_, ?_, ?_⟩
  · intro hunsafe
    rw [hlength, hkept.once hunsafe]
  · rw [hlength]
    exact Nat.succ_le_succ hkept.attempts
  · rw [hsleeps]
    exact hkept.sleeps

/-- A retry starts in time exactly when its delay is punctual. -/
theorem RetryLoop.next_in_time_iff
    (hkept : loop.Kept client method entry)
    (hbody : loop.body client method true world (client.deadline entry) =
      .inr loop') :
    loop'.clock < entry + client.totalTimeout ↔
      loop.Punctual client method world (client.deadline entry) := by
  obtain ⟨error, hclassify, hretry, rfl⟩ := RetryLoop.body_next hbody
  obtain ⟨-, -, -, -, hnow⟩ := canRetry_iff.mp hretry
  have hentry : entry ≤ loop.now world :=
    hkept.clock.trans (Nat.le_add_right _ _)
  have hdeadline := Client.deadline_of_lt hentry hnow
  simp only [← hdeadline]
  constructor
  · intro htime other hother _
    rw [hclassify] at hother
    cases hother
    omega
  · intro hpunctual
    have := hpunctual error hclassify hretry
    omega

end Calls

theorem tail_append_singleton {starts : List ℕ} (clock later : ℕ)
    (good : ℕ → Prop) :
    (∀ start ∈ ((starts ++ [clock]) ++ [later]).tail, good start) ↔
      (∀ start ∈ (starts ++ [clock]).tail, good start) ∧ good later := by
  cases starts with
  | nil => simp
  | cons first rest =>
      simp only [List.cons_append, List.tail_cons, List.forall_mem_append,
        List.forall_mem_singleton]

section Budget

variable {client : Client} {method : Method} {world : ℕ → Attempt} {entry : ℕ}

theorem sendWithRetry_returns
    (client : Client) (method : Method) (world : ℕ → Attempt) (entry : ℕ)
    (hu32 : client.policy.maxRetries ≤ u32Max) :
    ∃ outcome,
      sendWithRetry client method true world entry
        (client.policy.maxRetries + 1) = some outcome ∧
      (methodIsRetryable method = false → outcome.starts.length = 1) ∧
      outcome.starts.length ≤ client.policy.maxRetries + 1 ∧
      ∀ delay ∈ outcome.sleeps, delay ≤ client.policy.maxBackoff := by
  apply Loop.run_of_invariant (RetryLoop.Kept client method entry)
    (fun loop => client.policy.maxRetries - loop.attempt)
  · intro loop outcome hkept hbody
    exact hkept.stop hbody
  · intro loop loop' hkept hbody
    obtain ⟨hkept', hcount⟩ := hkept.next hu32 hbody
    have hle := hkept'.attempts
    exact ⟨hkept', by omega⟩
  · exact RetryLoop.Kept.start client method entry
  · exact Nat.lt_succ_self client.policy.maxRetries

/-- What a request that is not sent again leads to. -/
def Client.onlyResult (client : Client) (attempt : Attempt) :
    Except ClientError ℕ :=
  match client.classify attempt with
  | .inl result => result
  | .inr error => .error error

theorem sendWithRetry_once
    (client : Client) (world : ℕ → Attempt) (entry fuel : ℕ)
    (hmethod : methodIsRetryable method = false) :
    sendWithRetry client method true world entry (fuel + 1) =
      some ⟨client.onlyResult (world 0), [entry], []⟩ := by
  unfold sendWithRetry Loop.run RetryLoop.body Client.onlyResult
  cases hclassify : client.classify (world 0) with
  | inl result => simp [RetryLoop.start, hclassify]
  | inr error => simp [RetryLoop.start, hclassify, Client.canRetry, hmethod]

theorem sendWithRetry_in_time_iff
    {fuel : ℕ} {outcome : RetryOutcome}
    (hu32 : client.policy.maxRetries ≤ u32Max)
    (hrun : sendWithRetry client method true world entry fuel =
      some outcome) :
    (∀ start ∈ outcome.starts.tail, start < entry + client.totalTimeout) ↔
      Loop.Each
        (RetryLoop.body client method true world (client.deadline entry))
        (RetryLoop.Punctual client method world (client.deadline entry))
        fuel (RetryLoop.start entry) := by
  have hfirst : ∀ start ∈
      ((RetryLoop.start entry).starts ++ [(RetryLoop.start entry).clock]).tail,
      start < entry + client.totalTimeout :=
    fun _ hmem => absurd hmem List.not_mem_nil
  rw [← true_and (Loop.Each _ _ _ _), ← eq_true hfirst]
  apply Loop.run_iff_each (RetryLoop.Kept client method entry)
    (fun loop => ∀ start ∈ (loop.starts ++ [loop.clock]).tail,
      start < entry + client.totalTimeout)
    (RetryLoop.Punctual client method world (client.deadline entry))
    (fun outcome : RetryOutcome => ∀ start ∈ outcome.starts.tail,
      start < entry + client.totalTimeout)
  · intro loop outcome _ hbody
    obtain ⟨hstarts, -, hnone⟩ := RetryLoop.body_stop hbody
    refine ⟨?_, by rw [hstarts]⟩
    intro error hclassify hretry
    rw [hnone error hclassify] at hretry
    cases hretry
  · intro loop loop' hkept hbody
    refine ⟨(hkept.next hu32 hbody).1, ?_⟩
    rw [← RetryLoop.next_in_time_iff hkept hbody]
    obtain ⟨error, -, -, rfl⟩ := RetryLoop.body_next hbody
    exact tail_append_singleton _ _ _
  · exact RetryLoop.Kept.start client method entry
  · exact hrun

end Budget

/-- Every call returns.  It keeps to its budget exactly when every retry has
a delay that ends before the deadline. -/
theorem sendWithRetry_within_budget_iff
    (client : Client) (method : Method) (world : ℕ → Attempt) (entry : ℕ)
    (hu32 : client.policy.maxRetries ≤ u32Max) :
    ∃ outcome,
      sendWithRetry client method true world entry
        (client.policy.maxRetries + 1) = some outcome ∧
      (WithinBudget client method entry outcome ↔
        Loop.Each
          (RetryLoop.body client method true world (client.deadline entry))
          (RetryLoop.Punctual client method world (client.deadline entry))
          (client.policy.maxRetries + 1) (RetryLoop.start entry)) := by
  obtain ⟨outcome, hrun, honce, hattempts, hsleeps⟩ :=
    sendWithRetry_returns client method world entry hu32
  refine ⟨outcome, hrun, ?_⟩
  rw [← sendWithRetry_in_time_iff hu32 hrun]
  constructor
  · intro hbudget
    exact hbudget.deadline
  · intro htimes
    exact ⟨honce, hattempts, hsleeps, htimes⟩

namespace Sample

/-- A client that gives a call one second and one retry. -/
def client : Client where
  policy := { maxRetries := 1, base := 200 * nanosPerMilli, maxBackoff := 5 * nanosPerSec }
  totalTimeout := nanosPerSec
  credential := .apiKey "k"
  clockMax := 2 ^ 63

/-- Every attempt is refused at once and asks for a pause. -/
def busyServer (pause : List Char) : ℕ → Attempt := fun _ =>
  { reply := .response 429 (some pause) (.ok [])
    took := 0
    untilDate := fun _ => none
    jitter := 0
    late := 0 }

theorem retry_starts_at_deadline :
    ∃ outcome,
      sendWithRetry client .get true (busyServer ['2']) 0 2 = some outcome ∧
        outcome.starts = [0, nanosPerSec] ∧
        ¬ WithinBudget client .get 0 outcome := by
  refine ⟨⟨.error (.rateLimited (some (2 * nanosPerSec))), [0, nanosPerSec],
    [nanosPerSec]⟩, by decide +kernel, rfl, ?_⟩
  intro hbudget
  exact absurd (hbudget.deadline nanosPerSec (by simp)) (by decide)

theorem short_pause_within_budget :
    ∃ outcome,
      sendWithRetry client .get true (busyServer ['0']) 0
        (client.policy.maxRetries + 1) = some outcome ∧
      (WithinBudget client .get 0 outcome ↔
        Loop.Each
          (RetryLoop.body client .get true (busyServer ['0']) (client.deadline 0))
          (RetryLoop.Punctual client .get (busyServer ['0']) (client.deadline 0))
          (client.policy.maxRetries + 1) (RetryLoop.start 0)) :=
  sendWithRetry_within_budget_iff client .get (busyServer ['0']) 0 (by decide)

end Sample

end Retry
