import RuprogressMcp.ProxyEndpoints
import RuprogressMcp.TransitionRuns

/-!
# Token introspection and its cache

`TokenVerifier` of `auth/oauth.rs`, and `POST /revoke` of
`transport/http.rs`, which purges a token from the cache.  A verification
reads the cache, introspects the token at the authorization server and writes
the cache, each access under its own acquisition of the lock; the request for
introspection is in flight between the two.  The wall clock is read apart
from the monotonic clock and may be moved in either direction.
-/

namespace RuprogressMcp

namespace Verifier

/-! ## 64-bit seconds -/

def i64Max : ℤ := 2 ^ 63 - 1

def i64Min : ℤ := -2 ^ 63

/-- The result of a saturating `i64` operation. -/
def saturate (n : ℤ) : ℤ := max i64Min (min i64Max n)

/-! ## The cache -/

def clockSkewSecs : ℤ := 5

def negativeCacheTtl : Duration := seconds 5

def cacheCapacity : ℕ := 1024

/-- The introspection response, as far as the verifier reads it. -/
structure Introspection where
  active : Bool
  scope : Option String
  username : Option String
  sub : Option String
  exp : Option ℤ
deriving DecidableEq

def Introspection.scopes (introspection : Introspection) : List String :=
  (introspection.scope.map splitAsciiWhitespace).getD []

structure AuthContext where
  token : String
  subject : Option String
  scopes : Finset String
  expiresAt : Option ℤ
deriving DecidableEq

inductive AuthError
  | invalidToken (message : String)
  | unavailable
  | misconfigured
deriving DecidableEq

/-- What the client of the authorization server can fail with. -/
inductive ClientError
  | unauthorized
  | forbidden
  | notFound
  | other
deriving DecidableEq

inductive VerifyResult
  | ok (context : AuthContext)
  | error (error : AuthError)
deriving DecidableEq

inductive CacheValue
  | valid (context : AuthContext)
  | invalid
deriving DecidableEq

abbrev Cache := Table Digest (CacheValue × Instant)

def isExpired (wall : ℤ) : Option ℤ → Bool
  | none => false
  | some exp => decide (exp ≤ saturate (wall + clockSkewSecs))

def contextFrom (wall : ℤ) (introspection : Introspection) (token : String) :
    VerifyResult :=
  if introspection.active = false then
    .error (.invalidToken "token is not active")
  else if isExpired wall introspection.exp then
    .error (.invalidToken "token is expired")
  else
    .ok
      { token
        subject := introspection.sub <|> introspection.username
        scopes := introspection.scopes.toFinset
        expiresAt := introspection.exp }

def introspectError : ClientError → AuthError
  | .unauthorized => .misconfigured
  | .forbidden => .misconfigured
  | .notFound => .misconfigured
  | .other => .unavailable

/-- An entry past its deadline, or with an expired context, is removed. -/
def cacheGet (cache : Cache) (now : Instant) (wall : ℤ) (key : Digest) :
    Cache × Option VerifyResult :=
  match cache.lookup key with
  | none => (cache, none)
  | some (value, expiresAt) =>
      if expiresAt ≤ now then (cache.erase key, none)
      else
        match value with
        | .valid context =>
            if isExpired wall context.expiresAt then (cache.erase key, none)
            else (cache, some (.ok context))
        | .invalid =>
            (cache, some (.error (.invalidToken "token is not active")))

/-- The first half of `cache_put`: how long a result may be cached, if it may
be cached at all. -/
def cacheTtl (ttl : Duration) (wall : ℤ) (introspection : Introspection) :
    VerifyResult → Option Duration
  | .ok _ =>
      match introspection.exp with
      | none => if ttl = 0 then none else some ttl
      | some exp =>
          let remaining := saturate (saturate (exp - wall) - clockSkewSecs)
          if remaining ≤ 0 then none
          else
            let capped := min ttl (seconds remaining.toNat)
            if capped = 0 then none else some capped
  | .error (.invalidToken _) => some negativeCacheTtl
  | .error .unavailable => none
  | .error .misconfigured => none

/-- After the sweep there is a free place, or the key has one already. -/
def hasRoom (cache : Cache) (now : Instant) (key : Digest) : Bool :=
  decide ((cache.sweep now).len < cacheCapacity) ||
    decide (key ∈ cache.sweep now)

def cacheValue : VerifyResult → CacheValue
  | .ok context => .valid context
  | .error _ => .invalid

/-- The second half of `cache_put`, under the lock. -/
def cachePut (cache : Cache) (now : Instant) (key : Digest)
    (result : VerifyResult) (ttl : Duration) : Cache :=
  if hasRoom cache now key then
    (cache.sweep now).insert key (cacheValue result, expiresAfter now ttl)
  else cache.sweep now

def purge (cache : Cache) (key : Digest) : Cache := cache.erase key

/-! ## The calls -/

structure Config where
  ttl : Duration
  digest : String → Digest

/-- The answers of the authorization server.  A failed revocation carries the
status of the error, if it has one. -/
structure Choice where
  introspection : Except ClientError Introspection := .error .other
  revocation : Except (Option ℕ) Unit := .error none

inductive Phase (τ ρ : Type)
  | running (task : τ)
  | finished (result : Option ρ)
deriving DecidableEq

inductive VerifyTask
  | get
  | send
  | await
  | ttl (introspection : Introspection) (result : VerifyResult)
  | put (result : VerifyResult) (lifetime : Duration)
deriving DecidableEq

namespace VerifyTask

/-- A verifier without a cache goes straight to the server. -/
def start (config : Config) : Phase VerifyTask VerifyResult :=
  if config.ttl = 0 then .running .send else .running .get

def step (config : Config) (now : Instant) (wall : ℤ) (choice : Choice)
    (cache : Cache) (token : String) :
    VerifyTask → Cache × Phase VerifyTask VerifyResult
  | get =>
      let (cache, cached) := cacheGet cache now wall (config.digest token)
      match cached with
      | some result => (cache, .finished (some result))
      | none => (cache, .running .send)
  | send => (cache, .running .await)
  | await =>
      match choice.introspection with
      | .error error =>
          (cache, .finished (some (.error (introspectError error))))
      | .ok introspection =>
          let result := contextFrom wall introspection token
          if config.ttl = 0 then (cache, .finished (some result))
          else (cache, .running (.ttl introspection result))
  | ttl introspection result =>
      match cacheTtl config.ttl wall introspection result with
      | none => (cache, .finished (some result))
      | some lifetime => (cache, .running (.put result lifetime))
  | put result lifetime =>
      (cachePut cache now (config.digest token) result lifetime,
        .finished (some result))

end VerifyTask

/-- The parsed form of `POST /revoke`; `credential` is what
`client_credential` reads from the header or the form. -/
structure RevokeRequest where
  isForm : Bool
  bodyFits : Bool
  token : Option String
  credential : Option (String × String)
deriving DecidableEq

inductive RevokeTask
  | upstream
  | purge
deriving DecidableEq

namespace RevokeTask

/-- The answer is the status of the response. -/
def step (config : Config) (choice : Choice) (cache : Cache) (token : String) :
    RevokeTask → Cache × Phase RevokeTask ℕ
  | upstream =>
      match choice.revocation with
      | .ok () => (cache, .running .purge)
      | .error status => (cache, .finished (some (status.getD 502)))
  | purge => (Verifier.purge cache (config.digest token), .finished (some 200))

end RevokeTask

inductive Call
  | verify (token : String) (phase : Phase VerifyTask VerifyResult)
  | revoke (token : String) (phase : Phase RevokeTask ℕ)
  | rejected (status : ℕ)
deriving DecidableEq

namespace Call

def startRevoke (request : RevokeRequest) : Call :=
  if request.isForm = false then .rejected 415
  else if request.bodyFits = false then .rejected 413
  else
    match nonEmpty request.token, request.credential with
    | none, _ => .rejected 400
    | some _, none => .rejected 400
    | some token, some _ => .revoke token (.running .upstream)

def step (config : Config) (now : Instant) (wall : ℤ) (choice : Choice)
    (cache : Cache) : Call → Option (Cache × Call)
  | verify token (.running task) =>
      let (cache, phase) := task.step config now wall choice cache token
      some (cache, .verify token phase)
  | revoke token (.running task) =>
      let (cache, phase) := task.step config choice cache token
      some (cache, .revoke token phase)
  | _ => none

/-- Dropping the future of a call that waits for the server. -/
def cancel : Call → Option Call
  | verify token (.running .await) => some (.verify token (.finished none))
  | revoke token (.running .upstream) => some (.revoke token (.finished none))
  | _ => none

end Call

/-! ## Concurrent calls -/

structure State where
  now : Instant
  wall : ℤ
  cache : Cache
  calls : ℕ → Option Call

def State.initial : State where
  now := 0
  wall := 0
  cache := ∅
  calls := fun _ => none

inductive Label
  | elapse (duration : Duration) (shift : ℤ)
  | verify (i : ℕ) (token : String)
  | revoke (i : ℕ) (request : RevokeRequest)
  | poll (i : ℕ) (choice : Choice)
  | cancel (i : ℕ)

namespace State

def setCall (s : State) (i : ℕ) (call : Call) : State :=
  { s with calls := Function.update s.calls i (some call) }

def spawn (s : State) (i : ℕ) (call : Call) : Option State :=
  match s.calls i with
  | none => some (s.setCall i call)
  | some _ => none

def next (config : Config) (s : State) : Label → Option State
  | .elapse duration shift =>
      some { s with now := s.now + duration, wall := s.wall + shift }
  | .verify i token => s.spawn i (.verify token (VerifyTask.start config))
  | .revoke i request => s.spawn i (Call.startRevoke request)
  | .poll i choice =>
      match (s.calls i).bind (·.step config s.now s.wall choice s.cache) with
      | some (cache, call) => some ({ s with cache }.setCall i call)
      | none => none
  | .cancel i =>
      match (s.calls i).bind Call.cancel with
      | some call => some (s.setCall i call)
      | none => none

end State

abbrev Run (config : Config) :=
  Transition.Run (State.next config) State.initial

/-! ## What one step can do -/

inductive StepKind (config : Config) (s : State) : Label → State → Prop
  | elapse (duration : Duration) (shift : ℤ) :
      StepKind config s (.elapse duration shift)
        { s with now := s.now + duration, wall := s.wall + shift }
  | verify (i : ℕ) (token : String) (hfree : s.calls i = none) :
      StepKind config s (.verify i token)
        (s.setCall i (.verify token (VerifyTask.start config)))
  | revoke (i : ℕ) (request : RevokeRequest) (hfree : s.calls i = none) :
      StepKind config s (.revoke i request)
        (s.setCall i (Call.startRevoke request))
  | poll (i : ℕ) (choice : Choice) (call : Call) (cache : Cache)
      (after : Call) (hcall : s.calls i = some call)
      (hstep : call.step config s.now s.wall choice s.cache =
        some (cache, after)) :
      StepKind config s (.poll i choice) ({ s with cache }.setCall i after)
  | cancel (i : ℕ) (call cancelled : Call) (hcall : s.calls i = some call)
      (hcancel : call.cancel = some cancelled) :
      StepKind config s (.cancel i) (s.setCall i cancelled)

theorem spawn_eq_some
    {s s' : State} {i : ℕ} {call : Call} (hspawn : s.spawn i call = some s') :
    s.calls i = none ∧ s' = s.setCall i call := by
  unfold State.spawn at hspawn
  split at hspawn
  next hfree =>
    simp only [Option.some.injEq] at hspawn
    exact ⟨hfree, hspawn.symm⟩
  next => simp at hspawn

theorem stepKind_of_next
    {config : Config} {s s' : State} {label : Label}
    (hnext : s.next config label = some s') : StepKind config s label s' := by
  cases label with
  | elapse duration shift =>
      simp only [State.next, Option.some.injEq] at hnext
      subst hnext
      exact .elapse duration shift
  | verify i token =>
      obtain ⟨hfree, rfl⟩ := spawn_eq_some hnext
      exact .verify i token hfree
  | revoke i request =>
      obtain ⟨hfree, rfl⟩ := spawn_eq_some hnext
      exact .revoke i request hfree
  | poll i choice =>
      cases hcall : s.calls i with
      | none => simp [State.next, hcall] at hnext
      | some call =>
          cases hstep : call.step config s.now s.wall choice s.cache with
          | none => simp [State.next, hcall, hstep] at hnext
          | some result =>
              simp only [State.next, hcall, Option.bind_some, hstep,
                Option.some.injEq] at hnext
              subst hnext
              exact .poll i choice call result.1 result.2 hcall hstep
  | cancel i =>
      cases hcall : s.calls i with
      | none => simp [State.next, hcall] at hnext
      | some call =>
          cases hcancel : call.cancel with
          | none => simp [State.next, hcall, hcancel] at hnext
          | some cancelled =>
              simp only [State.next, hcall, Option.bind_some, hcancel,
                Option.some.injEq] at hnext
              subst hnext
              exact .cancel i call cancelled hcall hcancel

theorem State.setCall_calls_self (s : State) (i : ℕ) (call : Call) :
    (s.setCall i call).calls i = some call :=
  Function.update_self ..

theorem State.setCall_calls_of_ne
    {s : State} {i j : ℕ} {call : Call} (hne : j ≠ i) :
    (s.setCall i call).calls j = s.calls j :=
  Function.update_of_ne hne ..

theorem call_next
    {config : Config} {s s' : State} {label : Label} {j : ℕ} {call : Call}
    (hnext : s.next config label = some s') (hcall : s.calls j = some call) :
    ∃ after, s'.calls j = some after := by
  have hset {t : State} {i : ℕ} {changed : Call}
      (hsame : t.calls j = some call) :
      ∃ after, (t.setCall i changed).calls j = some after := by
    by_cases heq : j = i
    · subst heq
      exact ⟨changed, State.setCall_calls_self t j changed⟩
    · exact ⟨call, (State.setCall_calls_of_ne heq).trans hsame⟩
  cases stepKind_of_next hnext with
  | elapse duration shift => exact ⟨call, hcall⟩
  | verify i token hfree => exact hset hcall
  | revoke i request hfree => exact hset hcall
  | poll i choice polled cache after hpolled hstep => exact hset hcall
  | cancel i waiting cancelled hwaiting hcancel => exact hset hcall

theorem call_before
    {config : Config} {s s' : State} {label : Label} {j : ℕ} {call : Call}
    (hnext : s.next config label = some s') (hcall : s'.calls j = some call) :
    s.calls j = some call ∨
      (∃ token, label = .verify j token ∧
        call = .verify token (VerifyTask.start config)) ∨
      (∃ request, call = Call.startRevoke request) ∨
      (∃ choice before, label = .poll j choice ∧ s.calls j = some before ∧
        before.step config s.now s.wall choice s.cache =
          some (s'.cache, call)) ∨
      (∃ before, s.calls j = some before ∧ before.cancel = some call) := by
  have hset {t : State} {i : ℕ} {changed : Call}
      (hcall : (t.setCall i changed).calls j = some call) :
      (j = i ∧ changed = call) ∨ t.calls j = some call := by
    by_cases heq : j = i
    · subst heq
      rw [State.setCall_calls_self, Option.some.injEq] at hcall
      exact Or.inl ⟨rfl, hcall⟩
    · rw [State.setCall_calls_of_ne heq] at hcall
      exact Or.inr hcall
  cases stepKind_of_next hnext with
  | elapse duration shift => exact Or.inl hcall
  | verify i token hfree =>
      rcases hset hcall with ⟨rfl, rfl⟩ | hold
      · exact Or.inr (Or.inl ⟨token, rfl, rfl⟩)
      · exact Or.inl hold
  | revoke i request hfree =>
      rcases hset hcall with ⟨_, rfl⟩ | hold
      · exact Or.inr (Or.inr (Or.inl ⟨request, rfl⟩))
      · exact Or.inl hold
  | poll i choice polled cache after hpolled hstep =>
      rcases hset hcall with ⟨rfl, rfl⟩ | hold
      · exact Or.inr (Or.inr (Or.inr (Or.inl
          ⟨choice, polled, rfl, hpolled, hstep⟩)))
      · exact Or.inl hold
  | cancel i waiting cancelled hwaiting hcancel =>
      rcases hset hcall with ⟨rfl, rfl⟩ | hold
      · exact Or.inr (Or.inr (Or.inr (Or.inr ⟨waiting, hwaiting, hcancel⟩)))
      · exact Or.inl hold

/-- How a verification came to its phase in one step. -/
inductive VerifyStep (config : Config) (s : State) (label : Label) (j : ℕ)
    (token : String) (phase : Phase VerifyTask VerifyResult) : Prop
  | kept (hcall : s.calls j = some (.verify token phase))
  | started (hlabel : label = .verify j token)
      (hphase : phase = VerifyTask.start config)
  | polled (choice : Choice) (task : VerifyTask)
      (hlabel : label = .poll j choice)
      (hcall : s.calls j = some (.verify token (.running task)))
      (hphase : phase =
        (task.step config s.now s.wall choice s.cache token).2)
  | cancelled (hcall : s.calls j = some (.verify token (.running .await)))
      (hphase : phase = .finished none)

theorem verifyStep_of_next
    {config : Config} {s s' : State} {label : Label} {j : ℕ} {token : String}
    {phase : Phase VerifyTask VerifyResult}
    (hnext : s.next config label = some s')
    (hcall : s'.calls j = some (.verify token phase)) :
    VerifyStep config s label j token phase := by
  rcases call_before hnext hcall with hold | ⟨other, hlabel, hstart⟩ |
    ⟨request, hstart⟩ | ⟨choice, before, hlabel, hbefore, hstep⟩ |
    ⟨before, hbefore, hcancel⟩
  · exact .kept hold
  · simp only [Call.verify.injEq] at hstart
    obtain ⟨rfl, rfl⟩ := hstart
    exact .started hlabel rfl
  · unfold Call.startRevoke at hstart
    repeat' split at hstart
    all_goals simp at hstart
  · unfold Call.step at hstep
    split at hstep
    next other task =>
      simp only [Option.some.injEq, Prod.mk.injEq,
        Call.verify.injEq] at hstep
      obtain ⟨_, rfl, rfl⟩ := hstep
      exact .polled choice task hlabel hbefore rfl
    next => simp at hstep
    next => simp at hstep
  · unfold Call.cancel at hcancel
    split at hcancel
    all_goals simp only [Option.some.injEq, Call.verify.injEq,
      reduceCtorEq] at hcancel
    obtain ⟨rfl, rfl⟩ := hcancel
    exact .cancelled hbefore rfl

/-- What a call does to the cache in one step. -/
inductive CacheStep (config : Config) (s : State) (i : ℕ) (cache : Cache) :
    Prop
  | unchanged (hcache : cache = s.cache)
  | get (token : String)
      (hcall : s.calls i = some (.verify token (.running .get)))
      (hcache : cache =
        (cacheGet s.cache s.now s.wall (config.digest token)).1)
  | put (token : String) (result : VerifyResult) (lifetime : Duration)
      (hcall : s.calls i =
        some (.verify token (.running (.put result lifetime))))
      (hcache : cache =
        cachePut s.cache s.now (config.digest token) result lifetime)
  | purge (token : String)
      (hcall : s.calls i = some (.revoke token (.running .purge)))
      (hcache : cache = Verifier.purge s.cache (config.digest token))

theorem cacheStep_of_step
    {config : Config} {s : State} {i : ℕ} {choice : Choice} {call after : Call}
    {cache : Cache} (hcall : s.calls i = some call)
    (hstep : call.step config s.now s.wall choice s.cache =
      some (cache, after)) : CacheStep config s i cache := by
  unfold Call.step at hstep
  split at hstep
  next token task =>
    simp only [Option.some.injEq, Prod.mk.injEq] at hstep
    obtain ⟨rfl, _⟩ := hstep
    cases task with
    | get =>
        refine .get token hcall ?_
        simp only [VerifyTask.step]
        split <;> rfl
    | send => exact .unchanged rfl
    | await =>
        refine .unchanged ?_
        simp only [VerifyTask.step]
        split
        · rfl
        · split <;> rfl
    | ttl introspection result =>
        refine .unchanged ?_
        simp only [VerifyTask.step]
        split <;> rfl
    | put result lifetime => exact .put token result lifetime hcall rfl
  next token task =>
    simp only [Option.some.injEq, Prod.mk.injEq] at hstep
    obtain ⟨rfl, _⟩ := hstep
    cases task with
    | upstream =>
        refine .unchanged ?_
        simp only [RevokeTask.step]
        split <;> rfl
    | purge => exact .purge token hcall rfl
  next => simp at hstep

theorem cache_next
    {config : Config} {s s' : State} {label : Label}
    (hnext : s.next config label = some s') :
    s'.cache = s.cache ∨
      ∃ i choice, label = .poll i choice ∧ CacheStep config s i s'.cache := by
  cases stepKind_of_next hnext with
  | poll i choice call cache after hcall hstep =>
      exact Or.inr ⟨i, choice, rfl, cacheStep_of_step hcall hstep⟩
  | _ => exact Or.inl rfl

/-! ## The cache after a section -/

theorem lookup_cacheGet
    {cache : Cache} {now : Instant} {wall : ℤ} {key other : Digest}
    {entry : CacheValue × Instant}
    (hentry : (cacheGet cache now wall key).1.lookup other = some entry) :
    cache.lookup other = some entry := by
  unfold cacheGet at hentry
  split at hentry
  · exact hentry
  · split at hentry
    · exact (Table.lookup_erase_iff.mp hentry).2
    · split at hentry
      · split at hentry
        · exact (Table.lookup_erase_iff.mp hentry).2
        · exact hentry
      · exact hentry

theorem lookup_cachePut
    {cache : Cache} {now : Instant} {key other : Digest}
    {result : VerifyResult} {lifetime : Duration}
    {entry : CacheValue × Instant}
    (hentry : (cachePut cache now key result lifetime).lookup other =
      some entry) :
    (other = key ∧ entry = (cacheValue result, expiresAfter now lifetime) ∧
        hasRoom cache now key = true) ∨
      (cache.lookup other = some entry ∧ now < entry.2) := by
  unfold cachePut at hentry
  split at hentry
  next hroom =>
    rcases Table.lookup_insert_iff.mp hentry with ⟨hkey, hvalue⟩ | ⟨_, hold⟩
    · exact Or.inl ⟨hkey, hvalue, hroom⟩
    · exact Or.inr (Table.lookup_sweep_iff.mp hold)
  next => exact Or.inr (Table.lookup_sweep_iff.mp hentry)

theorem cacheGet_eq_ok
    {cache : Cache} {now : Instant} {wall : ℤ} {key : Digest}
    {context : AuthContext}
    (hhit : (cacheGet cache now wall key).2 = some (.ok context)) :
    ∃ deadline, cache.lookup key = some (.valid context, deadline) ∧
      now < deadline ∧ isExpired wall context.expiresAt = false := by
  unfold cacheGet at hhit
  split at hhit
  · simp at hhit
  · next value deadline hlookup =>
      split at hhit
      · simp at hhit
      · next hlive =>
          split at hhit
          · next found =>
              split at hhit
              · simp at hhit
              · next hfresh =>
                  simp only [Option.some.injEq, VerifyResult.ok.injEq] at hhit
                  subst hhit
                  exact ⟨deadline, hlookup, not_le.mp hlive, by simpa using hfresh⟩
          · simp at hhit

end Verifier

end RuprogressMcp
