import RuprogressMcp.TokenVerifier

/-!
# Whether a purge of the introspection cache is final

A verification that finds nothing in the cache introspects the token and
stores the result later.  A purge in between is undone when the stored result
was obtained before it.  The history of a verification says when its request
was sent and what it was answered; a cached context is then traced to the
introspection that produced it.
-/

namespace RuprogressMcp

namespace Verifier

section Purge

variable {config : Config} (run : Run config)

structure StartsAt (n i : ℕ) (token : String) : Prop where
  label : run.label n = .verify i token

/-- In step `n` call `i` starts its introspection request. -/
structure SendsAt (n i : ℕ) (token : String) : Prop where
  polled : ∃ choice, run.label n = .poll i choice
  call : (run.state n).calls i = some (.verify token (.running .send))

/-- In step `n` the introspection request of call `i` is answered. -/
structure AnswersAt (n i : ℕ) (token : String)
    (introspection : Introspection) : Prop where
  polled : ∃ choice, run.label n = .poll i choice ∧
    choice.introspection = .ok introspection
  call : (run.state n).calls i = some (.verify token (.running .await))

/-- In step `n` call `i` returns `Ok` from the cache. -/
structure HitsAt (n i : ℕ) (token : String) (context : AuthContext) :
    Prop where
  polled : ∃ choice, run.label n = .poll i choice
  call : (run.state n).calls i = some (.verify token (.running .get))
  hit : (cacheGet (run.state n).cache (run.state n).now (run.state n).wall
    (config.digest token)).2 = some (.ok context)

/-- In step `n` call `i` stores an accepted context. -/
structure StoresAt (n i : ℕ) (token : String) (context : AuthContext) :
    Prop where
  polled : ∃ choice, run.label n = .poll i choice
  call : ∃ lifetime, (run.state n).calls i =
    some (.verify token (.running (.put (.ok context) lifetime)))
  room : hasRoom (run.state n).cache (run.state n).now
    (config.digest token) = true

structure PurgesAt (n j : ℕ) (token : String) : Prop where
  polled : ∃ choice, run.label n = .poll j choice
  call : (run.state n).calls j = some (.revoke token (.running .purge))

/-! ## The history of a verification -/

/-- An introspection of the token was sent and answered before step `n`, and
the answer gave this result. -/
def Introspected (n i : ℕ) (token : String) (result : VerifyResult) : Prop :=
  ∃ q a introspection, q < a ∧ a < n ∧ SendsAt run q i token ∧
    AnswersAt run a i token introspection ∧
    result = contextFrom (run.state a).wall introspection token

def History (n i : ℕ) (token : String) :
    Phase VerifyTask VerifyResult → Prop
  | .running .await => ∃ q < n, SendsAt run q i token
  | .running (.ttl _ result) => Introspected run n i token result
  | .running (.put result _) => Introspected run n i token result
  | _ => True

variable {run}

theorem Introspected.later
    {n i : ℕ} {token : String} {result : VerifyResult}
    (hintrospected : Introspected run n i token result) :
    Introspected run (n + 1) i token result := by
  obtain ⟨q, a, introspection, hqa, han, hrest⟩ := hintrospected
  exact ⟨q, a, introspection, hqa, by omega, hrest⟩

theorem History.later
    {n i : ℕ} {token : String} {phase : Phase VerifyTask VerifyResult}
    (hhistory : History run n i token phase) :
    History run (n + 1) i token phase := by
  cases phase with
  | running task =>
      cases task with
      | get => trivial
      | send => trivial
      | await =>
          obtain ⟨q, hq, hsends⟩ := hhistory
          exact ⟨q, by omega, hsends⟩
      | ttl introspection result => exact Introspected.later hhistory
      | put result lifetime => exact Introspected.later hhistory
  | finished result => trivial

theorem History.step
    {n i : ℕ} {token : String} {task : VerifyTask} {choice : Choice}
    (hlabel : run.label n = .poll i choice)
    (hcall : (run.state n).calls i = some (.verify token (.running task)))
    (hhistory : History run n i token (.running task)) :
    History run (n + 1) i token (task.step config (run.state n).now
      (run.state n).wall choice (run.state n).cache token).2 := by
  cases task with
  | get =>
      simp only [VerifyTask.step]
      split <;> trivial
  | send => exact ⟨n, by omega, ⟨choice, hlabel⟩, hcall⟩
  | await =>
      obtain ⟨q, hq, hsends⟩ := hhistory
      simp only [VerifyTask.step]
      split
      · trivial
      · next introspection hanswer =>
          split
          · trivial
          · exact ⟨q, n, introspection, hq, by omega, hsends,
              ⟨⟨choice, hlabel, hanswer⟩, hcall⟩, rfl⟩
  | ttl introspection result =>
      simp only [VerifyTask.step]
      split
      · trivial
      · exact Introspected.later hhistory
  | put result lifetime => trivial

theorem verify_history
    {n i : ℕ} {token : String} {phase : Phase VerifyTask VerifyResult}
    (hcall : (run.state n).calls i = some (.verify token phase)) :
    History run n i token phase := by
  induction n generalizing phase with
  | zero => simp [run.start, State.initial] at hcall
  | succ n ih =>
      cases verifyStep_of_next (run.step n) hcall with
      | kept hold => exact (ih hold).later
      | started hlabel hphase =>
          rw [hphase]
          unfold VerifyTask.start
          split <;> trivial
      | polled choice task hlabel hbefore hphase =>
          rw [hphase]
          exact (ih hbefore).step hlabel hbefore
      | cancelled hbefore hphase =>
          rw [hphase]
          trivial

theorem active_of_contextFrom
    {wall : ℤ} {introspection : Introspection} {token : String}
    {context : AuthContext}
    (hcontext : VerifyResult.ok context =
      contextFrom wall introspection token) : introspection.active = true := by
  unfold contextFrom at hcontext
  split at hcontext
  · simp at hcontext
  · next hactive => simpa using hactive

/-! ## After the purge -/

/-- An introspection of the token that was sent after step `p` was answered
active before step `n`. -/
def Confirmed (run : Run config) (p n : ℕ) (token : String) : Prop :=
  ∃ i q a introspection, p < q ∧ q < a ∧ a < n ∧ SendsAt run q i token ∧
    AnswersAt run a i token introspection ∧ introspection.active = true

theorem Confirmed.later
    {p n : ℕ} {token : String} (hconfirmed : Confirmed run p n token) :
    Confirmed run p (n + 1) token := by
  obtain ⟨i, q, a, introspection, hpq, hqa, han, hrest⟩ := hconfirmed
  exact ⟨i, q, a, introspection, hpq, hqa, by omega, hrest⟩

theorem PurgesAt.removed
    {p j : ℕ} {token : String} (hpurges : PurgesAt run p j token) :
    (run.state (p + 1)).cache.lookup (config.digest token) = none := by
  obtain ⟨⟨choice, hlabel⟩, hcall⟩ := hpurges
  have hnext := run.step p
  rw [hlabel] at hnext
  simp only [State.next, hcall, Option.bind_some, Call.step, RevokeTask.step,
    Option.some.injEq] at hnext
  rw [← hnext]
  exact AList.lookup_erase (config.digest token) (run.state p).cache

/-- The token shares its digest with no other token that is verified. -/
def NoCollision (run : Run config) (token : String) : Prop :=
  ∀ n i other phase, (run.state n).calls i = some (.verify other phase) →
    config.digest other = config.digest token → other = token

/-- No introspection of the token that was sent before step `p` has its
accepted result stored after it. -/
def NoStaleStore (run : Run config) (p : ℕ) (token : String) : Prop :=
  ∀ i q w context, q < p → p < w → SendsAt run q i token →
    ¬ StoresAt run w i token context

theorem confirmed_of_store
    {p j w i : ℕ} {token : String} {context : AuthContext}
    (hpurges : PurgesAt run p j token) (hstale : NoStaleStore run p token)
    (hpw : p < w) (hstores : StoresAt run w i token context) :
    Confirmed run p (w + 1) token := by
  obtain ⟨lifetime, hcall⟩ := hstores.call
  obtain ⟨q, a, introspection, hqa, haw, hsends, hanswers, hresult⟩ :=
    verify_history hcall
  have hpq : p < q := by
    rcases lt_trichotomy q p with hlt | heq | hlt
    · exact absurd hstores (hstale i q w context hlt hpw hsends)
    · subst heq
      obtain ⟨choice, hsend⟩ := hsends.polled
      obtain ⟨choice', hpurge⟩ := hpurges.polled
      rw [hsend, Label.poll.injEq] at hpurge
      have hcalls := hpurges.call
      rw [← hpurge.1, hsends.call] at hcalls
      simp at hcalls
    · exact hlt
  exact ⟨i, q, a, introspection, hpq, hqa, by omega, hsends, hanswers,
    active_of_contextFrom hresult⟩

theorem confirmed_of_cached
    {p j n : ℕ} {token : String} {context : AuthContext} {deadline : Instant}
    (hpurges : PurgesAt run p j token) (hcollision : NoCollision run token)
    (hstale : NoStaleStore run p token) (hpn : p < n)
    (hcached : (run.state n).cache.lookup (config.digest token) =
      some (.valid context, deadline)) : Confirmed run p n token := by
  induction n, hpn using Nat.le_induction with
  | base =>
      rw [hpurges.removed] at hcached
      simp at hcached
  | succ n hpn ih =>
      have hkept (hold : (run.state n).cache.lookup (config.digest token) =
          some (.valid context, deadline)) :
          Confirmed run p (n + 1) token :=
        (ih hold).later
      rcases cache_next (run.step n) with hsame | ⟨i, choice, hlabel, hstep⟩
      · rw [hsame] at hcached
        exact hkept hcached
      · cases hstep with
        | unchanged hcache =>
            rw [hcache] at hcached
            exact hkept hcached
        | get other hcall hcache =>
            rw [hcache] at hcached
            exact hkept (lookup_cacheGet hcached)
        | purge other hcall hcache =>
            rw [hcache] at hcached
            exact hkept (Table.lookup_erase_iff.mp hcached).2
        | put other result lifetime hcall hcache =>
            rw [hcache] at hcached
            rcases lookup_cachePut hcached with
              ⟨hkey, hvalue, hroom⟩ | ⟨hold, _⟩
            · have hother := hcollision n i other _ hcall hkey.symm
              subst hother
              cases result with
              | error error => simp [cacheValue] at hvalue
              | ok stored =>
                  exact confirmed_of_store hpurges hstale hpn
                    ⟨⟨choice, hlabel⟩, ⟨lifetime, hcall⟩, hroom⟩
            · exact hkept hold

theorem started_before
    {m n i : ℕ} {token : String} {call : Call}
    (hstarts : StartsAt run m i token)
    (hcall : (run.state n).calls i = some call) : m < n := by
  by_contra hle
  have hpresent : ∃ after, (run.state m).calls i = some after :=
    run.stable (fun _ => True) (fun s => ∃ after, s.calls i = some after)
      (fun _ => trivial)
      (fun _ _ _ _ hcalled hnext =>
        hcalled.elim fun _ hcall => call_next hnext hcall)
      (not_lt.mp hle) ⟨call, hcall⟩
  obtain ⟨after, hafter⟩ := hpresent
  have hnext := run.step m
  rw [hstarts.label] at hnext
  obtain ⟨hfree, _⟩ := spawn_eq_some hnext
  rw [hafter] at hfree
  simp at hfree

theorem purge_final
    {p j : ℕ} {token : String} (hpurges : PurgesAt run p j token)
    (hcollision : NoCollision run token)
    (hstale : NoStaleStore run p token) :
    ∀ m i n context, p < m → StartsAt run m i token →
      HitsAt run n i token context → Confirmed run p n token := by
  intro m i n context hpm hstarts hhits
  have hmn := started_before hstarts hhits.call
  obtain ⟨deadline, hcached, _⟩ := cacheGet_eq_ok hhits.hit
  exact confirmed_of_cached hpurges hcollision hstale (by omega) hcached

end Purge

/-! ## Two runs -/

namespace Sample

def token : String := "upstream-access"

def config : Config where
  ttl := seconds 60
  digest value :=
    if value = token then
      0xb27827b21937a65bc89ceb77d663b47ba16e925b3b628eabcaa790e0d88eacb5#256
    else 0

def introspection : Introspection where
  active := true
  scope := some "view_issues"
  username := some "alice"
  sub := none
  exp := none

def context : AuthContext where
  token := token
  subject := some "alice"
  scopes := {"view_issues"}
  expiresAt := none

/-- The answer arrives and is cached. -/
def answered (i : ℕ) : List Label :=
  [.poll i { introspection := .ok introspection }, .poll i {}, .poll i {}]

def revocation (i : ℕ) : List Label :=
  [.revoke i
      { isForm := true, bodyFits := true, token := some token
        credential := some ("client", "secret") },
    .poll i { revocation := .ok () }, .poll i {}]

/-- Call `i` finds nothing in the cache and sends its request. -/
def introspecting (i : ℕ) : List Label :=
  [.verify i token, .poll i {}, .poll i {}]

def run (labels : List Label)
    (henabled : Transition.Enabled (State.next config) State.initial labels =
      true) : Run config :=
  .ofLabels (State.next config) State.initial labels (.elapse 0 0)
    (fun s => by simp [State.next]) henabled

theorem run_poll_lt
    {labels : List Label}
    {henabled : Transition.Enabled (State.next config) State.initial labels =
      true} {n i : ℕ} {choice : Choice}
    (hlabel : (run labels henabled).label n = .poll i choice) :
    n < labels.length := by
  by_contra hnot
  have hidle : (run labels henabled).label n = .elapse 0 0 :=
    Transition.Run.ofLabels_label_of_le (not_lt.mp hnot)
  rw [hidle] at hlabel
  simp at hlabel

theorem noCollision (run : Run config) : NoCollision run token := by
  intro n i other phase _ hdigest
  by_contra hne
  simp [config, hne] at hdigest

/-- The call that a label polls, when it is at this task. -/
def polledAt (s : State) (task : VerifyTask → Bool) : Label → Option ℕ
  | .poll i _ =>
      match s.calls i with
      | some (.verify _ (.running present)) => if task present then some i else none
      | _ => none
  | _ => none

def isSend : VerifyTask → Bool
  | .send => true
  | _ => false

def isPut : VerifyTask → Bool
  | .put _ _ => true
  | _ => false

theorem SendsAt.polledAt
    {run : Run config} {n i : ℕ} (hsends : SendsAt run n i token) :
    polledAt (run.state n) isSend (run.label n) = some i := by
  obtain ⟨⟨choice, hlabel⟩, hcall⟩ := hsends
  rw [hlabel]
  simp [Sample.polledAt, hcall, isSend]

theorem StoresAt.polledAt
    {run : Run config} {n i : ℕ} {context : AuthContext}
    (hstores : StoresAt run n i token context) :
    polledAt (run.state n) isPut (run.label n) = some i := by
  obtain ⟨⟨choice, hlabel⟩, ⟨lifetime, hcall⟩, _⟩ := hstores
  rw [hlabel]
  simp [Sample.polledAt, hcall, isPut]

/-- Call 0 is waiting for its answer while call 1 purges the token. -/
def purgedInFlight : List Label :=
  introspecting 0 ++ revocation 1 ++ answered 0 ++ [.verify 2 token, .poll 2 {}]

theorem purgedInFlight_enabled :
    Transition.Enabled (State.next config) State.initial purgedInFlight =
      true := by
  decide +kernel

/-- The answer that was requested before the purge is cached after it and
served to a later verification. -/
theorem purge_undone_by_answer :
    ¬ ∀ (run : Run config) (p j : ℕ) (token : String),
      PurgesAt run p j token → NoCollision run token →
      ∀ m i n context, p < m → StartsAt run m i token →
        HitsAt run n i token context → Confirmed run p n token := by
  intro hclaim
  have hfacts :
      ((run purgedInFlight purgedInFlight_enabled).state 5).calls 1 =
        some (.revoke token (.running .purge)) ∧
      ((run purgedInFlight purgedInFlight_enabled).state 10).calls 2 =
        some (.verify token (.running .get)) ∧
      (cacheGet ((run purgedInFlight purgedInFlight_enabled).state 10).cache
        ((run purgedInFlight purgedInFlight_enabled).state 10).now
        ((run purgedInFlight purgedInFlight_enabled).state 10).wall
        (config.digest token)).2 = some (.ok context) ∧
      ∀ q < 11, 5 < q → polledAt
        ((run purgedInFlight purgedInFlight_enabled).state q) isSend
        ((run purgedInFlight purgedInFlight_enabled).label q) = none := by
    decide +kernel
  obtain ⟨hpurge, hget, hhit, hsends⟩ := hfacts
  obtain ⟨i, q, a, introspection, hpq, _, _, hsent, _⟩ :=
    hclaim (run purgedInFlight purgedInFlight_enabled) 5 1 token
      ⟨⟨{}, rfl⟩, hpurge⟩ (noCollision _) 9 2 10 context (by decide) ⟨rfl⟩
      ⟨⟨{}, rfl⟩, hget, hhit⟩
  obtain ⟨choice, hlabel⟩ := hsent.polled
  have hnone := hsends q (run_poll_lt hlabel) hpq
  rw [SendsAt.polledAt hsent] at hnone
  simp at hnone

/-- Nothing is in flight while the token is purged. -/
def purgedAtRest : List Label :=
  introspecting 0 ++ answered 0 ++ revocation 1 ++ introspecting 2 ++
    answered 2 ++ [.verify 3 token, .poll 3 {}]

theorem purgedAtRest_enabled :
    Transition.Enabled (State.next config) State.initial purgedAtRest =
      true := by
  decide +kernel

theorem purge_final_at_rest :
    HitsAt (run purgedAtRest purgedAtRest_enabled) 16 3 token context ∧
      Confirmed (run purgedAtRest purgedAtRest_enabled) 8 16 token := by
  have hfacts :
      ((run purgedAtRest purgedAtRest_enabled).state 8).calls 1 =
        some (.revoke token (.running .purge)) ∧
      ((run purgedAtRest purgedAtRest_enabled).state 16).calls 3 =
        some (.verify token (.running .get)) ∧
      (cacheGet ((run purgedAtRest purgedAtRest_enabled).state 16).cache
        ((run purgedAtRest purgedAtRest_enabled).state 16).now
        ((run purgedAtRest purgedAtRest_enabled).state 16).wall
        (config.digest token)).2 = some (.ok context) ∧
      ∀ w < 17, 8 < w → ∀ i ∈ polledAt
        ((run purgedAtRest purgedAtRest_enabled).state w) isPut
        ((run purgedAtRest purgedAtRest_enabled).label w), i = 2 := by
    decide +kernel
  obtain ⟨hpurge, hget, hhit, hputs⟩ := hfacts
  have hhits : HitsAt (run purgedAtRest purgedAtRest_enabled) 16 3 token
      context :=
    ⟨⟨{}, rfl⟩, hget, hhit⟩
  refine ⟨hhits, ?_⟩
  refine purge_final (j := 1) ⟨⟨{}, rfl⟩, hpurge⟩ (noCollision _) ?_ 15 3 16
    context (by decide) ⟨rfl⟩ hhits
  intro i q w stored hqp hpw hsends hstores
  obtain ⟨choice, hlabel⟩ := hstores.polled
  have hcall := hputs w (run_poll_lt hlabel) hpw i
    (StoresAt.polledAt hstores)
  subst hcall
  have hstarted : 9 < q :=
    started_before (⟨rfl⟩ : StartsAt (run purgedAtRest purgedAtRest_enabled)
      9 2 token) hsends.call
  omega

end Sample

end Verifier

end RuprogressMcp
