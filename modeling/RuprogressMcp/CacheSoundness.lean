import RuprogressMcp.CachePurge

/-!
# Soundness and bounds of the introspection cache

Every accepted verification rests on an active introspection of the same
token whose expiry was checked: against the clock at the moment of the return
when the context comes from the cache, against the clock at the moment of the
answer otherwise.  A cached context was stored less than the configured time
ago.  The cache stays within its capacity, is not touched by a failed
introspection, never loses a live entry to another token's result, and stays
empty when it is disabled.
-/

namespace RuprogressMcp

namespace Verifier

section Soundness

variable {config : Config} (run : Run config)

/-- In step `n` call `i` returns. -/
structure ReturnsAt (n i : ℕ) (token : String) (result : VerifyResult) :
    Prop where
  polled : ∃ choice, run.label n = .poll i choice
  call : ∃ task, (run.state n).calls i = some (.verify token (.running task))
  returned : (run.state (n + 1)).calls i =
    some (.verify token (.finished (some result)))

/-- In step `n` call `i` is in `cache_put`, past the choice of a lifetime. -/
structure PutsAt (n i : ℕ) (token : String) (result : VerifyResult)
    (lifetime : Duration) : Prop where
  polled : ∃ choice, run.label n = .poll i choice
  call : (run.state n).calls i =
    some (.verify token (.running (.put result lifetime)))

/-- In step `n` the introspection request of call `i` fails. -/
structure FailsAt (n i : ℕ) (token : String) (error : ClientError) : Prop where
  polled : ∃ choice, run.label n = .poll i choice ∧
    choice.introspection = .error error
  call : (run.state n).calls i = some (.verify token (.running .await))

/-- An active answer whose expiry lies beyond the skew. -/
structure Vouches (introspection : Introspection) (wall : ℤ) : Prop where
  active : introspection.active = true
  unexpired : ∀ exp, introspection.exp = some exp → wall + clockSkewSecs < exp

/-- Call `i` was answered at step `a`, and this is the context it gave. -/
structure Grounds (a i : ℕ) (token : String) (context : AuthContext)
    (introspection : Introspection) : Prop where
  answered : AnswersAt run a i token introspection
  context : contextFrom (run.state a).wall introspection token = .ok context

/-- No two tokens that are verified share a digest. -/
def CollisionFree : Prop :=
  ∀ m n i j token other earlier later,
    (run.state m).calls i = some (.verify token earlier) →
    (run.state n).calls j = some (.verify other later) →
    config.digest other = config.digest token → other = token

/-- The expiry of every answer is an `i64`. -/
def ExpFits : Prop :=
  ∀ a i token introspection exp, AnswersAt run a i token introspection →
    introspection.exp = some exp → exp ≤ i64Max

structure CacheSound : Prop where
  accepted : ∀ n i token context, ReturnsAt run n i token (.ok context) →
    (∃ a introspection, a ≤ n ∧
        Grounds run a i token context introspection ∧
        Vouches introspection (run.state a).wall) ∨
      ∃ a j w introspection, a < w ∧ w < n ∧
        Grounds run a j token context introspection ∧
        StoresAt run w j token context ∧
        Vouches introspection (run.state n).wall ∧
        (run.state n).now < (run.state w).now + config.ttl
  failed : ∀ n i token error, FailsAt run n i token error →
    (run.state (n + 1)).cache = (run.state n).cache ∧
      (run.state (n + 1)).calls i =
        some (.verify token (.finished (some (.error (introspectError error)))))
  bounded : ∀ n, (run.state n).cache.len ≤ cacheCapacity
  undisturbed : ∀ n i token result lifetime key entry,
    PutsAt run n i token result lifetime → key ≠ config.digest token →
    (run.state n).cache.lookup key = some entry →
    (run.state n).now < entry.2 →
    (run.state (n + 1)).cache.lookup key = some entry
  disabled : config.ttl = 0 → ∀ n, (run.state n).cache = ∅

variable {run}

/-! ## One poll -/

theorem verify_poll
    {n i : ℕ} {token : String} {task : VerifyTask} {choice : Choice}
    (hlabel : run.label n = .poll i choice)
    (hcall : (run.state n).calls i = some (.verify token (.running task))) :
    (run.state (n + 1)).cache = (task.step config (run.state n).now
        (run.state n).wall choice (run.state n).cache token).1 ∧
      (run.state (n + 1)).calls i =
        some (.verify token (task.step config (run.state n).now
          (run.state n).wall choice (run.state n).cache token).2) := by
  have hnext := run.step n
  rw [hlabel] at hnext
  simp only [State.next, hcall, Option.bind_some, Call.step,
    Option.some.injEq] at hnext
  rw [← hnext]
  exact ⟨rfl, State.setCall_calls_self ..⟩

theorem PutsAt.cache_eq
    {n i : ℕ} {token : String} {result : VerifyResult} {lifetime : Duration}
    (hputs : PutsAt run n i token result lifetime) :
    (run.state (n + 1)).cache = cachePut (run.state n).cache
      (run.state n).now (config.digest token) result lifetime := by
  obtain ⟨⟨choice, hlabel⟩, hcall⟩ := hputs
  exact (verify_poll hlabel hcall).1

theorem lookup_cachePut_of_ne
    {cache : Cache} {now : Instant} {key other : Digest}
    {result : VerifyResult} {lifetime : Duration}
    {entry : CacheValue × Instant} (hother : other ≠ key)
    (hlookup : cache.lookup other = some entry) (hlive : now < entry.2) :
    (cachePut cache now key result lifetime).lookup other = some entry := by
  have hswept : (cache.sweep now).lookup other = some entry :=
    Table.lookup_sweep_iff.mpr ⟨hlookup, hlive⟩
  unfold cachePut
  split
  · rw [AList.lookup_insert_ne hother, hswept]
  · exact hswept

/-! ## The size of the cache -/

theorem len_cacheGet_le
    (cache : Cache) (now : Instant) (wall : ℤ) (key : Digest) :
    (cacheGet cache now wall key).1.len ≤ cache.len := by
  unfold cacheGet
  split
  · exact le_refl _
  split
  · exact Table.len_erase_le key cache
  split
  · split
    · exact Table.len_erase_le key cache
    · exact le_refl _
  · exact le_refl _

theorem len_cachePut_le
    {cache : Cache} (now : Instant) (key : Digest) (result : VerifyResult)
    (lifetime : Duration) (hlen : cache.len ≤ cacheCapacity) :
    (cachePut cache now key result lifetime).len ≤ cacheCapacity := by
  have hswept : (cache.sweep now).len ≤ cacheCapacity :=
    (Table.len_retain_le _ cache).trans hlen
  unfold cachePut
  split
  next hroom =>
    rw [hasRoom, Bool.or_eq_true, decide_eq_true_eq,
      decide_eq_true_eq] at hroom
    rcases hroom with hfree | hpresent
    · exact (Table.len_insert_le key _ _).trans hfree
    · exact (Table.len_insert_of_mem hpresent _).trans hswept
  next => exact hswept

theorem cache_bounded (run : Run config) (n : ℕ) :
    (run.state n).cache.len ≤ cacheCapacity := by
  apply run.invariant (fun s => s.cache.len ≤ cacheCapacity)
  · exact Nat.zero_le _
  · intro s label s' hlen hnext
    rcases cache_next hnext with hsame | ⟨i, choice, -, hstep⟩
    · rw [hsame]
      exact hlen
    · cases hstep with
      | unchanged hcache => exact hcache ▸ hlen
      | get token _ hcache =>
          rw [hcache]
          exact (len_cacheGet_le _ _ _ _).trans hlen
      | put token result lifetime _ hcache =>
          rw [hcache]
          exact len_cachePut_le _ _ _ _ hlen
      | purge token _ hcache =>
          rw [hcache]
          exact (Table.len_erase_le _ _).trans hlen

/-! ## A disabled cache -/

/-- A verification without a cache is sending or waiting. -/
structure Bypassed (s : State) : Prop where
  cache : s.cache = ∅
  calls : ∀ i token task, s.calls i = some (.verify token (.running task)) →
    task = .send ∨ task = .await

theorem Bypassed.step_result
    {now : Instant} {wall : ℤ} {choice : Choice} {cache : Cache}
    {token : String} {task after : VerifyTask} (hdisabled : config.ttl = 0)
    (htask : task = .send ∨ task = .await)
    (hafter : (task.step config now wall choice cache token).2 =
      .running after) : after = .send ∨ after = .await := by
  rcases htask with rfl | rfl
  · simp only [VerifyTask.step, Phase.running.injEq] at hafter
    exact Or.inr hafter.symm
  · simp only [VerifyTask.step, hdisabled, if_true] at hafter
    split at hafter <;> simp at hafter

theorem Bypassed.next
    {s s' : State} {label : Label} (hdisabled : config.ttl = 0)
    (hbypassed : Bypassed s) (hnext : s.next config label = some s') :
    Bypassed s' := by
  constructor
  · rcases cache_next hnext with hsame | ⟨i, choice, -, hstep⟩
    · rw [hsame, hbypassed.cache]
    · cases hstep with
      | unchanged hcache => rw [hcache, hbypassed.cache]
      | get token hcall _ =>
          rcases hbypassed.calls i token _ hcall with hsend | hawait
          · cases hsend
          · cases hawait
      | put token result lifetime hcall _ =>
          rcases hbypassed.calls i token _ hcall with hsend | hawait
          · cases hsend
          · cases hawait
      | purge token _ hcache =>
          rw [hcache, hbypassed.cache]
          rfl
  · intro i token task hcall
    cases verifyStep_of_next hnext hcall with
    | kept hold => exact hbypassed.calls i token task hold
    | started hlabel hphase =>
        simp only [VerifyTask.start, hdisabled, if_true,
          Phase.running.injEq] at hphase
        exact Or.inl hphase
    | polled choice before hlabel hbefore hphase =>
        exact Bypassed.step_result hdisabled
          (hbypassed.calls i token before hbefore) hphase.symm
    | cancelled hbefore hphase => simp at hphase

theorem cache_disabled (run : Run config) (hdisabled : config.ttl = 0) (n : ℕ) :
    (run.state n).cache = ∅ := by
  have hbypassed := run.invariant Bypassed
    ⟨rfl, fun i token task hcall => by simp [State.initial] at hcall⟩
    (fun _ _ _ hgood hnext => hgood.next hdisabled hnext) n
  exact hbypassed.cache

/-! ## Where a cached context comes from -/

theorem cacheTtl_le
    {ttl lifetime : Duration} {wall : ℤ} {introspection : Introspection}
    {context : AuthContext}
    (hlifetime : cacheTtl ttl wall introspection (.ok context) =
      some lifetime) : lifetime ≤ ttl := by
  cases hexp : introspection.exp with
  | none =>
      simp only [cacheTtl, hexp] at hlifetime
      split at hlifetime
      · simp at hlifetime
      · cases hlifetime
        exact le_refl _
  | some exp =>
      simp only [cacheTtl, hexp] at hlifetime
      split at hlifetime
      · simp at hlifetime
      · split at hlifetime
        · simp at hlifetime
        · cases hlifetime
          exact min_le_left _ _

/-- A context is never stored for longer than the configured time. -/
theorem put_lifetime_le
    {n i : ℕ} {token : String} {context : AuthContext} {lifetime : Duration}
    (hcall : (run.state n).calls i =
      some (.verify token (.running (.put (.ok context) lifetime)))) :
    lifetime ≤ config.ttl := by
  induction n with
  | zero => simp [run.start, State.initial] at hcall
  | succ n ih =>
      cases verifyStep_of_next (run.step n) hcall with
      | kept hold => exact ih hold
      | started hlabel hphase =>
          unfold VerifyTask.start at hphase
          split at hphase <;> simp at hphase
      | cancelled hbefore hphase => simp at hphase
      | polled choice task hlabel hbefore hphase =>
          cases task with
          | get | await =>
              simp only [VerifyTask.step] at hphase
              repeat' split at hphase
              all_goals simp at hphase
          | send | put => simp [VerifyTask.step] at hphase
          | ttl introspection result =>
              simp only [VerifyTask.step] at hphase
              split at hphase
              · simp at hphase
              · next hlifetime =>
                  cases hphase
                  exact cacheTtl_le hlifetime

theorem expiresAfter_le (now : Instant) (ttl : Duration) :
    expiresAfter now ttl ≤ now + ttl := by
  unfold expiresAfter
  split
  · exact le_refl _
  · exact Nat.le_add_right _ _

/-- A cached context was stored under its key, with a deadline within the
configured time. -/
theorem stored_of_cached
    {n : ℕ} {key : Digest} {context : AuthContext} {deadline : Instant}
    (hcached : (run.state n).cache.lookup key =
      some (.valid context, deadline)) :
    ∃ w j token, w < n ∧ config.digest token = key ∧
      StoresAt run w j token context ∧
      deadline ≤ (run.state w).now + config.ttl := by
  induction n with
  | zero => simp [run.start, State.initial] at hcached
  | succ n ih =>
      have hkept (hold : (run.state n).cache.lookup key =
          some (.valid context, deadline)) :
          ∃ w j token, w < n + 1 ∧ config.digest token = key ∧
            StoresAt run w j token context ∧
            deadline ≤ (run.state w).now + config.ttl := by
        obtain ⟨w, j, token, hwn, hrest⟩ := ih hold
        exact ⟨w, j, token, by omega, hrest⟩
      rcases cache_next (run.step n) with hsame | ⟨i, choice, hlabel, hstep⟩
      · rw [hsame] at hcached
        exact hkept hcached
      · cases hstep with
        | unchanged hcache =>
            rw [hcache] at hcached
            exact hkept hcached
        | get token hcall hcache =>
            rw [hcache] at hcached
            exact hkept (lookup_cacheGet hcached)
        | purge token hcall hcache =>
            rw [hcache] at hcached
            exact hkept (Table.lookup_erase_iff.mp hcached).2
        | put token result lifetime hcall hcache =>
            rw [hcache] at hcached
            rcases lookup_cachePut hcached with
              ⟨hkey, hvalue, hroom⟩ | ⟨hold, _⟩
            · cases result with
              | error error => simp [cacheValue] at hvalue
              | ok stored =>
                  simp only [cacheValue, Prod.mk.injEq,
                    CacheValue.valid.injEq] at hvalue
                  obtain ⟨rfl, rfl⟩ := hvalue
                  refine ⟨n, i, token, by omega, hkey.symm,
                    ⟨⟨choice, hlabel⟩, ⟨lifetime, hcall⟩, hroom⟩, ?_⟩
                  exact (expiresAfter_le _ _).trans
                    (Nat.add_le_add_left (put_lifetime_le hcall) _)
            · exact hkept hold

/-! ## Accepted verifications -/

theorem lt_of_not_expired
    {wall exp : ℤ} (hfits : exp ≤ i64Max)
    (hfresh : isExpired wall (some exp) = false) :
    wall + clockSkewSecs < exp := by
  simp only [isExpired, decide_eq_false_iff_not, not_le] at hfresh
  by_contra hle
  have hbelow : wall + clockSkewSecs ≤ i64Max ∨ i64Max < wall + clockSkewSecs :=
    le_or_gt _ _
  unfold saturate at hfresh
  omega

theorem contextFrom_eq_ok
    {wall : ℤ} {introspection : Introspection} {token : String}
    {context : AuthContext}
    (hcontext : contextFrom wall introspection token = .ok context) :
    introspection.active = true ∧
      isExpired wall introspection.exp = false ∧
      context.expiresAt = introspection.exp := by
  unfold contextFrom at hcontext
  split at hcontext
  · simp at hcontext
  next hactive =>
    split at hcontext
    · simp at hcontext
    next hfresh =>
      cases hcontext
      exact ⟨by simpa using hactive, by simpa using hfresh, rfl⟩

theorem Grounds.vouches
    {a i : ℕ} {token : String} {context : AuthContext}
    {introspection : Introspection} {wall : ℤ} (hexp : ExpFits run)
    (hgrounds : Grounds run a i token context introspection)
    (hfresh : isExpired wall context.expiresAt = false) :
    Vouches introspection wall := by
  obtain ⟨hactive, -, hexpires⟩ := contextFrom_eq_ok hgrounds.context
  refine ⟨hactive, ?_⟩
  intro exp hsome
  rw [hexpires, hsome] at hfresh
  exact lt_of_not_expired
    (hexp a i token introspection exp hgrounds.answered hsome) hfresh

/-- A verification that is past its answer has grounds for its result. -/
theorem grounds_of_introspected
    {n i : ℕ} {token : String} {context : AuthContext}
    (hintrospected : Introspected run n i token (.ok context)) :
    ∃ a introspection, a < n ∧ Grounds run a i token context introspection := by
  obtain ⟨q, a, introspection, -, han, -, hanswers, hresult⟩ := hintrospected
  exact ⟨a, introspection, han, hanswers, hresult.symm⟩

theorem ReturnsAt.cases
    {n i : ℕ} {token : String} {context : AuthContext}
    (hreturns : ReturnsAt run n i token (.ok context)) :
    HitsAt run n i token context ∨
      ∃ a introspection, a ≤ n ∧
        Grounds run a i token context introspection := by
  obtain ⟨⟨choice, hlabel⟩, ⟨task, hcall⟩, hreturned⟩ := hreturns
  have hhistory := verify_history hcall
  rw [(verify_poll hlabel hcall).2] at hreturned
  simp only [Option.some.injEq, Call.verify.injEq, true_and] at hreturned
  cases task with
  | get =>
      simp only [VerifyTask.step] at hreturned
      split at hreturned
      next cached hcached =>
        simp only [Phase.finished.injEq, Option.some.injEq] at hreturned
        subst hreturned
        exact Or.inl ⟨⟨choice, hlabel⟩, hcall, hcached⟩
      next => simp at hreturned
  | send => simp [VerifyTask.step] at hreturned
  | await =>
      simp only [VerifyTask.step] at hreturned
      split at hreturned
      next => simp at hreturned
      next introspection hanswer =>
        split at hreturned
        next =>
          simp only [Phase.finished.injEq, Option.some.injEq] at hreturned
          exact Or.inr ⟨n, introspection, le_refl n,
            ⟨⟨choice, hlabel, hanswer⟩, hcall⟩, hreturned⟩
        next => simp at hreturned
  | ttl introspection result =>
      simp only [VerifyTask.step] at hreturned
      split at hreturned
      next =>
        simp only [Phase.finished.injEq, Option.some.injEq] at hreturned
        subst hreturned
        obtain ⟨a, found, han, hgrounds⟩ := grounds_of_introspected hhistory
        exact Or.inr ⟨a, found, le_of_lt han, hgrounds⟩
      next => simp at hreturned
  | put result lifetime =>
      simp only [VerifyTask.step, Phase.finished.injEq,
        Option.some.injEq] at hreturned
      subst hreturned
      obtain ⟨a, found, han, hgrounds⟩ := grounds_of_introspected hhistory
      exact Or.inr ⟨a, found, le_of_lt han, hgrounds⟩

/-- A hit is served from the entry that a verification of the same token stored,
on the grounds of this verification. -/
theorem grounds_of_hit
    {n i : ℕ} {token : String} {context : AuthContext}
    (hcollision : CollisionFree run) (hhits : HitsAt run n i token context) :
    ∃ a j w introspection, a < w ∧ w < n ∧
      Grounds run a j token context introspection ∧
      StoresAt run w j token context ∧
      (run.state n).now < (run.state w).now + config.ttl := by
  obtain ⟨deadline, hcached, hlive, -⟩ := cacheGet_eq_ok hhits.hit
  obtain ⟨w, j, other, hwn, hdigest, hstores, hdeadline⟩ :=
    stored_of_cached hcached
  obtain ⟨lifetime, hcall⟩ := hstores.call
  have hother := hcollision n w i j token other _ _ hhits.call hcall hdigest
  subst hother
  obtain ⟨a, introspection, haw, hgrounds⟩ :=
    grounds_of_introspected (verify_history hcall)
  exact ⟨a, j, w, introspection, haw, hwn, hgrounds, hstores,
    lt_of_lt_of_le hlive hdeadline⟩

theorem accepted_of_hit
    {n i : ℕ} {token : String} {context : AuthContext} (hexp : ExpFits run)
    (hcollision : CollisionFree run) (hhits : HitsAt run n i token context) :
    ∃ a j w introspection, a < w ∧ w < n ∧
      Grounds run a j token context introspection ∧
      StoresAt run w j token context ∧
      Vouches introspection (run.state n).wall ∧
      (run.state n).now < (run.state w).now + config.ttl := by
  obtain ⟨_, -, -, hfresh⟩ := cacheGet_eq_ok hhits.hit
  obtain ⟨a, j, w, introspection, haw, hwn, hgrounds, hstores, hlive⟩ :=
    grounds_of_hit hcollision hhits
  exact ⟨a, j, w, introspection, haw, hwn, hgrounds, hstores,
    hgrounds.vouches hexp hfresh, hlive⟩

/-- The introspection cache is sound and bounded in every run. -/
theorem cache_sound
    (run : Run config) (hcollision : CollisionFree run)
    (hexp : ExpFits run) : CacheSound run where
  accepted := by
    intro n i token context hreturns
    rcases hreturns.cases with hhits | ⟨a, introspection, han, hgrounds⟩
    · exact Or.inr (accepted_of_hit hexp hcollision hhits)
    · left
      obtain ⟨-, hfresh, hexpires⟩ := contextFrom_eq_ok hgrounds.context
      exact ⟨a, introspection, han, hgrounds,
        hgrounds.vouches hexp (hexpires ▸ hfresh)⟩
  failed := by
    intro n i token error hfails
    obtain ⟨⟨choice, hlabel, herror⟩, hcall⟩ := hfails
    obtain ⟨hcache, hphase⟩ := verify_poll hlabel hcall
    rw [hcache, hphase]
    simp only [VerifyTask.step, herror, and_self]
  bounded := cache_bounded run
  undisturbed := by
    intro n i token result lifetime key entry hputs hother hlookup hlive
    rw [hputs.cache_eq]
    exact lookup_cachePut_of_ne hother hlookup hlive
  disabled := cache_disabled run

/-- A verification is of a token that a label started. -/
theorem verify_started
    {n i : ℕ} {token : String} {phase : Phase VerifyTask VerifyResult}
    (hcall : (run.state n).calls i = some (.verify token phase)) :
    ∃ m, run.label m = .verify i token := by
  induction n generalizing phase with
  | zero => simp [run.start, State.initial] at hcall
  | succ n ih =>
      cases verifyStep_of_next (run.step n) hcall with
      | kept hold => exact ih hold
      | started hlabel hphase => exact ⟨n, hlabel⟩
      | polled choice task hlabel hbefore hphase => exact ih hbefore
      | cancelled hbefore hphase => exact ih hbefore

end Soundness

namespace Sample

theorem run_label_all
    {labels : List Label}
    {henabled : Transition.Enabled (State.next config) State.initial labels =
      true} {ok : Label → Bool} (hall : labels.all ok = true)
    (hidle : ok (.elapse 0 0) = true) (n : ℕ) :
    ok ((run labels henabled).label n) = true := by
  rcases Nat.lt_or_ge n labels.length with hlt | hge
  · apply List.all_eq_true.mp hall
    simp [run, Transition.Run.ofLabels, List.getElem?_eq_getElem hlt]
  · have hlabel : (run labels henabled).label n = .elapse 0 0 :=
      Transition.Run.ofLabels_label_of_le hge
    rw [hlabel]
    exact hidle

def verifiesToken : Label → Bool
  | .verify _ other => other = token
  | _ => true

theorem collisionFree_of_verifiesToken
    {labels : List Label}
    {henabled : Transition.Enabled (State.next config) State.initial labels =
      true} (htoken : labels.all verifiesToken = true) :
    CollisionFree (run labels henabled) := by
  have hverified (n i : ℕ) (other : String)
      (phase : Phase VerifyTask VerifyResult)
      (hcall : ((run labels henabled).state n).calls i =
        some (.verify other phase)) : other = token := by
    obtain ⟨m, hlabel⟩ := verify_started hcall
    have hchecked : verifiesToken ((run labels henabled).label m) = true :=
      run_label_all htoken rfl m
    rw [hlabel] at hchecked
    simpa [verifiesToken] using hchecked
  intro m n i j first other earlier later hfirst hother _
  rw [hverified m i first earlier hfirst, hverified n j other later hother]

/-- Every answer of the label expires at this time. -/
def answersWith (exp : Option ℤ) : Label → Bool
  | .poll _ choice =>
      match choice.introspection with
      | .ok introspection => introspection.exp = exp
      | .error _ => true
  | _ => true

theorem exp_of_answersWith
    {labels : List Label}
    {henabled : Transition.Enabled (State.next config) State.initial labels =
      true} {exp : Option ℤ} (hanswers : labels.all (answersWith exp) = true)
    {a i : ℕ} {token : String} {introspection : Introspection}
    (hanswer : AnswersAt (run labels henabled) a i token introspection) :
    introspection.exp = exp := by
  obtain ⟨choice, hlabel, hchoice⟩ := hanswer.polled
  have hchecked : answersWith exp ((run labels henabled).label a) = true :=
    run_label_all hanswers rfl a
  rw [hlabel] at hchecked
  simpa [answersWith, hchoice] using hchecked

theorem expFits_of_answersWith
    {labels : List Label}
    {henabled : Transition.Enabled (State.next config) State.initial labels =
      true} {exp : ℤ} (hanswers : labels.all (answersWith (some exp)) = true)
    (hfits : exp ≤ i64Max) : ExpFits (run labels henabled) := by
  intro a i token introspection found hanswer hexp
  rw [exp_of_answersWith hanswers hanswer, Option.some.injEq] at hexp
  rwa [← hexp]

def expiring : Introspection := { introspection with exp := some 106 }

def expiringContext : AuthContext := { context with expiresAt := some 106 }

/-- A second ends between the check of the expiry and the return. -/
def endingSecond : List Label :=
  [.elapse 100900000000 100] ++ introspecting 0 ++
    [.poll 0 { introspection := .ok expiring },
      .elapse 200000000 1, .poll 0 {}]

theorem endingSecond_enabled :
    Transition.Enabled (State.next config) State.initial endingSecond =
      true := by
  decide +kernel

/-- The wall clock counts the whole seconds of the monotonic one. -/
def OneClock (run : Run config) : Prop :=
  ∀ n, (run.state n).wall = ((run.state n).now / seconds 1 : ℕ)

theorem endingSecond_oneClock :
    OneClock (run endingSecond endingSecond_enabled) := by
  have hshown : ∀ n < 8,
      (Transition.execute (State.next config) State.initial
        (endingSecond.take n)).wall =
      ((Transition.execute (State.next config) State.initial
        (endingSecond.take n)).now / seconds 1 : ℕ) := by
    decide +kernel
  intro n
  rcases Nat.lt_or_ge n 8 with hlt | hge
  · exact hshown n hlt
  · have hlength : endingSecond.length ≤ n :=
      le_trans (by decide : 7 ≤ 8) hge
    have htake : endingSecond.take n = endingSecond.take 7 :=
      List.take_of_length_le hlength
    simp only [run, Transition.Run.ofLabels, htake]
    exact hshown 7 (by decide)

theorem accepted_as_second_ends :
    ¬ ∀ run : Run config, OneClock run → CollisionFree run → ExpFits run →
      ∀ n i token context, ReturnsAt run n i token (.ok context) →
        ∃ a j introspection, a ≤ n ∧ AnswersAt run a j token introspection ∧
          Vouches introspection (run.state n).wall := by
  intro hclaim
  have hanswers : endingSecond.all (answersWith (some 106)) = true := by
    decide +kernel
  have hfacts :
      ((run endingSecond endingSecond_enabled).state 6).calls 0 =
        some (.verify token (.running (.ttl expiring
          (.ok expiringContext)))) ∧
      ((run endingSecond endingSecond_enabled).state 7).calls 0 =
        some (.verify token (.finished (some (.ok expiringContext)))) ∧
      ((run endingSecond endingSecond_enabled).state 6).wall = 101 := by
    decide +kernel
  obtain ⟨hcall, hreturned, hwall⟩ := hfacts
  have hfits : ExpFits (run endingSecond endingSecond_enabled) :=
    expFits_of_answersWith hanswers (by decide)
  obtain ⟨a, j, answer, -, hanswer, hvouches⟩ :=
    hclaim (run endingSecond endingSecond_enabled) endingSecond_oneClock
      (collisionFree_of_verifiesToken (by decide +kernel)) hfits 6 0 token _
      ⟨⟨{}, rfl⟩, ⟨_, hcall⟩, hreturned⟩
  have hlate := hvouches.unexpired 106 (exp_of_answersWith hanswers hanswer)
  rw [hwall] at hlate
  exact absurd hlate (by decide)

/-- The second verification is answered from the cache, with the expiry of the
answer. -/
def servedTwice : List Label :=
  introspecting 0 ++
    [.poll 0 { introspection := .ok expiring },
      .poll 0 {}, .poll 0 {}, .elapse 1000000000 1, .verify 1 token,
      .poll 1 {}]

theorem servedTwice_enabled :
    Transition.Enabled (State.next config) State.initial servedTwice =
      true := by
  decide +kernel

theorem servedTwice_sound :
    ReturnsAt (run servedTwice servedTwice_enabled) 8 1 token
        (.ok expiringContext) ∧
      CacheSound (run servedTwice servedTwice_enabled) := by
  have hanswers : servedTwice.all (answersWith (some 106)) = true := by
    decide +kernel
  have hfacts :
      ((run servedTwice servedTwice_enabled).state 8).calls 1 =
        some (.verify token (.running .get)) ∧
      ((run servedTwice servedTwice_enabled).state 9).calls 1 =
        some (.verify token (.finished (some (.ok expiringContext)))) := by
    decide +kernel
  refine ⟨⟨⟨{}, rfl⟩, ⟨_, hfacts.1⟩, hfacts.2⟩, ?_⟩
  apply cache_sound
  · exact collisionFree_of_verifiesToken (by decide +kernel)
  · exact expFits_of_answersWith hanswers (by decide)

end Sample

end Verifier

end RuprogressMcp
