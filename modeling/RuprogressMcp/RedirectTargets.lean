import RuprogressMcp.ProxyWriters

/-!
# Where the flow handlers redirect to

A `Location` header is emitted by `authorize` and `auth_callback` only.  The
history of a request says how its present task was reached: a redirect of
`authorize` goes to Redmine's own endpoint or to a URI that phase A has
checked, and the target of `auth_callback` is the URI of a transaction that
such an `authorize` stored.
-/

namespace RuprogressMcp

/-- The location has the scheme, host, port and path of this URI. -/
def LeadsTo (env : Env) (uri : String) (location : Url) : Prop :=
  ∃ target, env.parseUrl uri = some target ∧ location.SameTarget target

def redmineAuthorize (env : Env) : String :=
  trimTrailingSlash env.redmineBase ++ "/oauth/authorize"

theorem redirectError_leadsTo
    {env : Env} {uri error description : String} {clientState : Option String}
    {location : Url}
    (hlocation : (redirectError env uri clientState error
      description).location = some location) : LeadsTo env uri location := by
  unfold redirectError at hlocation
  split at hlocation
  · simp [plain400, Response.location] at hlocation
  · next url hparse =>
      simp only [Response.location, Option.some.injEq] at hlocation
      subst hlocation
      exact ⟨url, hparse, env.form.appendPairs_sameTarget ..⟩

/-! ## One step of `authorize` -/

theorem phaseA_eq_ok
    {env : Env} {query : AuthorizeQuery} {registration : ClientRegistration}
    {uri : String}
    (hphase : AuthorizeTask.phaseA env query registration = .ok uri) :
    nonEmpty query.redirectUri = some uri ∧
      uri ∈ registration.redirectUris ∧
      env.redirects.permits env.parseUrl uri = true := by
  unfold AuthorizeTask.phaseA at hphase
  split at hphase
  · simp at hphase
  · next presented hpresented =>
      split at hphase
      · simp at hphase
      · next hregistered =>
          split at hphase
          · simp at hphase
          · next hpermitted =>
              simp only [Except.ok.injEq] at hphase
              subst hphase
              exact ⟨hpresented, not_not.mp hregistered, by simpa using hpermitted⟩

theorem phaseB_cases
    (env : Env) (query : AuthorizeQuery) (clientId uri : String) :
    (∃ challenge scopes, AuthorizeTask.phaseB env query clientId uri =
        .running (.create clientId uri challenge scopes)) ∨
      ∃ response, AuthorizeTask.phaseB env query clientId uri =
          .finished (some response) ∧
        ∀ location, response.location = some location →
          LeadsTo env uri location := by
  have hfail (error description : String) :
      ∃ response, (Phase.finished (some (redirectError env uri query.state
          error description)) : Phase AuthorizeTask) =
            .finished (some response) ∧
        ∀ location, response.location = some location →
          LeadsTo env uri location :=
    ⟨_, rfl, fun _ hlocation => redirectError_leadsTo hlocation⟩
  unfold AuthorizeTask.phaseB
  dsimp only
  split
  · exact Or.inr (hfail _ _)
  · split
    · exact Or.inr (hfail _ _)
    · split
      · exact Or.inr (hfail _ _)
      · split
        · exact Or.inl ⟨_, _, rfl⟩
        · split
          · exact Or.inl ⟨_, _, rfl⟩
          · exact Or.inr (hfail _ _)

theorem create_phase
    (env : Env) (now : Instant) (choice : Choice) (proxy : ProxyState)
    (query : AuthorizeQuery) (clientId uri challenge : String)
    (scopes : List String) :
    ∃ response, ((AuthorizeTask.create clientId uri challenge scopes).step env
        now choice proxy query).phase = .finished (some response) ∧
      ∀ location, response.location = some location →
        LeadsTo env (redmineAuthorize env) location ∨
          LeadsTo env uri location := by
  have hfail (error description : String) :
      ∃ response, (Phase.finished (some (redirectError env uri query.state
          error description)) : Phase AuthorizeTask) =
            .finished (some response) ∧
        ∀ location, response.location = some location →
          LeadsTo env (redmineAuthorize env) location ∨
            LeadsTo env uri location :=
    ⟨_, rfl, fun _ hlocation => Or.inr (redirectError_leadsTo hlocation)⟩
  unfold AuthorizeTask.step
  dsimp only
  split
  · exact hfail _ _
  · exact hfail _ _
  · dsimp only
    split
    · split
      · exact hfail _ _
      · next url hparse =>
          refine ⟨_, rfl, fun location hlocation => Or.inl ⟨url, hparse, ?_⟩⟩
          simp only [Response.location, Option.some.injEq] at hlocation
          subst hlocation
          exact env.form.appendPairs_sameTarget ..
    · exact hfail _ _

/-! ## The history of an `authorize` request -/

section History

variable {env : Env} (run : ProxyRun env)

/-- In step `k` request `i` looks up its client and reads its registration. -/
structure LooksUp (k i : ℕ) (query : AuthorizeQuery) (clientId : String)
    (registration : ClientRegistration) : Prop where
  polled : ∃ choice, run.label k = .poll i choice
  conn : (run.state k).conns i =
    some (.authorize query (.running (.lookup clientId)))
  client : nonEmpty query.clientId = some clientId
  registered : (run.state k).proxy.registry.get clientId = some registration

/-- The redirect URI of request `i` was registered for its client when step
`k` looked the client up, and the policy permits it. -/
structure Vetted (k i : ℕ) (query : AuthorizeQuery) (clientId uri : String) :
    Prop where
  presented : nonEmpty query.redirectUri = some uri
  registered : ∃ registration, LooksUp run k i query clientId registration ∧
    uri ∈ registration.redirectUris
  permitted : env.redirects.permits env.parseUrl uri = true

/-- How request `i` came to its present phase before step `n`. -/
def AuthorizeHistory (n i : ℕ) (query : AuthorizeQuery) :
    Phase AuthorizeTask → Prop
  | .running (.lookup clientId) => nonEmpty query.clientId = some clientId
  | .running (.touch clientId registration) =>
      ∃ k < n, LooksUp run k i query clientId registration
  | .running (.create clientId uri _ _) =>
      ∃ k < n, Vetted run k i query clientId uri
  | .finished response =>
      ∀ answer location, response = some answer →
        answer.location = some location →
        LeadsTo env (redmineAuthorize env) location ∨
          ∃ k < n, ∃ clientId uri, Vetted run k i query clientId uri ∧
            LeadsTo env uri location

variable {run}

theorem AuthorizeHistory.later
    {n i : ℕ} {query : AuthorizeQuery} {phase : Phase AuthorizeTask}
    (hhistory : AuthorizeHistory run n i query phase) :
    AuthorizeHistory run (n + 1) i query phase := by
  have hwiden {p : ℕ → Prop} (h : ∃ k < n, p k) : ∃ k < n + 1, p k := by
    obtain ⟨k, hk, hp⟩ := h
    exact ⟨k, by omega, hp⟩
  cases phase with
  | running task =>
      cases task with
      | lookup clientId => exact hhistory
      | touch clientId registration => exact hwiden hhistory
      | create clientId uri challenge scopes => exact hwiden hhistory
  | finished response =>
      intro answer location hresponse hlocation
      rcases hhistory answer location hresponse hlocation with hredmine | hvetted
      · exact Or.inl hredmine
      · exact Or.inr (hwiden hvetted)

theorem AuthorizeHistory.start
    (n i : ℕ) (query : AuthorizeQuery) :
    AuthorizeHistory run n i query (AuthorizeTask.start query) := by
  unfold AuthorizeTask.start
  split
  · intro answer location hanswer hlocation
    cases hanswer
    simp [plain400, Response.location] at hlocation
  · next clientId hclient => exact hclient

theorem AuthorizeHistory.step
    {n i : ℕ} {query : AuthorizeQuery} {task : AuthorizeTask} {choice : Choice}
    (hlabel : run.label n = .poll i choice)
    (hconn : (run.state n).conns i = some (.authorize query (.running task)))
    (hhistory : AuthorizeHistory run n i query (.running task)) :
    AuthorizeHistory run (n + 1) i query
      (task.step env (run.state n).now choice (run.state n).proxy
        query).phase := by
  cases task with
  | lookup clientId =>
      simp only [AuthorizeTask.step]
      split
      · intro answer location hanswer hlocation
        cases hanswer
        simp [plain400, Response.location] at hlocation
      · next registration hregistered =>
          exact ⟨n, by omega, ⟨choice, hlabel⟩, hconn, hhistory, hregistered⟩
  | touch clientId registration =>
      obtain ⟨k, hk, hlooks⟩ := hhistory
      simp only [AuthorizeTask.step]
      split
      · intro answer location hanswer hlocation
        cases hanswer
        simp [plain400, Response.location] at hlocation
      · next uri hchecked =>
          obtain ⟨hpresented, hmem, hpermitted⟩ := phaseA_eq_ok hchecked
          have hvetted : Vetted run k i query clientId uri :=
            ⟨hpresented, ⟨registration, hlooks, hmem⟩, hpermitted⟩
          rcases phaseB_cases env query clientId uri with
            ⟨challenge, scopes, hphase⟩ | ⟨response, hphase, hleads⟩
          · rw [hphase]
            exact ⟨k, by omega, hvetted⟩
          · rw [hphase]
            intro answer location hanswer hlocation
            cases hanswer
            exact Or.inr ⟨k, by omega, clientId, uri, hvetted,
              hleads location hlocation⟩
  | create clientId uri challenge scopes =>
      obtain ⟨k, hk, hvetted⟩ := hhistory
      obtain ⟨response, hphase, hleads⟩ := create_phase env (run.state n).now
        choice (run.state n).proxy query clientId uri challenge scopes
      rw [hphase]
      intro answer location hanswer hlocation
      cases hanswer
      rcases hleads location hlocation with hredmine | huri
      · exact Or.inl hredmine
      · exact Or.inr ⟨k, by omega, clientId, uri, hvetted, huri⟩

theorem authorize_history
    {n i : ℕ} {query : AuthorizeQuery} {phase : Phase AuthorizeTask}
    (hconn : (run.state n).conns i = some (.authorize query phase)) :
    AuthorizeHistory run n i query phase := by
  induction n generalizing phase with
  | zero => simp [run.start, State.initial] at hconn
  | succ n ih =>
      rcases conn_before (run.step n) hconn with hold | ⟨request, _, hstart⟩ |
        ⟨choice, before, step, hlabel, hbefore, hpolled, _, _, hafter⟩ |
        ⟨before, _, _, hcancel⟩
      · exact (ih hold).later
      · cases request <;> simp only [Conn.start] at hstart
        all_goals try split at hstart
        all_goals simp only [Conn.authorize.injEq, reduceCtorEq] at hstart
        obtain ⟨rfl, rfl⟩ := hstart
        exact AuthorizeHistory.start _ i query
      · cases Conn.advance_of_step hpolled with
        | authorize query' task =>
            simp only [Conn.Step.lift, Conn.authorize.injEq] at hafter
            obtain ⟨rfl, rfl⟩ := hafter
            exact (ih hbefore).step hlabel hbefore
        | _ => simp [Conn.Step.lift] at hafter
      · unfold Conn.cancel at hcancel
        split at hcancel
        all_goals simp at hcancel

end History

/-! ## The history of a callback -/

section Callback

variable {env : Env} (run : ProxyRun env)

/-- In step `k` the callback of request `i` takes the transaction that its
state names. -/
structure TakesTransaction (k i : ℕ) (query : CallbackQuery)
    (rawState : String) (transaction : Transaction) : Prop where
  polled : ∃ choice, run.label k = .poll i choice
  conn : (run.state k).conns i =
    some (.callback query (.running (.take rawState)))
  named : nonEmpty query.state = some rawState
  taken : ((run.state k).proxy.transactions.take (run.state k).now
    (env.digest rawState)).2 = some transaction

def CallbackHistory (n i : ℕ) (query : CallbackQuery) :
    Phase CallbackTask → Prop
  | .running (.take rawState) => nonEmpty query.state = some rawState
  | .running (.exchange transaction _) =>
      ∃ k < n, ∃ rawState, TakesTransaction run k i query rawState transaction
  | .running (.mint transaction _) =>
      ∃ k < n, ∃ rawState, TakesTransaction run k i query rawState transaction
  | .finished response =>
      ∀ answer location, response = some answer →
        answer.location = some location →
        ∃ k < n, ∃ rawState transaction,
          TakesTransaction run k i query rawState transaction ∧
            LeadsTo env transaction.redirectUri location

variable {run}

theorem CallbackHistory.later
    {n i : ℕ} {query : CallbackQuery} {phase : Phase CallbackTask}
    (hhistory : CallbackHistory run n i query phase) :
    CallbackHistory run (n + 1) i query phase := by
  have hwiden {p : ℕ → Prop} (h : ∃ k < n, p k) : ∃ k < n + 1, p k := by
    obtain ⟨k, hk, hp⟩ := h
    exact ⟨k, by omega, hp⟩
  cases phase with
  | running task =>
      cases task with
      | take rawState => exact hhistory
      | exchange transaction code => exact hwiden hhistory
      | mint transaction set => exact hwiden hhistory
  | finished response =>
      intro answer location hresponse hlocation
      exact hwiden (hhistory answer location hresponse hlocation)

theorem callbackHistory_fail
    {n i k : ℕ} {query : CallbackQuery} {rawState : String}
    {transaction : Transaction} (hk : k < n)
    (htakes : TakesTransaction run k i query rawState transaction)
    (error description : String) :
    CallbackHistory run n i query
      (CallbackTask.fail env transaction error description) := by
  intro answer location hanswer hlocation
  cases hanswer
  exact ⟨k, hk, rawState, transaction, htakes, redirectError_leadsTo hlocation⟩

theorem CallbackHistory.step
    {n i : ℕ} {query : CallbackQuery} {task : CallbackTask} {choice : Choice}
    (hlabel : run.label n = .poll i choice)
    (hconn : (run.state n).conns i = some (.callback query (.running task)))
    (hhistory : CallbackHistory run n i query (.running task)) :
    CallbackHistory run (n + 1) i query
      (task.step env (run.state n).now choice (run.state n).proxy
        query).phase := by
  cases task with
  | take rawState =>
      simp only [CallbackTask.step]
      split
      · intro answer location hanswer hlocation
        cases hanswer
        simp [plain400, Response.location] at hlocation
      · next transaction htaken =>
          have htakes : TakesTransaction run n i query rawState transaction :=
            ⟨⟨choice, hlabel⟩, hconn, hhistory, htaken⟩
          split
          · exact callbackHistory_fail (Nat.lt_succ_self n) htakes _ _
          · split
            · exact callbackHistory_fail (Nat.lt_succ_self n) htakes _ _
            · exact ⟨n, by omega, rawState, htakes⟩
  | exchange transaction code =>
      obtain ⟨k, hk, rawState, htakes⟩ := hhistory
      simp only [CallbackTask.step]
      split
      · exact callbackHistory_fail (by omega) htakes _ _
      · exact ⟨k, by omega, rawState, htakes⟩
  | mint transaction set =>
      obtain ⟨k, hk, rawState, htakes⟩ := hhistory
      simp only [CallbackTask.step]
      split
      · exact callbackHistory_fail (by omega) htakes _ _
      · dsimp only
        split
        · split
          · intro answer location hanswer hlocation
            cases hanswer
            simp [plain400, Response.location] at hlocation
          · next url hparse =>
              intro answer location hanswer hlocation
              cases hanswer
              simp only [Response.location, Option.some.injEq] at hlocation
              subst hlocation
              exact ⟨k, by omega, rawState, transaction, htakes, url, hparse,
                env.form.appendPairs_sameTarget ..⟩
        · exact callbackHistory_fail (by omega) htakes _ _

theorem callback_history
    {n i : ℕ} {query : CallbackQuery} {phase : Phase CallbackTask}
    (hconn : (run.state n).conns i = some (.callback query phase)) :
    CallbackHistory run n i query phase := by
  induction n generalizing phase with
  | zero => simp [run.start, State.initial] at hconn
  | succ n ih =>
      rcases conn_before (run.step n) hconn with hold | ⟨request, _, hstart⟩ |
        ⟨choice, before, step, hlabel, hbefore, hpolled, _, _, hafter⟩ |
        ⟨before, _, _, hcancel⟩
      · exact (ih hold).later
      · cases request <;> simp only [Conn.start] at hstart
        all_goals try split at hstart
        all_goals simp only [Conn.callback.injEq, reduceCtorEq] at hstart
        obtain ⟨rfl, rfl⟩ := hstart
        unfold CallbackTask.start
        split
        · intro answer location hanswer hlocation
          cases hanswer
          simp [plain400, Response.location] at hlocation
        · next rawState hnamed => exact hnamed
      · cases Conn.advance_of_step hpolled with
        | callback query' task =>
            simp only [Conn.Step.lift, Conn.callback.injEq] at hafter
            obtain ⟨rfl, rfl⟩ := hafter
            exact (ih hbefore).step hlabel hbefore
        | _ => simp [Conn.Step.lift] at hafter
      · unfold Conn.cancel at hcancel
        split at hcancel
        all_goals simp only [Option.some.injEq, reduceCtorEq,
          Option.map_eq_some_iff, and_false, exists_false,
          Conn.callback.injEq] at hcancel
        obtain ⟨rfl, rfl⟩ := hcancel
        intro answer location hanswer
        simp at hanswer

/-! ## The transactions -/

theorem take_eq_some
    {store : TransactionStore} {now : Instant} {key : Digest}
    {transaction : Transaction}
    (htaken : (store.take now key).2 = some transaction) :
    ∃ deadline, store.lookup key = some (transaction, deadline) := by
  simp only [TransactionStore.take] at htaken
  split at htaken
  next found deadline hfound =>
    split at htaken
    · simp only [Option.some.injEq] at htaken
      subst htaken
      exact ⟨deadline, hfound⟩
    · simp at htaken
  next => simp at htaken

/-- In step `m` an `authorize` request that has passed phase A stores the
transaction under the digest `key`. -/
structure CreatesTransaction (run : ProxyRun env) (m j : ℕ)
    (query : AuthorizeQuery) (key : Digest) (transaction : Transaction) :
    Prop where
  polled : ∃ choice, run.label m = .poll j choice
  conn : (run.state m).conns j = some (.authorize query (.running
    (.create transaction.clientId transaction.redirectUri
      transaction.codeChallenge transaction.scopes)))
  absent : key ∉ (run.state m).proxy.transactions
  stored : ∃ deadline, (run.state (m + 1)).proxy.transactions.lookup key =
    some (transaction, deadline)
  vetted : ∃ k < m, Vetted run k j query transaction.clientId
    transaction.redirectUri

theorem transaction_created
    {n : ℕ} {key : Digest} {entry : Transaction × Instant}
    (hlookup : (run.state n).proxy.transactions.lookup key = some entry) :
    ∃ m < n, ∃ j query, CreatesTransaction run m j query key entry.1 := by
  obtain ⟨m, j, op, _, hmn, hsection, hnot, hm⟩ := exists_section run
    (fun proxy => proxy.transactions.lookup key = some entry) (Nat.zero_le n)
    (by simp [run.start, State.initial, ProxyState.new]) hlookup
  obtain ⟨hfresh, _, hproxy, conn, hconn, hperforms⟩ := hsection.commit
  have hstored := hm
  rw [← hproxy] at hstored
  rcases StoreOp.transactions_after hm with hold | ⟨rfl, _⟩
  · exact absurd hold hnot
  · have habsent : key ∉ (run.state m).proxy.transactions := by
      intro hmem
      exact absurd rfl (hfresh.ne_of_minted rfl
        ((run_drawn run m).transactions key hmem))
    obtain ⟨choice, _, _, hlabel, _⟩ := hsection
    obtain ⟨transaction, deadline⟩ := entry
    cases hperforms with
    | take u pc htaking hsection =>
        cases pc <;> simp [TakePc.section] at hsection
    | authorizeCreate query clientId uri challenge scopes verifier draw =>
        exact ⟨m, hmn, j, query, ⟨choice, hlabel⟩, hconn, habsent,
          ⟨deadline, hstored⟩, authorize_history hconn⟩

theorem transaction_absent_next
    {s s' : State} {label : Label} {key : Digest}
    (hnext : s.next env label = some s') (hdrawn : key ∈ s.drawn)
    (habsent : key ∉ s.proxy.transactions) :
    key ∉ s'.proxy.transactions := by
  intro hmem
  obtain ⟨entry, hentry⟩ := Table.mem_iff_lookup.mp hmem
  rcases proxy_next hnext with ⟨hproxy, _⟩ |
    ⟨i, choice, conn, step, _, _, _, hfresh, rfl⟩
  · exact habsent (hproxy ▸ hmem)
  · rcases StoreOp.transactions_after hentry with hold | ⟨hop, _⟩
    · exact habsent (Table.mem_of_lookup hold)
    · exact absurd rfl (hfresh.ne_of_minted (by rw [hop]; rfl) hdrawn)

theorem TakesTransaction.gone
    {k i n : ℕ} {query : CallbackQuery} {rawState : String}
    {transaction : Transaction}
    (htakes : TakesTransaction run k i query rawState transaction)
    (hlt : k < n) :
    env.digest rawState ∉ (run.state n).proxy.transactions := by
  obtain ⟨⟨choice, hlabel⟩, hconn, _, htaken⟩ := htakes
  obtain ⟨deadline, hlookup⟩ := take_eq_some htaken
  have hnext := run.step k
  rw [hlabel] at hnext
  obtain ⟨step, hstep, _, hcommit⟩ := next_poll hnext hconn
  simp only [Conn.step, CallbackTask.step, Option.some.injEq] at hstep
  have hdrawn := (run_drawn run k).transactions _ (Table.mem_of_lookup hlookup)
  have hafter : env.digest rawState ∉
      (run.state (k + 1)).proxy.transactions := by
    rw [hcommit, ← hstep]
    simp [State.commit, Conn.Step.lift, StoreOp.apply, TransactionStore.take,
      AList.mem_erase]
  have hboth : env.digest rawState ∈ (run.state n).drawn ∧
      env.digest rawState ∉ (run.state n).proxy.transactions :=
    run.stable (fun _ => True)
      (fun s => env.digest rawState ∈ s.drawn ∧
        env.digest rawState ∉ s.proxy.transactions)
      (fun _ => trivial)
      (fun _ _ _ _ hgood hnext => ⟨mem_drawn_next hnext hgood.1,
        transaction_absent_next hnext hgood.1 hgood.2⟩)
      hlt ⟨mem_drawn_run run (Nat.le_succ k) hdrawn, hafter⟩
  exact hboth.2

theorem TakesTransaction.same_step
    {k k' i j : ℕ} {query query' : CallbackQuery} {rawState : String}
    {transaction transaction' : Transaction}
    (htakes : TakesTransaction run k i query rawState transaction)
    (htakes' : TakesTransaction run k' j query' rawState transaction') :
    k = k' := by
  have hstored {k i : ℕ} {query : CallbackQuery} {transaction : Transaction}
      (h : TakesTransaction run k i query rawState transaction) :
      env.digest rawState ∈ (run.state k).proxy.transactions := by
    obtain ⟨deadline, hlookup⟩ := take_eq_some h.taken
    exact Table.mem_of_lookup hlookup
  rcases lt_trichotomy k k' with hlt | heq | hlt
  · exact absurd (hstored htakes') (htakes.gone hlt)
  · exact heq
  · exact absurd (hstored htakes) (htakes'.gone hlt)

end Callback

/-! ## The other endpoints -/

def Conn.NoLocation (conn : Conn) : Prop :=
  ∀ response, conn.response = some response → response.location = none

/-- The request is handled by `authorize` or `auth_callback`. -/
def Conn.isFlow : Conn → Bool
  | authorize _ _ => true
  | callback _ _ => true
  | _ => false

theorem registerTask_start_location
    {env : Env} {request : RegisterRequest} {response : Response}
    (hphase : RegisterTask.start env request = .finished (some response)) :
    response.location = none := by
  unfold RegisterTask.start at hphase
  dsimp only at hphase
  repeat' split at hphase
  all_goals simp only [Phase.finished.injEq, Option.some.injEq,
    reduceCtorEq] at hphase
  all_goals subst hphase; rfl

theorem registerTask_step_location
    {now : Instant} {choice : Choice} {proxy : ProxyState}
    {request : RegisterRequest} {task : RegisterTask} {response : Response}
    (hphase : (task.step now choice proxy request).phase =
      .finished (some response)) : response.location = none := by
  cases task <;> simp only [RegisterTask.step, Phase.finished.injEq,
    Option.some.injEq, reduceCtorEq] at hphase
  subst hphase
  split <;> rfl

theorem codeTask_step_location
    {env : Env} {now : Instant} {choice : Choice} {proxy : ProxyState}
    {request : CodeRequest} {task : CodeTask} {response : Response}
    (hphase : (task.step env now choice proxy request).phase =
      .finished (some response)) : response.location = none := by
  cases task with
  | sweep set =>
      simp only [CodeTask.step] at hphase
      unfold CodeTask.sweepNext at hphase
      split at hphase <;> simp at hphase
  | sweepRefresh set u expired todo swept =>
      simp only [CodeTask.step] at hphase
      unfold CodeTask.sweepNext at hphase
      split at hphase <;> simp at hphase
  | _ =>
      simp only [CodeTask.step] at hphase
      repeat' split at hphase
      all_goals simp only [Phase.failed, Phase.finished.injEq,
        Option.some.injEq, reduceCtorEq] at hphase
      all_goals subst hphase; rfl

theorem refreshTask_step_location
    {env : Env} {now : Instant} {choice : Choice} {proxy : ProxyState}
    {request : RefreshRequest} {task : RefreshTask} {response : Response}
    (hphase : (task.step env now choice proxy request).phase =
      .finished (some response)) : response.location = none := by
  cases task with
  | rollback u failure =>
      simp only [RefreshTask.step, Phase.finished.injEq,
        Option.map_eq_some_iff] at hphase
      obtain ⟨error, _, rfl⟩ := hphase
      rfl
  | _ =>
      simp only [RefreshTask.step] at hphase
      repeat' split at hphase
      all_goals simp only [Phase.failed, Phase.finished.injEq,
        Option.some.injEq, reduceCtorEq] at hphase
      all_goals subst hphase; rfl

theorem noLocation_start
    {env : Env} {request : Request}
    (hflow : (Conn.start env request).isFlow = false) :
    (Conn.start env request).NoLocation := by
  intro response hresponse
  cases request with
  | register request =>
      simp only [Conn.start] at hresponse
      cases hphase : RegisterTask.start env request with
      | running task => simp [hphase, Conn.response] at hresponse
      | finished answer =>
          rw [hphase] at hresponse
          simp only [Conn.response] at hresponse
          subst hresponse
          exact registerTask_start_location hphase
  | authorize query => simp [Conn.start, Conn.isFlow] at hflow
  | callback query => simp [Conn.start, Conn.isFlow] at hflow
  | codeGrant fields =>
      simp only [Conn.start] at hresponse
      split at hresponse
      · simp [Conn.response, CodeTask.start] at hresponse
      · simp only [Conn.response, Option.some.injEq] at hresponse
        subst hresponse
        rfl
  | refreshGrant fields =>
      simp only [Conn.start] at hresponse
      split at hresponse
      · simp [Conn.response, RefreshTask.start] at hresponse
      · simp only [Conn.response, Option.some.injEq] at hresponse
        subst hresponse
        rfl
  | revoke token =>
      simp only [Conn.start, RevokeTask.start] at hresponse
      repeat' split at hresponse
      all_goals simp only [Conn.response, Option.some.injEq,
        reduceCtorEq] at hresponse
      all_goals subst hresponse; rfl
  | bearer token =>
      simp only [Conn.start, BearerTask.start] at hresponse
      repeat' split at hresponse
      all_goals simp only [Conn.response, Option.some.injEq,
        reduceCtorEq] at hresponse
      all_goals subst hresponse; rfl

theorem noLocation_step
    {env : Env} {now : Instant} {choice : Choice} {proxy : ProxyState}
    {conn : Conn} {step : Conn.Step}
    (hstep : conn.step env now choice proxy = some step)
    (hflow : step.conn.isFlow = false) : step.conn.NoLocation := by
  have hphase {τ : Type} {wrap : Phase τ → Conn} {phase : Phase τ}
      (hrunning : ∀ task, (wrap (.running task)).response = none)
      (hfinished : ∀ answer, (wrap (.finished answer)).response = answer)
      (hplain : ∀ response, phase = .finished (some response) →
        response.location = none) : (wrap phase).NoLocation := by
    intro response hresponse
    cases phase with
    | running task => simp [hrunning] at hresponse
    | finished answer =>
        rw [hfinished] at hresponse
        exact hplain response (by rw [hresponse])
  cases Conn.advance_of_step hstep with
  | register request task =>
      exact hphase (fun _ => rfl) (fun _ => rfl)
        fun _ => registerTask_step_location
  | authorize query task => simp [Conn.Step.lift, Conn.isFlow] at hflow
  | callback query task => simp [Conn.Step.lift, Conn.isFlow] at hflow
  | codeGrant request task =>
      exact hphase (fun _ => rfl) (fun _ => rfl) fun _ => codeTask_step_location
  | refreshGrant request task =>
      exact hphase (fun _ => rfl) (fun _ => rfl)
        fun _ => refreshTask_step_location
  | revoke token task | bearer token task =>
      refine hphase (fun _ => rfl) (fun _ => rfl) fun response hended => ?_
      cases task
      all_goals simp only [RevokeTask.step, BearerTask.step] at hended
      all_goals repeat' split at hended
      all_goals simp only [Phase.finished.injEq, Option.some.injEq,
        reduceCtorEq] at hended
      all_goals subst hended; rfl

theorem noLocation_cancel
    {conn cancelled : Conn} (hcancel : conn.cancel = some cancelled) :
    cancelled.response = none := by
  unfold Conn.cancel at hcancel
  split at hcancel
  all_goals simp only [Option.some.injEq, reduceCtorEq,
    Option.map_eq_some_iff] at hcancel
  · subst hcancel
    rfl
  · obtain ⟨phase, hphase, rfl⟩ := hcancel
    unfold RefreshTask.cancel at hphase
    split at hphase
    all_goals simp only [Option.some.injEq, reduceCtorEq] at hphase
    all_goals subst hphase; rfl
  · subst hcancel
    rfl
  · subst hcancel
    rfl

theorem noLocation_run
    {env : Env} (run : ProxyRun env) (n : ℕ) :
    ∀ i conn, (run.state n).conns i = some conn → conn.isFlow = false →
      conn.NoLocation := by
  refine run.invariant (fun s => ∀ i conn, s.conns i = some conn →
    conn.isFlow = false → conn.NoLocation) ?_ ?_ n
  · intro i conn hconn
    simp [State.initial] at hconn
  · intro s label s' hgood hnext i conn hconn hflow
    rcases conn_before hnext hconn with hold | ⟨request, _, rfl⟩ |
      ⟨choice, before, step, _, _, hstep, _, _, rfl⟩ | ⟨before, _, _, hcancel⟩
    · exact hgood i conn hold hflow
    · exact noLocation_start hflow
    · exact noLocation_step hstep hflow
    · intro response hresponse
      rw [noLocation_cancel hcancel] at hresponse
      simp at hresponse

/-! ## No open redirect -/

theorem no_open_redirect {env : Env} (run : ProxyRun env) :
    (∀ n i query response location,
      (run.state n).conns i =
        some (.authorize query (.finished (some response))) →
      response.location = some location →
      LeadsTo env (redmineAuthorize env) location ∨
        ∃ k < n, ∃ clientId uri, Vetted run k i query clientId uri ∧
          LeadsTo env uri location) ∧
    (∀ n i query response location,
      (run.state n).conns i =
        some (.callback query (.finished (some response))) →
      response.location = some location →
      ∃ k < n, ∃ rawState transaction,
        TakesTransaction run k i query rawState transaction ∧
        LeadsTo env transaction.redirectUri location ∧
        ∃ m < k, ∃ j authorizing, CreatesTransaction run m j authorizing
          (env.digest rawState) transaction) ∧
    (∀ n n' i j query query' response response',
      (run.state n).conns i =
        some (.callback query (.finished (some response))) →
      response.location ≠ none →
      (run.state n').conns j =
        some (.callback query' (.finished (some response'))) →
      response'.location ≠ none →
      nonEmpty query.state = nonEmpty query'.state → i = j) ∧
    (∀ n i conn response, (run.state n).conns i = some conn →
      conn.response = some response → conn.isFlow = false →
      response.location = none) := by
  refine ⟨?_, ?_, ?_, ?_⟩
  · intro n i query response location hconn hlocation
    exact authorize_history hconn response location rfl hlocation
  · intro n i query response location hconn hlocation
    obtain ⟨k, hk, rawState, transaction, htakes, hleads⟩ :=
      callback_history hconn response location rfl hlocation
    obtain ⟨deadline, hlookup⟩ := take_eq_some htakes.taken
    exact ⟨k, hk, rawState, transaction, htakes, hleads,
      transaction_created hlookup⟩
  · intro n n' i j query query' response response' hconn hlocation hconn'
      hlocation' hstate
    obtain ⟨location, hlocation⟩ := Option.ne_none_iff_exists'.mp hlocation
    obtain ⟨location', hlocation'⟩ := Option.ne_none_iff_exists'.mp hlocation'
    obtain ⟨k, _, rawState, _, htakes, _⟩ :=
      callback_history hconn response location rfl hlocation
    obtain ⟨k', _, rawState', _, htakes', _⟩ :=
      callback_history hconn' response' location' rfl hlocation'
    have hraw : rawState' = rawState := by
      have hnamed := htakes'.named
      rw [← hstate, htakes.named, Option.some.injEq] at hnamed
      exact hnamed.symm
    subst hraw
    have hstep := htakes.same_step htakes'
    subst hstep
    obtain ⟨choice, hlabel⟩ := htakes.polled
    obtain ⟨choice', hlabel'⟩ := htakes'.polled
    rw [hlabel, Label.poll.injEq] at hlabel'
    exact hlabel'.1
  · intro n i conn response hconn hresponse hflow
    exact noLocation_run run n i conn hconn hflow response hresponse

namespace Sample

theorem authorization_enabled :
    Transition.Enabled (State.next env) State.initial (first.authorization 0) =
      true := by
  decide +kernel

def callbackQuery : CallbackQuery where
  code := some "upstream-code"
  state := some first.transactionId
  error := none
  errorDescription := none

/-- The client's callback URL with the code. -/
def callbackLocation : Url where
  scheme := "http"
  username := ""
  password := none
  host := some "127.0.0.1"
  port := some 8000
  path := "/callback"
  query := some ("code=rup_ac_AwMDAwMDAwMDAwMDAwMDAwMDAwMDAwMDAwMDAwMDAwM" ++
    "&iss=https%3A%2F%2Fmcp.example.org")
  fragment := none

theorem callback_redirects_to_client :
    ((run (first.authorization 0) authorization_enabled).state 12).conns 2 =
        some (.callback callbackQuery
          (.finished (some (.redirect callbackLocation)))) ∧
      ∃ k < 12, ∃ rawState transaction,
        TakesTransaction (run (first.authorization 0) authorization_enabled)
          k 2 callbackQuery rawState transaction ∧
        LeadsTo env transaction.redirectUri callbackLocation := by
  have hconn :
      ((run (first.authorization 0) authorization_enabled).state 12).conns 2 =
        some (.callback callbackQuery
          (.finished (some (.redirect callbackLocation)))) := by
    decide +kernel
  refine ⟨hconn, ?_⟩
  obtain ⟨k, hk, rawState, transaction, htakes, hleads, _⟩ :=
    (no_open_redirect (run (first.authorization 0)
      authorization_enabled)).2.1 12 2 _ _ _ hconn rfl
  exact ⟨k, hk, rawState, transaction, htakes, hleads⟩

end Sample

end RuprogressMcp
