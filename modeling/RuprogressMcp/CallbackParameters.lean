import RuprogressMcp.RedirectTargets

/-!
# What a callback tells the client

The parameters of the redirect that ends an authorization.  A client reads
those of its own redirect URI, then a code or an error, then the state of its
authorization request and the issuer.  A code is one that the callback itself
stored for the transaction it took.
-/

namespace RuprogressMcp

/-- What stands behind a code or an error. -/
def closingPairs (env : Env) (clientState : Option String) :
    List (String × String) :=
  (clientState.map fun state => ("state", state)).toList ++
    [("iss", trimTrailingSlash env.baseUrl)]

/-- The code of a transaction as it is stored. -/
def Transaction.pendingCode (transaction : Transaction) : PendingCode where
  clientId := transaction.clientId
  redirectUri := transaction.redirectUri
  codeChallenge := transaction.codeChallenge

theorem CodeStore.pending_of_mint
    {store : CodeStore} {now : Instant} {key : Digest} {entry : PendingCode}
    {set : UpstreamTokenSet} (hminted : (store.mint now key entry set).2 = true) :
    (store.mint now key entry set).1.pending.lookup key =
      some (entry, expiresAfter now codeTtl) := by
  cases hroom : (sweepAndCheckCapacity now store.pending key).2 with
  | true =>
      have hstored : (insertBounded now store.pending key entry
          (expiresAfter now codeTtl)).1.lookup key = some (entry, expiresAfter now codeTtl) :=
        lookup_insertBounded_self hroom
      simp only [CodeStore.mint, insertBounded, hroom, if_true] at hstored ⊢
      exact hstored
  | false => simp [CodeStore.mint, insertBounded, hroom] at hminted

section Runs

variable {env : Env} (run : ProxyRun env)

/-- What request `i` tells the client before step `n`. -/
inductive Announces (n i : ℕ) (transaction : Transaction) :
    List (String × String) → Prop where
  | code {m : ℕ} (hm : m < n) (draw : String) (set : UpstreamTokenSet)
      (deadline : Instant)
      (hsection : SectionOf run m i (.mintCode
        (env.digest (codePrefix ++ draw)) transaction.pendingCode set))
      (hstored : (run.state (m + 1)).proxy.codes.pending.lookup
        (env.digest (codePrefix ++ draw)) =
          some (transaction.pendingCode, deadline)) :
      Announces n i transaction [("code", codePrefix ++ draw)]
  | error (error description : String) :
      Announces n i transaction
        [("error", error), ("error_description", description)]

/-- A redirect that ends the authorization of a transaction. -/
structure EndsAuthorization (n i : ℕ) (query : CallbackQuery) (location : Url)
    (k : ℕ) (rawState : String) (transaction : Transaction) (url : Url)
    (pairs : List (String × String)) : Prop where
  earlier : k < n
  takes : TakesTransaction run k i query rawState transaction
  parsed : env.parseUrl transaction.redirectUri = some url
  announces : Announces run n i transaction pairs
  location : location =
    env.form.appendPairs url
      (pairs ++ closingPairs env transaction.clientState)

variable {run}

theorem Announces.later
    {n i : ℕ} {transaction : Transaction} {pairs : List (String × String)}
    (hannounces : Announces run n i transaction pairs) :
    Announces run (n + 1) i transaction pairs := by
  cases hannounces with
  | code hm draw set deadline hsection hstored =>
      exact .code (by omega) draw set deadline hsection hstored
  | error error description => exact .error error description

theorem EndsAuthorization.later
    {n i k : ℕ} {query : CallbackQuery} {location url : Url}
    {rawState : String} {transaction : Transaction}
    {pairs : List (String × String)}
    (hends : EndsAuthorization run n i query location k rawState transaction
      url pairs) :
    EndsAuthorization run (n + 1) i query location k rawState transaction
      url pairs :=
  { hends with
    earlier := hends.earlier.trans (Nat.lt_succ_self n)
    announces := hends.announces.later }

/-- A failed callback names the error. -/
theorem ends_of_fail
    {n i k : ℕ} {query : CallbackQuery} {location : Url} {rawState : String}
    {transaction : Transaction} {error description : String} (hk : k < n)
    (htakes : TakesTransaction run k i query rawState transaction)
    (hfail : CallbackTask.fail env transaction error description =
      .finished (some (.redirect location))) :
    ∃ url, EndsAuthorization run n i query location k rawState transaction url
      [("error", error), ("error_description", description)] := by
  unfold CallbackTask.fail redirectError at hfail
  split at hfail
  · simp [plain400] at hfail
  · next url hparse =>
      simp only [Phase.finished.injEq, Option.some.injEq,
        Response.redirect.injEq] at hfail
      refine ⟨url, hk, htakes, hparse, .error error description, ?_⟩
      rw [← hfail, closingPairs, List.append_assoc]

/-- The code of a successful callback is stored before it is sent. -/
theorem ends_of_mint
    {n i k : ℕ} {query : CallbackQuery} {choice : Choice} {location : Url}
    {rawState : String} {transaction : Transaction} {set : UpstreamTokenSet}
    (hlabel : run.label n = .poll i choice)
    (hconn : (run.state n).conns i =
      some (.callback query (.running (.mint transaction set))))
    (hk : k < n)
    (htakes : TakesTransaction run k i query rawState transaction)
    (hphase : ((CallbackTask.mint transaction set).step env (run.state n).now
      choice (run.state n).proxy query).phase =
        .finished (some (.redirect location))) :
    ∃ url pairs, EndsAuthorization run (n + 1) i query location k rawState
      transaction url pairs := by
  have hlater : k < n + 1 := by omega
  cases hdraw : choice.draw with
  | none =>
      simp only [CallbackTask.step, hdraw] at hphase
      obtain ⟨url, hends⟩ := ends_of_fail hlater htakes hphase
      exact ⟨url, _, hends⟩
  | some draw =>
      have hsection : SectionOf run n i (.mintCode
          (env.digest (codePrefix ++ draw)) transaction.pendingCode set) := by
        refine ⟨choice, _, _, hlabel, hconn, rfl, ?_⟩
        simp [CallbackTask.step, Conn.Step.lift, hdraw, Transaction.pendingCode]
      simp only [CallbackTask.step, hdraw] at hphase
      split at hphase
      next hminted =>
        split at hphase
        · simp [plain400] at hphase
        next url hparse =>
          obtain ⟨-, -, hproxy, -⟩ := hsection.commit
          simp only [Phase.finished.injEq, Option.some.injEq,
            Response.redirect.injEq] at hphase
          refine ⟨url, [("code", codePrefix ++ draw)], hlater, htakes, hparse,
            .code (Nat.lt_succ_self n) draw set
              (expiresAfter (run.state n).now codeTtl) hsection ?_, ?_⟩
          · rw [hproxy]
            exact CodeStore.pending_of_mint hminted
          · rw [← hphase, closingPairs, List.append_assoc]
      next =>
        obtain ⟨url, hends⟩ := ends_of_fail hlater htakes hphase
        exact ⟨url, _, hends⟩

theorem callback_ends
    {n i : ℕ} {query : CallbackQuery} {location : Url}
    (hconn : (run.state n).conns i =
      some (.callback query (.finished (some (.redirect location))))) :
    ∃ k rawState transaction url pairs,
      EndsAuthorization run n i query location k rawState transaction url
        pairs := by
  induction n with
  | zero => simp [run.start, State.initial] at hconn
  | succ n ih =>
      rcases conn_before (run.step n) hconn with hold | ⟨request, -, hstart⟩ |
        ⟨choice, before, step, hlabel, hbefore, hpolled, -, -, hafter⟩ |
        ⟨before, -, -, hcancel⟩
      · obtain ⟨k, rawState, transaction, url, pairs, hends⟩ := ih hold
        exact ⟨k, rawState, transaction, url, pairs, hends.later⟩
      · cases request <;> simp only [Conn.start] at hstart
        all_goals try split at hstart
        all_goals simp only [Conn.callback.injEq, reduceCtorEq] at hstart
        obtain ⟨rfl, hphase⟩ := hstart
        unfold CallbackTask.start at hphase
        split at hphase
        all_goals simp [plain400] at hphase
      · cases Conn.advance_of_step hpolled with
        | callback query' task =>
            simp only [Conn.Step.lift, Conn.callback.injEq] at hafter
            obtain ⟨rfl, hphase⟩ := hafter
            have hhistory := callback_history hbefore
            cases task with
            | take rawState =>
                simp only [CallbackTask.step] at hphase
                split at hphase
                · simp [plain400] at hphase
                next transaction htaken =>
                  have htakes : TakesTransaction run n i query' rawState
                      transaction :=
                    ⟨⟨choice, hlabel⟩, hbefore, hhistory, htaken⟩
                  split at hphase
                  · obtain ⟨url, hends⟩ :=
                      ends_of_fail (Nat.lt_succ_self n) htakes hphase
                    exact ⟨n, rawState, transaction, url, _, hends⟩
                  · split at hphase
                    · obtain ⟨url, hends⟩ :=
                        ends_of_fail (Nat.lt_succ_self n) htakes hphase
                      exact ⟨n, rawState, transaction, url, _, hends⟩
                    · cases hphase
            | exchange transaction code =>
                obtain ⟨k, hk, rawState, htakes⟩ := hhistory
                simp only [CallbackTask.step] at hphase
                split at hphase
                · obtain ⟨url, hends⟩ :=
                    ends_of_fail (Nat.lt_succ_of_lt hk) htakes hphase
                  exact ⟨k, rawState, transaction, url, _, hends⟩
                · cases hphase
            | mint transaction set =>
                obtain ⟨k, hk, rawState, htakes⟩ := hhistory
                obtain ⟨url, pairs, hends⟩ :=
                  ends_of_mint hlabel hbefore hk htakes hphase
                exact ⟨k, rawState, transaction, url, pairs, hends⟩
        | _ => simp [Conn.Step.lift] at hafter
      · unfold Conn.cancel at hcancel
        split at hcancel
        all_goals simp only [Option.some.injEq, reduceCtorEq,
          Option.map_eq_some_iff, and_false, exists_false,
          Conn.callback.injEq] at hcancel
        obtain ⟨-, hphase⟩ := hcancel
        cases hphase

theorem clientState_of_performs
    {query : AuthorizeQuery} {task : AuthorizeTask} {op : StoreOp}
    {key : Digest} {transaction : Transaction}
    (hperforms : Conn.Performs env (.authorize query (.running task)) op)
    (hop : op = .createTransaction key transaction) :
    transaction.clientState = query.state := by
  cases hperforms with
  | take upstreamId pc htaking => cases htaking
  | authorizeCreate =>
      cases hop
      rfl
  | _ => cases hop

/-- A transaction remembers the state of the request that created it. -/
theorem clientState_of_creates
    {m j : ℕ} {query : AuthorizeQuery} {key : Digest}
    {transaction : Transaction}
    (hcreates : CreatesTransaction run m j query key transaction) :
    transaction.clientState = query.state := by
  obtain ⟨choice, hlabel⟩ := hcreates.polled
  obtain ⟨deadline, hstored⟩ := hcreates.stored
  rcases section_of_next run m with hproxy | ⟨i, op, hsection, hproxy⟩
  · rw [hproxy] at hstored
    exact absurd (Table.mem_of_lookup hstored) hcreates.absent
  · rw [hproxy] at hstored
    rcases StoreOp.transactions_after hstored with hold | ⟨hop, -⟩
    · exact absurd (Table.mem_of_lookup hold) hcreates.absent
    · obtain ⟨-, -, -, conn, hconn, hperforms⟩ := hsection.commit
      obtain ⟨polled, _, _, hpoll, _⟩ := hsection
      rw [hlabel, Label.poll.injEq] at hpoll
      obtain ⟨rfl, -⟩ := hpoll
      rw [hcreates.conn, Option.some.injEq] at hconn
      subst hconn
      exact clientState_of_performs hperforms hop

end Runs

/-- Whatever a callback redirects to, its reader finds the parameters of the
redirect URI, a stored code or an error, and the state and issuer that belong
to the authorization request which created the transaction. -/
theorem callback_returns_state
    {env : Env} (run : ProxyRun env) {n i : ℕ} {query : CallbackQuery}
    {location : Url}
    (hconn : (run.state n).conns i =
      some (.callback query (.finished (some (.redirect location))))) :
    ∃ k rawState transaction url pairs m j authorizing,
      EndsAuthorization run n i query location k rawState transaction url
        pairs ∧
      m < k ∧
      CreatesTransaction run m j authorizing (env.digest rawState)
        transaction ∧
      env.form.queryPairs location = env.form.queryPairs url ++
        (pairs ++ closingPairs env authorizing.state).map FormPair.of := by
  obtain ⟨k, rawState, transaction, url, pairs, hends⟩ := callback_ends hconn
  obtain ⟨deadline, hlookup⟩ := take_eq_some hends.takes.taken
  obtain ⟨m, hm, j, authorizing, hcreates⟩ := transaction_created hlookup
  refine ⟨k, rawState, transaction, url, pairs, m, j, authorizing, hends, hm,
    hcreates, ?_⟩
  rw [hends.location, env.form.queryPairs_appendPairs,
    clientState_of_creates hcreates]

namespace Sample

theorem client_redirected :
    ((run (first.authorization 0) authorization_enabled).state 12).conns 2 =
      some (.callback callbackQuery
        (.finished (some (.redirect callbackLocation)))) := by
  decide +kernel

theorem state_returned_to_client :
    ∃ k rawState transaction url pairs m j authorizing,
      EndsAuthorization (run (first.authorization 0) authorization_enabled)
        12 2 callbackQuery callbackLocation k rawState transaction url pairs ∧
      m < k ∧
      CreatesTransaction (run (first.authorization 0) authorization_enabled)
        m j authorizing (env.digest rawState) transaction ∧
      env.form.queryPairs callbackLocation = env.form.queryPairs url ++
        (pairs ++ closingPairs env authorizing.state).map FormPair.of :=
  callback_returns_state (run (first.authorization 0) authorization_enabled)
    client_redirected

end Sample

end RuprogressMcp
