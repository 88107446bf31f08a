import RuprogressMcp.RefreshGrants

/-!
# Revocation is final

The middleware accepts a presented token in two sections: it resolves the
token to a session, and it then reads the upstream access token of that
session.  A session that has left `UpstreamStore` never returns to it, and
the session that a token was minted for never changes.  So neither the tokens
that were minted before the removal nor those that a refresh grant in flight
mints after it are accepted again.
-/

namespace RuprogressMcp

/-! ## The session of a token -/

/-- The token with this digest belongs to session `u`: the store says so if
it still holds the token, and so does every request that has resolved it. -/
structure State.BoundTo
    (env : Env) (s : State) (key : Digest) (u : String) : Prop where
  drawn : key ∈ s.drawn
  stored : ∀ entry, s.proxy.tokens.lookup key = some entry →
    entry.1.upstreamId = u
  resolved : ∀ j token entry,
    s.conns j = some (.bearer token (.running (.accessToken entry))) →
      env.digest token = key → entry.upstreamId = u

/-- Only tokens that were drawn resolve. -/
def State.ResolvedDrawn (env : Env) (s : State) : Prop :=
  ∀ j token entry,
    s.conns j = some (.bearer token (.running (.accessToken entry))) →
      env.digest token ∈ s.drawn

theorem resolve_eq_some
    {store : TokenStore} {now : Instant} {key : Digest} {entry : TokenEntry}
    (hresolve : (store.resolve now key).2 = some entry) :
    ∃ deadline, store.lookup key = some (entry, deadline) := by
  unfold TokenStore.resolve at hresolve
  split at hresolve
  next found deadline hlookup =>
    split at hresolve
    next => simp at hresolve
    next =>
      simp only [Option.some.injEq] at hresolve
      subst hresolve
      exact ⟨deadline, hlookup⟩
  next => simp at hresolve

theorem resolved_before
    {env : Env} {s s' : State} {label : Label} {j : ℕ} {token : String}
    {entry : TokenEntry} (hnext : s.next env label = some s')
    (hconn : s'.conns j =
      some (.bearer token (.running (.accessToken entry)))) :
    s.conns j = some (.bearer token (.running (.accessToken entry))) ∨
      ∃ deadline, s.proxy.tokens.lookup (env.digest token) =
        some (entry, deadline) := by
  rcases conn_before hnext hconn with hold | ⟨request, _, hstart⟩ |
    ⟨choice, before, step, -, -, hstep, -, -, hafter⟩ |
    ⟨before, -, -, hcancel⟩
  · exact Or.inl hold
  · cases request <;> simp only [Conn.start] at hstart
    all_goals try split at hstart
    all_goals simp [BearerTask.start] at hstart
    split at hstart <;> simp at hstart
  · right
    cases Conn.advance_of_step hstep with
    | bearer presented task =>
        simp only [Conn.Step.lift, Conn.bearer.injEq] at hafter
        obtain ⟨rfl, hphase⟩ := hafter
        cases task with
        | resolve =>
            simp only [BearerTask.step] at hphase
            split at hphase
            next => simp at hphase
            next found hresolve =>
              simp only [Phase.running.injEq, BearerTask.accessToken.injEq]
                at hphase
              subst hphase
              exact resolve_eq_some hresolve
        | accessToken found =>
            simp only [BearerTask.step] at hphase
            split at hphase <;> simp at hphase
        | verify access => simp [BearerTask.step] at hphase
    | _ => simp [Conn.Step.lift] at hafter
  · unfold Conn.cancel at hcancel
    split at hcancel
    all_goals simp at hcancel

theorem State.ResolvedDrawn.next
    {env : Env} {s s' : State} {label : Label} (hdrawn : s.Drawn)
    (hresolved : s.ResolvedDrawn env)
    (hnext : s.next env label = some s') : s'.ResolvedDrawn env := by
  intro j token entry hconn
  apply mem_drawn_next hnext
  rcases resolved_before hnext hconn with hold | ⟨deadline, hlookup⟩
  · exact hresolved j token entry hold
  · exact hdrawn.tokens _ (Table.mem_of_lookup hlookup)

theorem run_resolvedDrawn {env : Env} (run : ProxyRun env) :
    ∀ n, (run.state n).ResolvedDrawn env := by
  have hboth : ∀ n, (run.state n).Drawn ∧ (run.state n).ResolvedDrawn env :=
    run.invariant (fun s => s.Drawn ∧ s.ResolvedDrawn env)
      ⟨State.Drawn.initial, by simp [State.ResolvedDrawn, State.initial]⟩
      fun _ _ _ hgood hnext =>
        ⟨hgood.1.next hnext, hgood.2.next hgood.1 hnext⟩
  exact fun n => (hboth n).2

theorem State.BoundTo.next
    {env : Env} {s s' : State} {label : Label} {key : Digest} {u : String}
    (hbound : s.BoundTo env key u) (hnext : s.next env label = some s') :
    s'.BoundTo env key u where
  drawn := mem_drawn_next hnext hbound.drawn
  stored := fun entry hentry =>
    hbound.stored entry (tokens_before hnext hbound.drawn hentry)
  resolved := by
    intro j token entry hconn hkey
    rcases resolved_before hnext hconn with hold | ⟨deadline, hlookup⟩
    · exact hbound.resolved j token entry hold hkey
    · rw [hkey] at hlookup
      exact hbound.stored _ hlookup

theorem boundTo_of_mint
    {env : Env} {s : State} {label : Label} {i : ℕ} {step : Conn.Step}
    {key : Digest} {entry : TokenEntry} {ttl : Duration}
    (hdrawn : s.Drawn) (hresolved : s.ResolvedDrawn env)
    (hnext : s.next env label = some (s.commit i step))
    (hfresh : s.Fresh step.op) (hop : step.op = .mintToken key entry ttl) :
    (s.commit i step).BoundTo env key entry.upstreamId where
  drawn := mintedDigest_mem_commit (by rw [hop]; rfl)
  stored := by
    intro found hfound
    have hnew : key ∉ s.drawn := hfresh.1 key (by rw [hop]; rfl)
    rcases StoreOp.tokens_after hfound with hold | ⟨minted, heq, _⟩
    · exact absurd (hdrawn.tokens key (Table.mem_of_lookup hold)) hnew
    · rw [hop] at heq
      cases heq
      rfl
  resolved := by
    intro j token found hbearer hkey
    have hnew : key ∉ s.drawn := hfresh.1 key (by rw [hop]; rfl)
    rcases resolved_before hnext hbearer with hold | ⟨deadline, hlookup⟩
    · exact absurd (hkey ▸ hresolved j token found hold) hnew
    · rw [hkey] at hlookup
      exact absurd (hdrawn.tokens key (Table.mem_of_lookup hlookup)) hnew

/-! ## The tokens of a refresh grant -/

/-- Request `j` redeemed a refresh token of session `u`, and what it has
minted so far, or returned, belongs to `u`. -/
inductive State.Serves
    (env : Env) (s : State) (j : ℕ) (request : RefreshRequest) (u : String) :
    Prop
  | running (task : RefreshTask)
      (hconn : s.conns j = some (.refreshGrant request (.running task)))
      (hsession : task.session = some u)
      (hminted : ∀ token, task.minted = some token →
        s.BoundTo env (env.digest token) u)
  | finished (response : Option Response)
      (hconn : s.conns j = some (.refreshGrant request (.finished response)))
      (hreturned : ∀ pair scope, response = some (.tokenResponse pair scope) →
        s.BoundTo env (env.digest pair.accessToken) u)

theorem State.Serves.poll
    {env : Env} {s : State} {j : ℕ} {request : RefreshRequest}
    {task : RefreshTask} {choice : Choice} {u : String}
    {step : Conn.Step} (hdrawn : s.Drawn) (hresolved : s.ResolvedDrawn env)
    (hconn : s.conns j = some (.refreshGrant request (.running task)))
    (hsession : task.session = some u)
    (hminted : ∀ token, task.minted = some token →
      s.BoundTo env (env.digest token) u)
    (hstep : (Conn.refreshGrant request (.running task)).step env s.now choice
      s.proxy = some step)
    (hfresh : s.Fresh step.op) :
    (s.commit j step).Serves env j request u := by
  have hnext : s.next env (.poll j choice) = some (s.commit j step) := by
    simp [State.next, hconn, hstep, hfresh]
  simp only [Conn.step, Option.some.injEq] at hstep
  have hafter : (s.commit j step).conns j =
      some (.refreshGrant request
        (task.step env s.now choice s.proxy request).phase) := by
    rw [State.commit_conns_self, ← hstep]
    rfl
  cases hphase : (task.step env s.now choice s.proxy request).phase with
  | running task' =>
      rw [hphase] at hafter
      refine .running task' hafter
        (RefreshTask.session_step hphase hsession) ?_
      intro token htoken
      rcases RefreshTask.minted_step hphase htoken with
        hold | ⟨clientId, v, ttl, hv, hop⟩
      · exact (hminted token hold).next hnext
      · rw [hsession, Option.some.injEq] at hv
        subst hv
        exact boundTo_of_mint hdrawn hresolved hnext hfresh
          (by rw [← hstep]; exact hop)
  | finished response =>
      rw [hphase] at hafter
      refine .finished response hafter ?_
      rintro pair scope rfl
      obtain ⟨v, rfl⟩ := RefreshTask.finish_of_tokenResponse hphase
      exact (hminted pair.accessToken rfl).next hnext

theorem State.Serves.next
    {env : Env} {s s' : State} {label : Label} {j : ℕ}
    {request : RefreshRequest} {u : String} (hdrawn : s.Drawn)
    (hresolved : s.ResolvedDrawn env) (hserves : s.Serves env j request u)
    (hnext : s.next env label = some s') : s'.Serves env j request u := by
  cases hserves with
  | running task hconn hsession hminted =>
      rcases conn_next hnext hconn with hsame |
        ⟨choice, step, -, hstep, hfresh, rfl⟩ | ⟨cancelled, -, hcancel, rfl⟩
      · exact .running task hsame hsession
          fun token htoken => (hminted token htoken).next hnext
      · exact .poll hdrawn hresolved hconn hsession hminted hstep hfresh
      · obtain ⟨phase, hphase, rfl⟩ := Option.map_eq_some_iff.mp hcancel
        have hafter := State.setConn_conns_self s j (.refreshGrant request phase)
        rcases RefreshTask.cancel_cases hphase with
          ⟨_, rfl⟩ | ⟨v, hv, rfl⟩
        · exact .finished none hafter (by simp)
        · refine .running _ hafter ?_ (by simp [RefreshTask.minted])
          rw [← hsession, hv]
          rfl
  | finished response hconn hreturned =>
      rcases conn_next hnext hconn with hsame |
        ⟨choice, step, -, hstep, -, -⟩ | ⟨cancelled, -, hcancel, -⟩
      · exact .finished response hsame
          fun pair scope hpair => (hreturned pair scope hpair).next hnext
      · simp [Conn.step] at hstep
      · simp [Conn.cancel] at hcancel

/-! ## Final revocation -/

/-- The two reads of the middleware accept the token, at one instant, for
session `u`. -/
def State.Authenticates
    (env : Env) (s : State) (token : String) (u : String) : Prop :=
  ∃ entry, (s.proxy.tokens.resolve s.now (env.digest token)).2 = some entry ∧
    entry.upstreamId = u ∧
    (s.proxy.upstreamTokens.accessToken s.now u).isSome

/-- Step `m` takes request `j` through the middleware's lookup for `u`. -/
def PassesLookup
    {env : Env} (run : ProxyRun env) (m j : ℕ) (token u : String) : Prop :=
  ∃ entry access,
    (run.state m).conns j =
      some (.bearer token (.running (.accessToken entry))) ∧
    entry.upstreamId = u ∧
    (run.state (m + 1)).conns j =
      some (.bearer token (.running (.verify access)))

theorem accessToken_of_absent
    {store : UpstreamStore} {now : Instant} {u : String} (habsent : u ∉ store) :
    store.accessToken now u = none := by
  have hlookup : store.lookup u = none := AList.lookup_eq_none.mpr habsent
  simp [UpstreamStore.accessToken, UpstreamStore.live, hlookup]

theorem not_authenticates_of_absent
    {env : Env} {s : State} {token u : String}
    (habsent : u ∉ s.proxy.upstreamTokens) :
    ¬ s.Authenticates env token u := by
  rintro ⟨entry, _, _, hsome⟩
  rw [accessToken_of_absent habsent] at hsome
  simp at hsome

theorem not_passesLookup_of_absent
    {env : Env} (run : ProxyRun env) {m j : ℕ} {token u : String}
    (habsent : u ∉ (run.state m).proxy.upstreamTokens) :
    ¬ PassesLookup run m j token u := by
  rintro ⟨entry, access, hbefore, rfl, hafter⟩
  rcases conn_next (run.step m) hbefore with hsame |
    ⟨choice, step, -, hstep, -, hcommit⟩ | ⟨cancelled, -, hcancel, -⟩
  · rw [hafter] at hsame
    simp at hsame
  · simp only [Conn.step, BearerTask.step, accessToken_of_absent habsent,
      Option.some.injEq] at hstep
    rw [hcommit, State.commit_conns_self, ← hstep] at hafter
    simp [Conn.Step.lift] at hafter
  · simp [Conn.cancel] at hcancel

theorem State.BoundTo.eq_of_authenticates
    {env : Env} {s : State} {token u v : String}
    (hbound : s.BoundTo env (env.digest token) u)
    (hauth : s.Authenticates env token v) : v = u := by
  obtain ⟨entry, hresolve, rfl, _⟩ := hauth
  obtain ⟨deadline, hlookup⟩ := resolve_eq_some hresolve
  exact hbound.stored _ hlookup

theorem serves_after_redemption
    {env : Env} (run : ProxyRun env) {k j : ℕ} {request : RefreshRequest}
    {u : String} (hredeems : RedeemsFor run k j request u) :
    (run.state (k + 1)).Serves env j request u := by
  obtain ⟨hconn, ⟨choice, hlabel⟩, clientId, houtcome⟩ := hredeems
  have hnext := run.step k
  rw [hlabel] at hnext
  obtain ⟨step, hstep, -, hcommit⟩ := next_poll hnext hconn
  simp only [Conn.step, RefreshTask.step, houtcome, Option.some.injEq] at hstep
  have hafter := State.commit_conns_self (run.state k) j step
  rw [← hcommit, ← hstep] at hafter
  simp only [Conn.Step.lift] at hafter
  split at hafter
  · exact .running _ hafter rfl (by simp [RefreshTask.minted])
  · exact .running _ hafter rfl (by simp [RefreshTask.minted])

theorem run_serves
    {env : Env} (run : ProxyRun env) {k m j : ℕ} {request : RefreshRequest}
    {u : String} (hredeems : RedeemsFor run k j request u) (hlt : k < m) :
    (run.state m).Serves env j request u := by
  refine run.stable (fun s => s.Drawn ∧ s.ResolvedDrawn env)
    (fun s => s.Serves env j request u)
    (fun n => ⟨run_drawn run n, run_resolvedDrawn run n⟩) ?_ hlt
    (serves_after_redemption run hredeems)
  exact fun _ _ _ hknown hserves hnext =>
    hserves.next hknown.1 hknown.2 hnext

theorem returned_boundTo
    {env : Env} (run : ProxyRun env) {k n m j : ℕ}
    {request : RefreshRequest} {u : String} {pair : MintedPair}
    {scope : String} (hredeems : RedeemsFor run k j request u) (hkn : k < n)
    (hreturned : (run.state n).conns j =
      some (.refreshGrant request
        (.finished (some (.tokenResponse pair scope)))))
    (hnm : n ≤ m) :
    (run.state m).BoundTo env (env.digest pair.accessToken) u := by
  have hbound : (run.state n).BoundTo env (env.digest pair.accessToken) u := by
    cases run_serves run hredeems hkn with
    | running task hconn hsession hminted =>
        rw [hreturned] at hconn
        simp at hconn
    | finished response hconn hresponse =>
        rw [hreturned] at hconn
        simp only [Option.some.injEq, Conn.refreshGrant.injEq,
          Phase.finished.injEq, true_and] at hconn
        exact hresponse pair scope hconn.symm
  exact run.stable (fun _ => True)
    (fun s => s.BoundTo env (env.digest pair.accessToken) u) (fun _ => trivial)
    (fun _ _ _ _ hgood hnext => hgood.next hnext) hnm hbound

/-- Once a session has left `UpstreamStore` no token passes the middleware
for it, and no pair that a refresh grant for it returns, before or after, is
accepted. -/
theorem removed_session_never_authenticates
    {env : Env} (run : ProxyRun env) {u : String} {n₀ n₁ : ℕ}
    (hle : n₀ ≤ n₁) (hpresent : u ∈ (run.state n₀).proxy.upstreamTokens)
    (hremoved : u ∉ (run.state n₁).proxy.upstreamTokens) :
    (∀ m, n₁ ≤ m → ∀ token, ¬ (run.state m).Authenticates env token u) ∧
    (∀ m, n₁ ≤ m → ∀ j token, ¬ PassesLookup run m j token u) ∧
    (∀ k j request, RedeemsFor run k j request u →
      ∀ n pair scope, k < n →
        (run.state n).conns j = some (.refreshGrant request
          (.finished (some (.tokenResponse pair scope)))) →
        ∀ m, n₁ ≤ m → n ≤ m → ∀ v,
          ¬ (run.state m).Authenticates env pair.accessToken v ∧
          ∀ i, ¬ PassesLookup run m i pair.accessToken v) := by
  have hdrawn : u ∈ (run.state n₁).drawnIds :=
    mem_drawnIds_run run hle ((run_drawn run n₀).sessions u hpresent)
  have habsent : ∀ m, n₁ ≤ m → u ∉ (run.state m).proxy.upstreamTokens :=
    fun m hm => session_absent_run run hm hdrawn hremoved
  refine ⟨fun m hm token => not_authenticates_of_absent (habsent m hm),
    fun m hm j token => not_passesLookup_of_absent run (habsent m hm), ?_⟩
  intro k j request hredeems n pair scope hkn hreturned m hm hnm v
  have hbound := returned_boundTo run hredeems hkn hreturned hnm
  constructor
  · intro hauth
    obtain rfl := hbound.eq_of_authenticates hauth
    exact not_authenticates_of_absent (habsent m hm) hauth
  · rintro i hpasses
    have hsession : v = u := by
      obtain ⟨entry, access, hconn, rfl, _⟩ := hpasses
      exact hbound.resolved i pair.accessToken entry hconn rfl
    subst hsession
    exact not_passesLookup_of_absent run (habsent m hm) hpasses

namespace Sample

/-- Request `i` revokes the first access token. -/
def revocation (i : ℕ) : List Label :=
  .spawn i (.revoke (some (accessTokenPrefix ++ first.access))) ::
    List.replicate 5 (.poll i {})

/-- A revocation that lands between `replace` and the mints of a refresh. -/
def revokedMidRefresh : List Label :=
  first.session 0 ++ refreshUntilReplaced 4 ++ revocation 5 ++
    refreshFromMint 4

theorem revokedMidRefresh_enabled :
    Transition.Enabled (State.next env) State.initial revokedMidRefresh =
      true := by
  decide +kernel

theorem removed_session_never_authenticates_midRefresh :
    (run revokedMidRefresh revokedMidRefresh_enabled).label 25 = .poll 4 {} ∧
    ((run revokedMidRefresh revokedMidRefresh_enabled).state 43).conns 4 =
      some (.refreshGrant refreshRequest
        (.finished (some (.tokenResponse returnedPair "view_issues")))) ∧
    ∀ m, 43 ≤ m → ∀ u,
      ¬ ((run revokedMidRefresh revokedMidRefresh_enabled).state
        m).Authenticates env returnedPair.accessToken u := by
  have hfacts :
      first.sessionId ∈ ((run revokedMidRefresh
        revokedMidRefresh_enabled).state 24).proxy.upstreamTokens ∧
      first.sessionId ∉ ((run revokedMidRefresh
        revokedMidRefresh_enabled).state 43).proxy.upstreamTokens ∧
      ((run revokedMidRefresh revokedMidRefresh_enabled).state 25).conns 4 =
        some (.refreshGrant refreshRequest (.running .redeemCurrent)) ∧
      (((run revokedMidRefresh
        revokedMidRefresh_enabled).state 25).proxy.refreshTokens.redeemCurrent
          ((run revokedMidRefresh revokedMidRefresh_enabled).state 25).now
          (env.digest refreshRequest.refreshToken)).2 =
        .ok first.clientId first.sessionId ∧
      ((run revokedMidRefresh revokedMidRefresh_enabled).state 43).conns 4 =
        some (.refreshGrant refreshRequest
          (.finished (some (.tokenResponse returnedPair "view_issues")))) := by
    decide +kernel
  obtain ⟨hpresent, hremoved, hconn, houtcome, hreturned⟩ := hfacts
  refine ⟨rfl, hreturned, fun m hm u => ?_⟩
  have hfinal := removed_session_never_authenticates
    (run revokedMidRefresh revokedMidRefresh_enabled) (by decide)
    hpresent hremoved
  exact (hfinal.2.2 25 4 refreshRequest
    ⟨hconn, ⟨{}, rfl⟩, first.clientId, houtcome⟩ 43 returnedPair
    "view_issues" (by decide) hreturned m hm hm u).1

end Sample

end RuprogressMcp
