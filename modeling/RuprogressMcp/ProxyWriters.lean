import RuprogressMcp.ProxyEffects

/-!
# Which request performs which critical section

Every section that changes a store is performed at one of a few points of the
handlers.  `Conn.Performs` lists these points, and a step of a request always
performs the section listed for its task.  Case analysis on it recovers the
task from the section.
-/

namespace RuprogressMcp

/-- The section that `take_session` performs at each of its three points. -/
def TakePc.section (upstreamId : String) : TakePc → StoreOp
  | upstream => .takeUpstream upstreamId
  | tokens _ => .removeTokensByUpstream upstreamId
  | refresh _ => .removeRefreshByUpstream upstreamId

theorem takeSession_section
    (proxy : ProxyState) (upstreamId : String) (pc : TakePc) :
    (takeSession proxy upstreamId pc).1 = pc.section upstreamId := by
  cases pc <;> rfl

namespace Conn

/-- The request is inside a call of `take_session`. -/
inductive Taking : Conn → String → TakePc → Prop
  | codeReplay (request : CodeRequest) (upstreamId : String) (pc : TakePc) :
      Taking (.codeGrant request (.running (.replayTake upstreamId pc)))
        upstreamId pc
  | codeRollback (request : CodeRequest) (upstreamId : String)
      (pc : TakePc) :
      Taking (.codeGrant request (.running (.rollback upstreamId pc)))
        upstreamId pc
  | refreshReused (request : RefreshRequest) (upstreamId : String)
      (pc : TakePc) :
      Taking (.refreshGrant request (.running (.reusedTake upstreamId pc)))
        upstreamId pc
  | refreshFailed (request : RefreshRequest) (upstreamId : String)
      (pc : TakePc) :
      Taking (.refreshGrant request (.running (.failedTake upstreamId pc)))
        upstreamId pc
  | revoke (token upstreamId : String) (pc : TakePc) :
      Taking (.revoke token (.running (.takeSession upstreamId pc)))
        upstreamId pc

inductive Performs (env : Env) : Conn → StoreOp → Prop
  | observe (conn : Conn) : Performs env conn .observe
  | take {conn : Conn} {op : StoreOp} (upstreamId : String) (pc : TakePc)
      (htaking : Taking conn upstreamId pc)
      (hop : op = pc.section upstreamId) : Performs env conn op
  | register (request : RegisterRequest) (live : List String)
      (draw : Option String) :
      Performs env (.register request (.running (.register live)))
        (.registerClient request.redirectUris request.clientName live draw)
  | authorizeTouch (query : AuthorizeQuery) (clientId : String)
      (registration : ClientRegistration) :
      Performs env
        (.authorize query (.running (.touch clientId registration)))
        (.touchClient clientId)
  | authorizeCreate (query : AuthorizeQuery)
      (clientId redirectUri codeChallenge : String) (scopes : List String)
      (verifier draw : String) :
      Performs env
        (.authorize query
          (.running (.create clientId redirectUri codeChallenge scopes)))
        (.createTransaction (env.digest draw)
          { clientId, redirectUri, codeChallenge, scopes
            clientState := query.state
            upstreamCodeVerifier := verifier })
  | callbackTake (query : CallbackQuery) (rawState : String) :
      Performs env (.callback query (.running (.take rawState)))
        (.takeTransaction (env.digest rawState))
  | callbackMint (query : CallbackQuery) (transaction : Transaction)
      (set : UpstreamTokenSet) (draw : String) :
      Performs env (.callback query (.running (.mint transaction set)))
        (.mintCode (env.digest (codePrefix ++ draw))
          { clientId := transaction.clientId
            redirectUri := transaction.redirectUri
            codeChallenge := transaction.codeChallenge } set)
  | codeRedeem (request : CodeRequest) :
      Performs env (.codeGrant request (.running .redeemPending))
        (.redeemPending (env.digest request.code))
  | codeRemovePending (request : CodeRequest) :
      Performs env (.codeGrant request (.running .removePending))
        (.removePending (env.digest request.code))
  | codeRemoveUpstream (request : CodeRequest) :
      Performs env (.codeGrant request (.running .removeUpstream))
        (.removeCodeUpstream (env.digest request.code))
  | codeDeleteAccess (request : CodeRequest) (record : ConsumedRecord) :
      Performs env
        (.codeGrant request (.running (.replayDeleteAccess record)))
        (.removeToken record.mintedTokenDigest)
  | codeDeleteRefresh (request : CodeRequest) (record : ConsumedRecord)
      (digest : Digest) :
      Performs env
        (.codeGrant request (.running (.replayDeleteRefresh record digest)))
        (.removeCurrent digest)
  | codeTouch (request : CodeRequest) (set : UpstreamTokenSet) :
      Performs env (.codeGrant request (.running (.touch set)))
        (.touchClient request.clientId)
  | codeSweep (request : CodeRequest) (set : UpstreamTokenSet) :
      Performs env (.codeGrant request (.running (.sweep set)))
        .sweepUpstream
  | codeSweepTokens (request : CodeRequest) (set : UpstreamTokenSet)
      (upstreamId : String) (expired : UpstreamTokenSet)
      (todo : List (String × UpstreamTokenSet))
      (swept : List UpstreamTokenSet) :
      Performs env
        (.codeGrant request
          (.running (.sweepTokens set upstreamId expired todo swept)))
        (.removeTokensByUpstream upstreamId)
  | codeSweepRefresh (request : CodeRequest) (set : UpstreamTokenSet)
      (upstreamId : String) (expired : UpstreamTokenSet)
      (todo : List (String × UpstreamTokenSet))
      (swept : List UpstreamTokenSet) :
      Performs env
        (.codeGrant request
          (.running (.sweepRefresh set upstreamId expired todo swept)))
        (.removeRefreshByUpstream upstreamId)
  | codeInsert (request : CodeRequest) (set : UpstreamTokenSet)
      (ttl : Duration) (deadline : Instant) (id : String) :
      Performs env (.codeGrant request (.running (.insert set ttl deadline)))
        (.insertUpstream id set deadline)
  | codeMintAccess (request : CodeRequest) (upstreamId : String)
      (ttl : Duration) (wantsRefresh : Bool) (scope draw : String) :
      Performs env
        (.codeGrant request
          (.running (.mintAccess upstreamId ttl wantsRefresh scope)))
        (.mintToken (env.digest (accessTokenPrefix ++ draw))
          { upstreamId, clientId := request.clientId } ttl)
  | codeMintRefresh (request : CodeRequest) (upstreamId : String)
      (ttl : Duration) (scope accessToken draw : String) :
      Performs env
        (.codeGrant request
          (.running (.mintRefresh upstreamId ttl scope accessToken)))
        (.mintRefresh (env.digest (refreshTokenPrefix ++ draw))
          request.clientId upstreamId)
  | codeMarkConsumed (request : CodeRequest) (upstreamId : String)
      (pair : MintedPair) (scope : String) :
      Performs env
        (.codeGrant request (.running (.markConsumed upstreamId pair scope)))
        (.markConsumed (env.digest request.code)
          { mintedTokenDigest := pair.accessDigest
            mintedRefreshDigest := pair.refreshDigest, upstreamId })
  | refreshRedeem (request : RefreshRequest) :
      Performs env (.refreshGrant request (.running .redeemCurrent))
        (.redeemCurrent (env.digest request.refreshToken))
  | refreshTouch (request : RefreshRequest) (clientId upstreamId : String) :
      Performs env
        (.refreshGrant request (.running (.touch clientId upstreamId)))
        (.touchClient clientId)
  | refreshDiscardOrphaned (request : RefreshRequest)
      (upstreamId : String) :
      Performs env
        (.refreshGrant request (.running (.discardOrphaned upstreamId)))
        (.removeCurrent (env.digest request.refreshToken))
  | refreshFailedDiscard (request : RefreshRequest) (upstreamId : String) :
      Performs env
        (.refreshGrant request (.running (.failedDiscard upstreamId)))
        (.removeCurrent (env.digest request.refreshToken))
  | refreshReplace (request : RefreshRequest) (clientId upstreamId : String)
      (set : UpstreamTokenSet) (ttl : Duration) :
      Performs env
        (.refreshGrant request
          (.running (.replace clientId upstreamId set ttl)))
        (.replaceUpstream upstreamId set)
  | refreshOrphanDiscard (request : RefreshRequest) (upstreamId : String)
      (set : UpstreamTokenSet) :
      Performs env
        (.refreshGrant request (.running (.orphanDiscard upstreamId set)))
        (.removeCurrent (env.digest request.refreshToken))
  | refreshMintAccess (request : RefreshRequest)
      (clientId upstreamId : String) (ttl : Duration) (wantsRefresh : Bool)
      (scope draw : String) :
      Performs env
        (.refreshGrant request
          (.running (.mintAccess clientId upstreamId ttl wantsRefresh scope)))
        (.mintToken (env.digest (accessTokenPrefix ++ draw))
          { upstreamId, clientId } ttl)
  | refreshMintRefresh (request : RefreshRequest)
      (clientId upstreamId : String) (ttl : Duration)
      (scope accessToken draw : String) :
      Performs env
        (.refreshGrant request
          (.running (.mintRefresh clientId upstreamId ttl scope accessToken)))
        (.mintRefresh (env.digest (refreshTokenPrefix ++ draw)) clientId
          upstreamId)
  | refreshRetireRemove (request : RefreshRequest) (upstreamId : String)
      (pair : MintedPair) (scope : String) :
      Performs env
        (.refreshGrant request
          (.running (.retireRemove upstreamId pair scope)))
        (.removeCurrent (env.digest request.refreshToken))
  | refreshRetireInsert (request : RefreshRequest) (upstreamId : String)
      (pair : MintedPair) (scope : String) :
      Performs env
        (.refreshGrant request
          (.running (.retireInsert upstreamId pair scope)))
        (.insertRetired (env.digest request.refreshToken) upstreamId)
  | refreshRollback (request : RefreshRequest) (upstreamId : String)
      (failure : Option TokenError) :
      Performs env
        (.refreshGrant request (.running (.rollback upstreamId failure)))
        (.dropGuard (env.digest request.refreshToken))
  | refreshFinish (request : RefreshRequest) (upstreamId : String)
      (pair : MintedPair) (scope : String) :
      Performs env
        (.refreshGrant request (.running (.finish upstreamId pair scope)))
        (.dropGuard (env.digest request.refreshToken))
  | revokeToken (token : String) :
      Performs env (.revoke token (.running .takeToken))
        (.removeToken (env.digest token))
  | revokeRefresh (token : String) :
      Performs env (.revoke token (.running .takeRefresh))
        (.removeCurrent (env.digest token))
  | bearerResolve (token : String) :
      Performs env (.bearer token (.running .resolve))
        (.resolveToken (env.digest token))

variable {env : Env} {now : Instant} {choice : Choice} {proxy : ProxyState}

theorem performs_authorize (query : AuthorizeQuery) (task : AuthorizeTask) :
    Performs env (.authorize query (.running task))
      (task.step env now choice proxy query).op := by
  cases task with
  | lookup clientId => exact .observe _
  | touch clientId registration => exact .authorizeTouch ..
  | create clientId redirectUri codeChallenge scopes =>
      simp only [AuthorizeTask.step]
      split
      · exact .observe _
      · exact .observe _
      · exact .authorizeCreate ..

theorem performs_callback (query : CallbackQuery) (task : CallbackTask) :
    Performs env (.callback query (.running task))
      (task.step env now choice proxy query).op := by
  cases task with
  | take rawState => exact .callbackTake ..
  | exchange transaction code => exact .observe _
  | mint transaction set =>
      simp only [CallbackTask.step]
      split
      · exact .observe _
      · exact .callbackMint ..

theorem performs_codeGrant (request : CodeRequest) (task : CodeTask) :
    Performs env (.codeGrant request (.running task))
      (task.step env now choice proxy request).op := by
  cases task with
  | redeemPending => exact .codeRedeem _
  | redeemConsumed => exact .observe _
  | removePending => exact .codeRemovePending _
  | removeUpstream => exact .codeRemoveUpstream _
  | replayDeleteAccess record => exact .codeDeleteAccess ..
  | replayDeleteRefresh record digest => exact .codeDeleteRefresh ..
  | replayTake upstreamId pc =>
      exact .take upstreamId pc (.codeReplay ..)
        (takeSession_section proxy upstreamId pc)
  | touch set => exact .codeTouch ..
  | sweep set => exact .codeSweep ..
  | sweepTokens set upstreamId expired todo swept =>
      exact .codeSweepTokens ..
  | sweepRefresh set upstreamId expired todo swept =>
      exact .codeSweepRefresh ..
  | readTtl set => exact .observe _
  | readDeadline set ttl => exact .observe _
  | insert set ttl deadline =>
      simp only [CodeTask.step]
      split
      · exact .observe _
      · exact .codeInsert ..
  | mintAccess upstreamId ttl wantsRefresh scope =>
      simp only [CodeTask.step]
      split
      · exact .observe _
      · exact .codeMintAccess ..
  | mintRefresh upstreamId ttl scope accessToken =>
      simp only [CodeTask.step]
      split
      · exact .observe _
      · exact .codeMintRefresh ..
  | rollback upstreamId pc =>
      exact .take upstreamId pc (.codeRollback ..)
        (takeSession_section proxy upstreamId pc)
  | markConsumed upstreamId pair scope => exact .codeMarkConsumed ..

theorem performs_refreshGrant (request : RefreshRequest) (task : RefreshTask) :
    Performs env (.refreshGrant request (.running task))
      (task.step env now choice proxy request).op := by
  cases task with
  | redeemCurrent => exact .refreshRedeem _
  | reusedTake upstreamId pc =>
      exact .take upstreamId pc (.refreshReused ..)
        (takeSession_section proxy upstreamId pc)
  | touch clientId upstreamId => exact .refreshTouch ..
  | discardOrphaned upstreamId => exact .refreshDiscardOrphaned ..
  | failedDiscard upstreamId => exact .refreshFailedDiscard ..
  | failedTake upstreamId pc =>
      exact .take upstreamId pc (.refreshFailed ..)
        (takeSession_section proxy upstreamId pc)
  | replace clientId upstreamId set ttl => exact .refreshReplace ..
  | orphanDiscard upstreamId set => exact .refreshOrphanDiscard ..
  | mintAccess clientId upstreamId ttl wantsRefresh scope =>
      simp only [RefreshTask.step]
      split
      · exact .observe _
      · exact .refreshMintAccess ..
  | mintRefresh clientId upstreamId ttl scope accessToken =>
      simp only [RefreshTask.step]
      split
      · exact .observe _
      · exact .refreshMintRefresh ..
  | retireRemove upstreamId pair scope => exact .refreshRetireRemove ..
  | retireInsert upstreamId pair scope => exact .refreshRetireInsert ..
  | rollback upstreamId failure => exact .refreshRollback ..
  | finish upstreamId pair scope => exact .refreshFinish ..
  | _ => exact .observe _

theorem performs_of_step
    {conn : Conn} {step : Step}
    (hstep : conn.step env now choice proxy = some step) :
    Performs env conn step.op := by
  cases advance_of_step hstep with
  | register request task =>
      cases task with
      | register live => exact .register ..
      | _ => exact .observe _
  | authorize query task => exact performs_authorize query task
  | callback query task => exact performs_callback query task
  | codeGrant request task => exact performs_codeGrant request task
  | refreshGrant request task => exact performs_refreshGrant request task
  | revoke token task =>
      cases task with
      | takeToken => exact .revokeToken _
      | takeRefresh => exact .revokeRefresh _
      | takeSession upstreamId pc =>
          exact .take upstreamId pc (.revoke ..)
            (takeSession_section proxy upstreamId pc)
      | revokeUpstream => exact .observe _
  | bearer token task =>
      cases task with
      | resolve => exact .bearerResolve _
      | _ => exact .observe _

end Conn

/-! ## The sections of a run -/

section Runs

variable {env : Env} (run : ProxyRun env)

/-- In step `n` request `i` performs this section. -/
def SectionOf (n i : ℕ) (op : StoreOp) : Prop :=
  ∃ choice conn step, run.label n = .poll i choice ∧
    (run.state n).conns i = some conn ∧
    conn.step env (run.state n).now choice (run.state n).proxy = some step ∧
    step.op = op

variable {run}

theorem SectionOf.commit
    {n i : ℕ} {op : StoreOp} (hsection : SectionOf run n i op) :
    (run.state n).Fresh op ∧
      (run.state (n + 1)).now = (run.state n).now ∧
      (run.state (n + 1)).proxy =
        op.apply (run.state n).now (run.state n).proxy ∧
      ∃ conn, (run.state n).conns i = some conn ∧
        Conn.Performs env conn op := by
  obtain ⟨choice, conn, step, hlabel, hconn, hstep, rfl⟩ := hsection
  have hnext := run.step n
  rw [hlabel] at hnext
  obtain ⟨taken, htaken, hfresh, hcommit⟩ := next_poll hnext hconn
  rw [hstep, Option.some.injEq] at htaken
  subst htaken
  rw [hcommit]
  exact ⟨hfresh, rfl, rfl, conn, hconn, Conn.performs_of_step hstep⟩

theorem section_of_next (run : ProxyRun env) (n : ℕ) :
    (run.state (n + 1)).proxy = (run.state n).proxy ∨
      ∃ i op, SectionOf run n i op ∧
        (run.state (n + 1)).proxy =
          op.apply (run.state n).now (run.state n).proxy := by
  rcases proxy_next (run.step n) with ⟨hproxy, _⟩ |
    ⟨i, choice, conn, step, hlabel, hconn, hstep, _, hcommit⟩
  · exact Or.inl hproxy
  · refine Or.inr ⟨i, step.op, ⟨choice, conn, step, hlabel, hconn, hstep, rfl⟩, ?_⟩
    rw [hcommit]
    rfl

/-- What the stores do not have at one point of a run and have at a later one
was brought about by a section in between. -/
theorem exists_section
    (run : ProxyRun env) (good : ProxyState → Prop) {m n : ℕ} (hle : m ≤ n)
    (hnot : ¬ good (run.state m).proxy) (hgood : good (run.state n).proxy) :
    ∃ k i op, m ≤ k ∧ k < n ∧ SectionOf run k i op ∧
      ¬ good (run.state k).proxy ∧
      good (op.apply (run.state k).now (run.state k).proxy) := by
  obtain ⟨k, hmk, hkn, hbefore, hafter⟩ := Transition.Run.exists_switch
    (fun k => good (run.state k).proxy) hle hnot hgood
  rcases section_of_next run k with hproxy | ⟨i, op, hsection, hproxy⟩
  · rw [hproxy] at hafter
    exact absurd hafter hbefore
  · rw [hproxy] at hafter
    exact ⟨k, i, op, hmk, hkn, hsection, hbefore, hafter⟩

theorem now_le_run {m n : ℕ} (hle : m ≤ n) :
    (run.state m).now ≤ (run.state n).now :=
  run.stable (fun _ => True) (fun s => (run.state m).now ≤ s.now)
    (fun _ => trivial)
    (fun _ _ _ _ hearlier hnext => hearlier.trans (now_le_next hnext)) hle le_rfl

end Runs

end RuprogressMcp
