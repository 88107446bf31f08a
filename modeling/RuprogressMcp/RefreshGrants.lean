import RuprogressMcp.ProxyWriters

/-!
# The course of a refresh grant

A refresh grant that redeemed its token holds the in-flight guard of that
token until it ends.  The session it acts for is fixed by the redemption, and
it can end with a token pair only after the token has been retired.
-/

namespace RuprogressMcp

namespace RefreshTask

/-- The session of the redeemed token, while the request holds its guard. -/
def session : RefreshTask → Option String
  | redeemCurrent => none
  | redeemRetired => none
  | reusedTake _ _ => none
  | reusedRevoke => none
  | touch _ upstreamId => some upstreamId
  | readRefresh _ upstreamId => some upstreamId
  | discardOrphaned upstreamId => some upstreamId
  | readScopes _ upstreamId _ => some upstreamId
  | upstreamRefresh _ upstreamId _ _ => some upstreamId
  | failedDiscard upstreamId => some upstreamId
  | failedTake upstreamId _ => some upstreamId
  | readTtl _ upstreamId _ => some upstreamId
  | replace _ upstreamId _ _ => some upstreamId
  | orphanDiscard upstreamId _ => some upstreamId
  | orphanRevoke upstreamId => some upstreamId
  | mintAccess _ upstreamId _ _ _ => some upstreamId
  | mintRefresh _ upstreamId _ _ _ => some upstreamId
  | retireRemove upstreamId _ _ => some upstreamId
  | retireInsert upstreamId _ _ => some upstreamId
  | rollback upstreamId _ => some upstreamId
  | finish upstreamId _ _ => some upstreamId

/-- The access token that the request has minted and still means to return. -/
def minted : RefreshTask → Option String
  | mintRefresh _ _ _ _ accessToken => some accessToken
  | retireRemove _ pair _ => some pair.accessToken
  | retireInsert _ pair _ => some pair.accessToken
  | finish _ pair _ => some pair.accessToken
  | _ => none

variable {env : Env} {now : Instant} {choice : Choice} {proxy : ProxyState}
  {request : RefreshRequest} {task task' : RefreshTask} {u : String}

theorem session_step
    (hphase : (task.step env now choice proxy request).phase = .running task')
    (hsession : task.session = some u) : task'.session = some u := by
  cases task
  all_goals simp only [session, Option.some.injEq, reduceCtorEq] at hsession
  all_goals
    subst hsession
    simp only [step] at hphase
    repeat' split at hphase
  all_goals simp only [Phase.running.injEq, reduceCtorEq] at hphase
  all_goals
    subst hphase
    rfl

theorem finish_of_tokenResponse
    {pair : MintedPair} {scope : String}
    (hphase : (task.step env now choice proxy request).phase =
      .finished (some (.tokenResponse pair scope))) :
    ∃ u, task = finish u pair scope := by
  cases task
  case finish u returned granted =>
    simp only [step, Phase.finished.injEq, Option.some.injEq,
      Response.tokenResponse.injEq] at hphase
    obtain ⟨rfl, rfl⟩ := hphase
    exact ⟨u, rfl⟩
  all_goals
    simp only [step] at hphase
    repeat' split at hphase
  all_goals
    simp [Phase.failed] at hphase

theorem minted_step
    {token : String}
    (hphase : (task.step env now choice proxy request).phase = .running task')
    (hminted : task'.minted = some token) :
    task.minted = some token ∨
      ∃ clientId u ttl, task.session = some u ∧
        (task.step env now choice proxy request).op =
          .mintToken (env.digest token) { upstreamId := u, clientId } ttl := by
  cases task
  case mintAccess clientId u ttl wantsRefresh scope =>
    simp only [step] at hphase ⊢
    cases hdraw : choice.draw with
    | none =>
        simp only [hdraw, Phase.running.injEq] at hphase
        subst hphase
        simp [minted] at hminted
    | some draw =>
        simp only [hdraw] at hphase ⊢
        right
        repeat' split at hphase
        all_goals
          simp only [Phase.running.injEq] at hphase
          subst hphase
          simp only [minted, Option.some.injEq, reduceCtorEq] at hminted
        all_goals
          subst hminted
          exact ⟨clientId, u, ttl, rfl, rfl⟩
  all_goals
    left
    simp only [step] at hphase
    repeat' split at hphase
  all_goals simp only [Phase.running.injEq, Phase.failed, reduceCtorEq] at hphase
  all_goals
    subst hphase
    simp_all [minted]

theorem cancel_cases
    {phase : Phase RefreshTask} (hcancel : task.cancel = some phase) :
    (task.session = none ∧ phase = .finished none) ∨
      ∃ u, task.session = some u ∧ phase = .running (.rollback u none) := by
  cases task
  all_goals simp only [cancel, Option.some.injEq, reduceCtorEq] at hcancel
  all_goals
    subst hcancel
    simp [session]

end RefreshTask

/-- In step `k` request `j` redeems a refresh token of session `u`. -/
def RedeemsFor
    {env : Env} (run : ProxyRun env) (k j : ℕ) (request : RefreshRequest)
    (u : String) : Prop :=
  (run.state k).conns j = some (.refreshGrant request (.running .redeemCurrent)) ∧
    (∃ choice, run.label k = .poll j choice) ∧
    ∃ clientId, ((run.state k).proxy.refreshTokens.redeemCurrent
      (run.state k).now (env.digest request.refreshToken)).2 =
        .ok clientId u

/-! ## A sample refresh -/

namespace Sample

def rotatedAccess : String := "BgYGBgYGBgYGBgYGBgYGBgYGBgYGBgYGBgYGBgYGBgY"

def rotatedRefresh : String := "BwcHBwcHBwcHBwcHBwcHBwcHBwcHBwcHBwcHBwcHBwc"

def refreshRequest : RefreshRequest where
  refreshToken := refreshTokenPrefix ++ first.refresh
  clientId := first.clientId

def refreshAnswer : UpstreamToken where
  accessToken := "upstream-access-2"
  refreshToken := some "upstream-refresh-2"
  expiresIn := some 7200
  scope := none

/-- Request `i` presents the first refresh token and gets past `replace`. -/
def refreshUntilReplaced (i : ℕ) : List Label :=
  .spawn i (.refreshGrant
    { refreshToken := some refreshRequest.refreshToken
      clientId := some refreshRequest.clientId }) ::
    List.replicate 4 (.poll i {}) ++
    [.poll i { answer := some refreshAnswer }, .poll i {}, .poll i {}]

/-- The two mints of request `i` and the retirement of the old token. -/
def refreshFromMint (i : ℕ) : List Label :=
  [.poll i { draw := some rotatedAccess },
    .poll i { draw := some rotatedRefresh },
    .poll i {}, .poll i {}, .poll i {}]

def returnedPair : MintedPair where
  accessToken := accessTokenPrefix ++ rotatedAccess
  accessDigest := env.digest (accessTokenPrefix ++ rotatedAccess)
  refreshToken := some (refreshTokenPrefix ++ rotatedRefresh)
  refreshDigest := some (env.digest (refreshTokenPrefix ++ rotatedRefresh))
  ttl := seconds 7200

end Sample

end RuprogressMcp
