import RuprogressMcp.CodeRedemption
import RuprogressMcp.ProxyRevocation
import RuprogressMcp.RefreshRotation

/-!
# Containment of a replayed code

A redemption that finds the record of an earlier one deletes the recorded
tokens and takes the session.  It contains the replay when it reads the record
at all: between the removal of the code and the record nothing remembers the
code.  It also has to find the session, or at least no refresh token of it,
and no refresh grant may mint for the session once the purge is over.
-/

namespace RuprogressMcp

/-- No current refresh entry names session `u`. -/
def State.NoRefresh (s : State) (u : String) : Prop :=
  ∀ key entry, s.proxy.refreshTokens.current.lookup key = some entry →
    entry.1.upstreamId ≠ u

theorem refreshEntry_before
    {env : Env} {s s' : State} {label : Label} {key : Digest}
    {entry : RefreshOwner × Instant} (hnext : s.next env label = some s')
    (hentry : s'.proxy.refreshTokens.current.lookup key = some entry) :
    (∃ earlier, s.proxy.refreshTokens.current.lookup key = some earlier ∧
        earlier.1.upstreamId = entry.1.upstreamId) ∨
      ∃ i choice conn step clientId, label = .poll i choice ∧
        s.conns i = some conn ∧
        conn.step env s.now choice s.proxy = some step ∧
        step.op = .mintRefresh key clientId entry.1.upstreamId ∧
        (s.proxy.refreshTokens.mint s.now key clientId
          entry.1.upstreamId).2 = true := by
  rcases proxy_next hnext with ⟨hproxy, _⟩ |
    ⟨i, choice, conn, step, hlabel, hconn, hstep, _, rfl⟩
  · rw [hproxy] at hentry
    exact Or.inl ⟨entry, hentry, rfl⟩
  · rcases StoreOp.current_after hentry with
      hold | ⟨hop, _, hroom⟩ | ⟨_, _, _, hold⟩ | ⟨_, _, hold⟩
    · exact Or.inl ⟨_, hold, rfl⟩
    · exact Or.inr ⟨i, choice, conn, step, _, hlabel, hconn, hstep, hop, hroom⟩
    · exact Or.inl ⟨_, hold, rfl⟩
    · exact Or.inl ⟨_, hold, rfl⟩

/-! ## The session of a code grant was drawn -/

def CodeTask.stored : CodeTask → Option String
  | mintAccess upstreamId _ _ _ => some upstreamId
  | mintRefresh upstreamId _ _ _ => some upstreamId
  | markConsumed upstreamId _ _ => some upstreamId
  | _ => none

theorem codeTask_stored_step
    {env : Env} {now : Instant} {choice : Choice} {proxy : ProxyState}
    {request : CodeRequest} {task task' : CodeTask} {u : String}
    (hphase : (task.step env now choice proxy request).phase = .running task')
    (hstored : task'.stored = some u) :
    task.stored = some u ∨
      (task.step env now choice proxy request).op.mintedId = some u := by
  cases task
  case insert set ttl deadline =>
    right
    simp only [CodeTask.step] at hphase ⊢
    cases hdraw : choice.draw with
    | none => simp [hdraw, Phase.failed] at hphase
    | some id =>
        simp only [hdraw] at hphase ⊢
        split at hphase
        next =>
          simp only [Phase.running.injEq] at hphase
          subst hphase
          exact hstored
        next => simp [Phase.failed] at hphase
  all_goals
    left
    simp only [CodeTask.step, CodeTask.sweepNext] at hphase
    repeat' split at hphase
  all_goals simp only [Phase.running.injEq, Phase.failed, reduceCtorEq] at hphase
  all_goals
    subst hphase
    simp_all [CodeTask.stored]

theorem stored_drawn
    {env : Env} (run : ProxyRun env) {n i : ℕ} {request : CodeRequest}
    {task : CodeTask} {u : String}
    (hconn : (run.state n).conns i =
      some (.codeGrant request (.running task)))
    (hstored : task.stored = some u) : u ∈ (run.state n).drawnIds := by
  induction n generalizing task with
  | zero => simp [run.start, State.initial] at hconn
  | succ n ih =>
      rcases conn_before (run.step n) hconn with hold | ⟨request', _, hstart⟩ |
        ⟨choice, before, step, _, hbefore, hpolled, _, hcommit, hafter⟩ |
        ⟨before, _, _, hcancel⟩
      · exact mem_drawnIds_next (run.step n) (ih hold hstored)
      · cases request' <;> simp only [Conn.start] at hstart
        all_goals try split at hstart
        all_goals simp [CodeTask.start] at hstart
        rw [hstart.2] at hstored
        simp [CodeTask.stored] at hstored
      · cases Conn.advance_of_step hpolled with
        | codeGrant request' task' =>
            simp only [Conn.Step.lift, Conn.codeGrant.injEq] at hafter
            obtain ⟨rfl, hphase⟩ := hafter
            rcases codeTask_stored_step hphase hstored with hold | hminted
            · exact mem_drawnIds_next (run.step n) (ih hbefore hold)
            · rw [hcommit]
              exact mintedId_mem_commit hminted
        | _ => simp [Conn.Step.lift] at hafter
      · unfold Conn.cancel at hcancel
        split at hcancel
        all_goals simp at hcancel

/-! ## The course of a replay -/

/-- Request `j` contains a replay for session `u`. -/
inductive State.Containing
    (s : State) (j : ℕ) (request : CodeRequest) (u : String) : Prop
  | deleteAccess (record : ConsumedRecord)
      (hconn : s.conns j = some (.codeGrant request
        (.running (.replayDeleteAccess record))))
      (hrecord : record.upstreamId = u)
  | deleteRefresh (record : ConsumedRecord) (digest : Digest)
      (hconn : s.conns j = some (.codeGrant request
        (.running (.replayDeleteRefresh record digest))))
      (hrecord : record.upstreamId = u)
  | take (hconn : s.conns j = some (.codeGrant request
      (.running (.replayTake u .upstream))))
  | tokens (set : UpstreamTokenSet)
      (hconn : s.conns j = some (.codeGrant request
        (.running (.replayTake u (.tokens set)))))
      (habsent : u ∉ s.proxy.upstreamTokens)
  | refresh (set : UpstreamTokenSet)
      (hconn : s.conns j = some (.codeGrant request
        (.running (.replayTake u (.refresh set)))))
      (habsent : u ∉ s.proxy.upstreamTokens)
  | done (response : Option Response)
      (hconn : s.conns j = some (.codeGrant request (.finished response)))
      (habsent : u ∉ s.proxy.upstreamTokens) (hpurged : s.NoRefresh u)

theorem noRefresh_next
    {env : Env} {s s' : State} {label : Label} {u : String}
    (hnone : s.NoRefresh u) (hnext : s.next env label = some s')
    (hmint : ∀ i choice conn step key clientId, label = .poll i choice →
      s.conns i = some conn →
      conn.step env s.now choice s.proxy = some step →
      step.op = .mintRefresh key clientId u →
      (s.proxy.refreshTokens.mint s.now key clientId u).2 = false) :
    s'.NoRefresh u := by
  rintro key entry hentry rfl
  rcases refreshEntry_before hnext hentry with ⟨earlier, hearlier, hsame⟩ |
    ⟨i, choice, conn, step, clientId, hlabel, hconn, hstep, hop, hroom⟩
  · exact hnone key earlier hearlier hsame
  · rw [hmint i choice conn step key clientId hlabel hconn hstep hop] at hroom
    exact Bool.false_ne_true hroom

theorem State.Containing.next
    {env : Env} {s s' : State} {label : Label} {j : ℕ}
    {request : CodeRequest} {u : String} (hcontaining : s.Containing j request u)
    (hids : u ∈ s.drawnIds)
    (hfound : ∀ choice, label = .poll j choice →
      s.conns j = some (.codeGrant request
        (.running (.replayTake u .upstream))) →
      u ∈ s.proxy.upstreamTokens ∨ s.NoRefresh u)
    (hmint : ∀ i choice conn step key clientId, label = .poll i choice →
      s.conns i = some conn →
      conn.step env s.now choice s.proxy = some step →
      step.op = .mintRefresh key clientId u →
      (s.proxy.refreshTokens.mint s.now key clientId u).2 = true →
      u ∈ s.proxy.upstreamTokens ∨
        ∃ conn, s.conns j = some conn ∧ conn.inProgress = true)
    (hnext : s.next env label = some s') : s'.Containing j request u := by
  cases hcontaining with
  | deleteAccess record hconn hrecord =>
      rcases codeGrant_next hnext hconn with hsame | ⟨choice, _, hafter, _⟩
      · exact .deleteAccess record hsame hrecord
      · simp only [CodeTask.step] at hafter
        cases hdigest : record.mintedRefreshDigest with
        | some digest =>
            rw [hdigest] at hafter
            exact .deleteRefresh record digest hafter hrecord
        | none =>
            rw [hdigest, hrecord] at hafter
            exact .take hafter
  | deleteRefresh record digest hconn hrecord =>
      rcases codeGrant_next hnext hconn with hsame | ⟨choice, _, hafter, _⟩
      · exact .deleteRefresh record digest hsame hrecord
      · simp only [CodeTask.step] at hafter
        rw [hrecord] at hafter
        exact .take hafter
  | take hconn =>
      rcases codeGrant_next hnext hconn with
        hsame | ⟨choice, hlabel, hafter, hproxy⟩
      · exact .take hsame
      · have habsent : u ∉ s'.proxy.upstreamTokens := by
          rw [hproxy]
          simp [CodeTask.step, takeSession, StoreOp.apply, UpstreamStore.take,
            AList.mem_erase]
        simp only [CodeTask.step, takeSession] at hafter
        cases hlookup : s.proxy.upstreamTokens.lookup u with
        | some entry =>
            simp only [UpstreamStore.take, hlookup, Option.map_some] at hafter
            exact .tokens _ hafter habsent
        | none =>
            simp only [UpstreamStore.take, hlookup, Option.map_none] at hafter
            refine .done _ hafter habsent ?_
            have hnone := (hfound choice hlabel hconn).resolve_left
              (AList.lookup_eq_none.mp hlookup)
            intro key entry hentry
            rw [hproxy] at hentry
            exact hnone key entry hentry
  | tokens set hconn habsent =>
      have hstays := session_absent_next hnext hids habsent
      rcases codeGrant_next hnext hconn with hsame | ⟨choice, _, hafter, _⟩
      · exact .tokens set hsame hstays
      · exact .refresh set hafter hstays
  | refresh set hconn habsent =>
      have hstays := session_absent_next hnext hids habsent
      rcases codeGrant_next hnext hconn with hsame | ⟨choice, _, hafter, hproxy⟩
      · exact .refresh set hsame hstays
      · refine .done _ hafter hstays ?_
        intro key entry hentry
        rw [hproxy] at hentry
        have hkept := (Table.lookup_retain_eq_some.mp hentry).2
        simpa using hkept
  | done response hconn habsent hpurged =>
      refine .done response (ended_next hnext hconn rfl)
        (session_absent_next hnext hids habsent) ?_
      refine noRefresh_next hpurged hnext ?_
      intro i choice conn step key clientId hlabel hpolled hstep hop
      by_contra hroom
      rw [Bool.not_eq_false] at hroom
      rcases hmint i choice conn step key clientId hlabel hpolled hstep hop
        hroom with hpresent | ⟨running, hrunning, hprogress⟩
      · exact habsent hpresent
      · rw [hconn, Option.some.injEq] at hrunning
        rw [← hrunning] at hprogress
        simp [Conn.inProgress] at hprogress

/-! ## A replay and its containment -/

/-- Request `i` redeems a code in step `e`, mints for session `u` and records
the code in step `r`.  Another request presents the code: its `redeem` starts
in step `a`, after the redemption and before the record expires, and returns
in step `b`. -/
structure ReplayOf
    {env : Env} (run : ProxyRun env) (i j : ℕ)
    (request request' : CodeRequest) (u : String) (e r a b : ℕ) : Prop where
  redeems : ∃ start set, CodeRedeems run i request start e (.ok set)
  records : ∃ choice pair scope, run.label r = .poll i choice ∧
    (run.state r).conns i = some (.codeGrant request
      (.running (.markConsumed u pair scope)))
  room : (sweepAndCheckCapacity (run.state r).now
    (run.state r).proxy.codes.consumed (env.digest request.code)).2 = true
  other : j ≠ i
  same : env.digest request'.code = env.digest request.code
  presents : ∃ outcome, CodeRedeems run j request' a b outcome
  starts : e < a
  in_time : (run.state a).now < expiresAfter (run.state r).now codeTtl

/-- The replay reads the record, between the record and its expiry.  When it
comes to take the session, the session is there or has no refresh token left.
A refresh token of the session, where there is room for one, is minted only
while the session is there or the replay has not ended. -/
structure Contains
    {env : Env} (run : ProxyRun env) (j : ℕ) (request' : CodeRequest)
    (u : String) (r b : ℕ) : Prop where
  recorded : r < b
  unexpired : (run.state b).now < expiresAfter (run.state r).now codeTtl
  found : ∀ t choice, b < t → run.label t = .poll j choice →
    (run.state t).conns j = some (.codeGrant request'
      (.running (.replayTake u .upstream))) →
    u ∈ (run.state t).proxy.upstreamTokens ∨ (run.state t).NoRefresh u
  mints : ∀ m key clientId, b < m →
    PerformsAt run m (.mintRefresh key clientId u) →
    ((run.state m).proxy.refreshTokens.mint (run.state m).now key clientId
      u).2 = true →
    u ∈ (run.state m).proxy.upstreamTokens ∨
      ∃ conn, (run.state m).conns j = some conn ∧ conn.inProgress = true

/-- No token of the session is accepted. -/
def State.SessionDead (env : Env) (s : State) (u : String) : Prop :=
  (∀ token, ¬ s.Authenticates env token u) ∧
    ∀ key clientId,
      (s.proxy.refreshTokens.redeemCurrent s.now key).2 ≠ .ok clientId u

section Replay

variable {env : Env} {run : ProxyRun env} {i j : ℕ}
  {request request' : CodeRequest} {u : String} {e r a b : ℕ}

theorem ReplayOf.marks
    (hreplay : ReplayOf run i j request request' u e r a b) :
    ∃ record, record.upstreamId = u ∧ PerformsAt run r
      (.markConsumed (env.digest request.code) record) := by
  obtain ⟨choice, pair, scope, hlabel, hconn⟩ := hreplay.records
  exact ⟨_, rfl, i, choice, _, _, hlabel, hconn, rfl, rfl⟩

theorem ReplayOf.session_drawn
    (hreplay : ReplayOf run i j request request' u e r a b) :
    u ∈ (run.state r).drawnIds := by
  obtain ⟨choice, pair, scope, _, hconn⟩ := hreplay.records
  exact stored_drawn run hconn rfl

theorem ReplayOf.reads
    (hreplay : ReplayOf run i j request request' u e r a b) :
    (∃ choice, run.label b = .poll j choice) ∧
      (run.state b).conns j =
        some (.codeGrant request' (.running .redeemConsumed)) := by
  obtain ⟨start, set, hredeems⟩ := hreplay.redeems
  obtain ⟨_, hconn, _, _⟩ := hredeems.takes
  have hstage : (run.state e).codeStage env i =
      some (env.digest request.code, .removed) := by
    simp [State.codeStage, hconn, Conn.codeStage, CodeTask.stage]
  have hcodes := run_codesOwned run e
  have habsent : env.digest request'.code ∉
      (run.state a).proxy.codes.pending := by
    rw [hreplay.same]
    have hboth : env.digest request.code ∈ (run.state a).drawn ∧
        env.digest request.code ∉ (run.state a).proxy.codes.pending :=
      run.stable (fun _ => True)
        (fun s => env.digest request.code ∈ s.drawn ∧
          env.digest request.code ∉ s.proxy.codes.pending)
        (fun _ => trivial)
        (fun _ _ _ _ hgood hnext => ⟨mem_drawn_next hnext hgood.1,
          pending_absent_next hnext hgood.1 hgood.2⟩)
        hreplay.starts.le
        ⟨hcodes.drawn i _ _ hstage, hcodes.removed i _ _ hstage (by simp)⟩
    exact hboth.2
  have hnone : ((run.state a).proxy.codes.redeemPending (run.state a).now
      (env.digest request'.code)).2 = none := by
    simp [CodeStore.redeemPending, AList.lookup_eq_none.mpr habsent]
  obtain ⟨outcome, hpresents⟩ := hreplay.presents
  cases hpresents with
  | mismatch choice entry hlabel hconn hpending hbindings =>
      rw [hnone] at hpending
      simp at hpending
  | consumed _ hlt choice choice' hlabel hconn hpending hlabel' hconn' =>
      exact ⟨⟨choice', hlabel'⟩, hconn'⟩
  | matched _ hlt choice entry hcheck hlabel hconn =>
      rw [hcheck.pending] at hnone
      simp at hnone

theorem ReplayOf.containing
    (hreplay : ReplayOf run i j request request' u e r a b)
    (hcontains : Contains run j request' u r b) :
    (run.state (b + 1)).Containing j request' u := by
  obtain ⟨record, hrecord, hmark⟩ := hreplay.marks
  have hlookup := consumed_of_recorded hmark hreplay.room hcontains.recorded
    hcontains.unexpired
  have hanswer := redeemConsumed_of_lookup hlookup hcontains.unexpired
  obtain ⟨⟨choice, hlabel⟩, hconn⟩ := hreplay.reads
  have hnext := run.step b
  rw [hlabel] at hnext
  obtain ⟨step, hstep, _, hcommit⟩ := next_poll hnext hconn
  simp only [Conn.step, CodeTask.step, hreplay.same, hanswer,
    Option.some.injEq] at hstep
  have hafter := State.commit_conns_self (run.state b) j step
  rw [← hcommit, ← hstep] at hafter
  exact .deleteAccess record hafter hrecord

theorem ReplayOf.containing_run
    (hreplay : ReplayOf run i j request request' u e r a b)
    (hcontains : Contains run j request' u r b) {n : ℕ} (hlt : b < n) :
    (run.state n).Containing j request' u := by
  induction n, hlt using Nat.le_induction with
  | base => exact hreplay.containing hcontains
  | succ n hn ih =>
      refine ih.next ?_ ?_ ?_ (run.step n)
      · have hrecorded := hcontains.recorded
        exact mem_drawnIds_run run (by omega) hreplay.session_drawn
      · exact fun choice => hcontains.found n choice hn
      · intro p choice conn step key clientId hlabel hconn hstep hop hroom
        exact hcontains.mints n key clientId hn
          ⟨p, choice, conn, step, hlabel, hconn, hstep, hop⟩ hroom

/-- In every run in which the containment of a replay meets its conditions, no
token of the session is accepted once the replay has ended. -/
theorem replay_costs_session
    (hreplay : ReplayOf run i j request request' u e r a b)
    (hcontains : Contains run j request' u r b) {n : ℕ} (hlt : b < n)
    (hended : ∃ conn, (run.state n).conns j = some conn ∧
      conn.inProgress = false) :
    ∀ m, n ≤ m → (run.state m).SessionDead env u := by
  intro m hm
  obtain ⟨conn, hconn, hended⟩ := hended
  have hconn := ended_run run hconn hended hm
  cases hreplay.containing_run hcontains (hlt.trans_le hm) with
  | done response hdone habsent hpurged =>
      refine ⟨fun token => not_authenticates_of_absent habsent, ?_⟩
      intro key clientId houtcome
      obtain ⟨deadline, hlookup, _⟩ := redeemCurrent_ok houtcome
      exact hpurged key _ hlookup rfl
  | deleteAccess record hrunning =>
      rw [hconn, Option.some.injEq] at hrunning
      simp [hrunning, Conn.inProgress] at hended
  | deleteRefresh record digest hrunning =>
      rw [hconn, Option.some.injEq] at hrunning
      simp [hrunning, Conn.inProgress] at hended
  | take hrunning =>
      rw [hconn, Option.some.injEq] at hrunning
      simp [hrunning, Conn.inProgress] at hended
  | tokens set hrunning =>
      rw [hconn, Option.some.injEq] at hrunning
      simp [hrunning, Conn.inProgress] at hended
  | refresh set hrunning =>
      rw [hconn, Option.some.injEq] at hrunning
      simp [hrunning, Conn.inProgress] at hended

end Replay

namespace Sample

def boundCode : PendingCode where
  clientId := first.clientId
  redirectUri := redirectUri
  codeChallenge := challenge

/-- Request 4 presents the code after request 3 has taken it and before it
records it. -/
def replayInWindow : List Label :=
  first.authorization 0 ++ (first.codeGrant 3).take 4 ++
    [.spawn 4 first.codeRequest, .poll 4 {}, .poll 4 {}] ++
    (first.codeGrant 3).drop 4

theorem replayInWindow_enabled :
    Transition.Enabled (State.next env) State.initial replayInWindow =
      true := by
  decide +kernel

/-- The replay is answered `Invalid` and the session lives on. -/
theorem replay_missed_in_window :
    ¬ ∀ (run : ProxyRun env) (i j : ℕ) (request request' : CodeRequest)
        (u : String) (e r a b n : ℕ) (conn conn' : Conn),
      ReplayOf run i j request request' u e r a b → r < n → b < n →
      (run.state n).conns i = some conn → conn.inProgress = false →
      (run.state n).conns j = some conn' → conn'.inProgress = false →
      (run.state n).SessionDead env u := by
  intro hclaim
  have hredeems :
      ((run replayInWindow replayInWindow_enabled).state 13).conns 3 =
        some (.codeGrant codeGrantRequest (.running .redeemPending)) ∧
      (((run replayInWindow
        replayInWindow_enabled).state 13).proxy.codes.redeemPending
          ((run replayInWindow replayInWindow_enabled).state 13).now
          (env.digest codeGrantRequest.code)).2 = some boundCode ∧
      CodeTask.bindingsMatch env boundCode codeGrantRequest = true ∧
      ((run replayInWindow replayInWindow_enabled).state 15).conns 3 =
        some (.codeGrant codeGrantRequest (.running .removeUpstream)) ∧
      ((run replayInWindow
        replayInWindow_enabled).state 15).proxy.codes.upstream.lookup
          (env.digest codeGrantRequest.code) = some upstreamSet := by
    decide +kernel
  have hpresents :
      ((run replayInWindow replayInWindow_enabled).state 17).conns 4 =
        some (.codeGrant codeGrantRequest (.running .redeemPending)) ∧
      (((run replayInWindow
        replayInWindow_enabled).state 17).proxy.codes.redeemPending
          ((run replayInWindow replayInWindow_enabled).state 17).now
          (env.digest codeGrantRequest.code)).2 = none ∧
      ((run replayInWindow replayInWindow_enabled).state 18).conns 4 =
        some (.codeGrant codeGrantRequest (.running .redeemConsumed)) ∧
      ((run replayInWindow replayInWindow_enabled).state 17).now <
        expiresAfter
          ((run replayInWindow replayInWindow_enabled).state 26).now
          codeTtl := by
    decide +kernel
  have hrecords :
      ((run replayInWindow replayInWindow_enabled).state 26).conns 3 =
        some (.codeGrant codeGrantRequest (.running
          (.markConsumed first.sessionId mintedPair "view_issues"))) ∧
      (sweepAndCheckCapacity
        ((run replayInWindow replayInWindow_enabled).state 26).now
        ((run replayInWindow
          replayInWindow_enabled).state 26).proxy.codes.consumed
        (env.digest codeGrantRequest.code)).2 = true := by
    decide +kernel
  have hends :
      ((run replayInWindow replayInWindow_enabled).state 27).conns 3 =
        some (.codeGrant codeGrantRequest (.finished
          (some (.tokenResponse mintedPair "view_issues")))) ∧
      ((run replayInWindow replayInWindow_enabled).state 27).conns 4 =
        some (.codeGrant codeGrantRequest (.failed invalidGrant)) ∧
      (((run replayInWindow
        replayInWindow_enabled).state 27).proxy.tokens.resolve
          ((run replayInWindow replayInWindow_enabled).state 27).now
          (env.digest mintedPair.accessToken)).2 =
        some { upstreamId := first.sessionId, clientId := first.clientId } ∧
      (((run replayInWindow
        replayInWindow_enabled).state 27).proxy.upstreamTokens.accessToken
          ((run replayInWindow replayInWindow_enabled).state 27).now
          first.sessionId).isSome = true := by
    decide +kernel
  obtain ⟨hfirst, hpending, hbindings, hremoves, hset⟩ := hredeems
  obtain ⟨hsecond, hnone, hreads, htime⟩ := hpresents
  obtain ⟨hmark, hroom⟩ := hrecords
  obtain ⟨hended, hended', hresolve, haccess⟩ := hends
  have hcheck : PassesCheck (run replayInWindow replayInWindow_enabled) 13 3
      codeGrantRequest boundCode :=
    ⟨⟨{}, rfl⟩, hfirst, hpending, hbindings⟩
  have hok := CodeRedeems.matched 13 15 (by decide) {} boundCode hcheck rfl
    hremoves
  rw [hset] at hok
  have hdead := hclaim (run replayInWindow replayInWindow_enabled) 3 4
    codeGrantRequest codeGrantRequest first.sessionId 15 26 17 18 27 _ _
    { redeems := ⟨13, upstreamSet, hok⟩
      records := ⟨{}, mintedPair, "view_issues", rfl, hmark⟩
      room := hroom
      other := by decide
      same := rfl
      presents := ⟨_, .consumed 17 18 (by decide) {} {} rfl hsecond hnone rfl
        hreads⟩
      starts := by decide
      in_time := htime }
    (by decide) (by decide) hended rfl hended' rfl
  exact hdead.1 mintedPair.accessToken ⟨_, hresolve, rfl, haccess⟩

/-- Request 4 presents the code after request 3 has recorded it. -/
def replayAfterwards : List Label :=
  first.session 0 ++ .spawn 4 first.codeRequest ::
    List.replicate 7 (.poll 4 {})

theorem replayAfterwards_enabled :
    Transition.Enabled (State.next env) State.initial replayAfterwards =
      true := by
  decide +kernel

theorem replayAfterwards_contains :
    Contains (run replayAfterwards replayAfterwards_enabled) 4
      codeGrantRequest first.sessionId 23 26 := by
  have hfacts :
      first.sessionId ∈ ((run replayAfterwards
        replayAfterwards_enabled).state 29).proxy.upstreamTokens ∧
      ((run replayAfterwards replayAfterwards_enabled).state 30).conns 4 =
        some (.codeGrant codeGrantRequest (.running
          (.replayTake first.sessionId (.tokens upstreamSet)))) ∧
      ((run replayAfterwards replayAfterwards_enabled).state 31).conns 4 =
        some (.codeGrant codeGrantRequest (.running
          (.replayTake first.sessionId (.refresh upstreamSet)))) ∧
      ((run replayAfterwards replayAfterwards_enabled).state 26).conns 4 =
        some (.codeGrant codeGrantRequest (.running .redeemConsumed)) ∧
      first.sessionId ∈ ((run replayAfterwards
        replayAfterwards_enabled).state 23).drawnIds ∧
      ((run replayAfterwards replayAfterwards_enabled).state 26).now <
        expiresAfter
          ((run replayAfterwards replayAfterwards_enabled).state 23).now
          codeTtl := by
    decide +kernel
  obtain ⟨hpresent, htokens, hrefresh, hstarted, hdrawn, hlive⟩ := hfacts
  have hpolls : ∀ t i choice, (run replayAfterwards
      replayAfterwards_enabled).label t = .poll i choice → t < 32 :=
    fun t i choice hlabel => run_poll_lt hlabel
  refine ⟨by decide, hlive, ?_, ?_⟩
  · intro t choice hlt hlabel hconn
    left
    have hbound := hpolls t 4 choice hlabel
    by_cases hbefore : t ≤ 29
    · by_contra habsent
      exact session_absent_run _ hbefore
        (mem_drawnIds_run _ (by omega) hdrawn) habsent hpresent
    · have hcases : t = 30 ∨ t = 31 := by omega
      rcases hcases with rfl | rfl
      · rw [htokens] at hconn
        simp at hconn
      · rw [hrefresh] at hconn
        simp at hconn
  · rintro m key clientId hlt ⟨i, choice, conn, step, hlabel, hpolled, _⟩ _
    right
    have hbound := hpolls m i choice hlabel
    exact inProgress_before _ hstarted (by omega) (by omega) hrefresh rfl

theorem replay_costs_session_afterwards :
    first.sessionId ∈ ((run replayAfterwards
      replayAfterwards_enabled).state 24).proxy.upstreamTokens ∧
    ∀ m, 32 ≤ m → ((run replayAfterwards
      replayAfterwards_enabled).state m).SessionDead env first.sessionId := by
  have hredeems :
      ((run replayAfterwards replayAfterwards_enabled).state 13).conns 3 =
        some (.codeGrant codeGrantRequest (.running .redeemPending)) ∧
      (((run replayAfterwards
        replayAfterwards_enabled).state 13).proxy.codes.redeemPending
          ((run replayAfterwards replayAfterwards_enabled).state 13).now
          (env.digest codeGrantRequest.code)).2 = some boundCode ∧
      CodeTask.bindingsMatch env boundCode codeGrantRequest = true ∧
      ((run replayAfterwards replayAfterwards_enabled).state 15).conns 3 =
        some (.codeGrant codeGrantRequest (.running .removeUpstream)) ∧
      ((run replayAfterwards
        replayAfterwards_enabled).state 15).proxy.codes.upstream.lookup
          (env.digest codeGrantRequest.code) = some upstreamSet := by
    decide +kernel
  have hrecords :
      ((run replayAfterwards replayAfterwards_enabled).state 23).conns 3 =
        some (.codeGrant codeGrantRequest (.running
          (.markConsumed first.sessionId mintedPair "view_issues"))) ∧
      (sweepAndCheckCapacity
        ((run replayAfterwards replayAfterwards_enabled).state 23).now
        ((run replayAfterwards
          replayAfterwards_enabled).state 23).proxy.codes.consumed
        (env.digest codeGrantRequest.code)).2 = true ∧
      first.sessionId ∈ ((run replayAfterwards
        replayAfterwards_enabled).state 24).proxy.upstreamTokens := by
    decide +kernel
  have hpresents :
      ((run replayAfterwards replayAfterwards_enabled).state 25).conns 4 =
        some (.codeGrant codeGrantRequest (.running .redeemPending)) ∧
      (((run replayAfterwards
        replayAfterwards_enabled).state 25).proxy.codes.redeemPending
          ((run replayAfterwards replayAfterwards_enabled).state 25).now
          (env.digest codeGrantRequest.code)).2 = none ∧
      ((run replayAfterwards replayAfterwards_enabled).state 26).conns 4 =
        some (.codeGrant codeGrantRequest (.running .redeemConsumed)) ∧
      ((run replayAfterwards replayAfterwards_enabled).state 25).now <
        expiresAfter
          ((run replayAfterwards replayAfterwards_enabled).state 23).now
          codeTtl ∧
      ((run replayAfterwards replayAfterwards_enabled).state 32).conns 4 =
        some (.codeGrant codeGrantRequest (.failed invalidGrant)) := by
    decide +kernel
  obtain ⟨hfirst, hpending, hbindings, hremoves, hset⟩ := hredeems
  obtain ⟨hmark, hroom, hpresent⟩ := hrecords
  obtain ⟨hsecond, hnone, hreads, htime, hended⟩ := hpresents
  have hcheck : PassesCheck (run replayAfterwards replayAfterwards_enabled)
      13 3 codeGrantRequest boundCode :=
    ⟨⟨{}, rfl⟩, hfirst, hpending, hbindings⟩
  have hok := CodeRedeems.matched 13 15 (by decide) {} boundCode hcheck rfl
    hremoves
  rw [hset] at hok
  have hreplay : ReplayOf (run replayAfterwards replayAfterwards_enabled) 3 4
      codeGrantRequest codeGrantRequest first.sessionId 15 23 25 26 :=
    { redeems := ⟨13, upstreamSet, hok⟩
      records := ⟨{}, mintedPair, "view_issues", rfl, hmark⟩
      room := hroom
      other := by decide
      same := rfl
      presents := ⟨_, .consumed 25 26 (by decide) {} {} rfl hsecond hnone rfl
        hreads⟩
      starts := by decide
      in_time := htime }
  exact ⟨hpresent, replay_costs_session hreplay replayAfterwards_contains
    (by decide) ⟨_, hended, rfl⟩⟩

end Sample

end RuprogressMcp
