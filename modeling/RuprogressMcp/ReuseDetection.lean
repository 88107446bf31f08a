import RuprogressMcp.ProxyRevocation
import RuprogressMcp.RefreshRotation

/-!
# Detection of refresh-token reuse

`retire` moves the digest of a rotated token from `current` to `retired` in
two sections, and `redeem` reads the two maps in two sections.  A redemption
that reads `current` after the removal and `retired` before the insertion
finds the digest in neither map and answers `Invalid`.  Outside that window
every second use is detected, up to the instant at which the record expires.
-/

namespace RuprogressMcp

/-! ## Retired digests -/

/-- A remembered digest has no current entry. -/
def State.RetiredOut (s : State) : Prop :=
  ∀ key ∈ s.proxy.refreshTokens.retired,
    key ∈ s.drawn ∧ key ∉ s.proxy.refreshTokens.current

theorem claim_of_insertRetired
    {env : Env} {s : State} {i : ℕ} {choice : Choice} {conn : Conn}
    {step : Conn.Step} {key : Digest} {u : String}
    (hconn : s.conns i = some conn)
    (hstep : conn.step env s.now choice s.proxy = some step)
    (hop : step.op = .insertRetired key u) :
    s.claim env i = some (key, .retired u) ∧ ∃ request pair scope,
      conn = .refreshGrant request
        (.running (.retireInsert u pair scope)) := by
  have hperforms := Conn.performs_of_step hstep
  rw [hop] at hperforms
  cases hperforms with
  | take v pc htaking hsection => cases pc <;> simp [TakePc.section] at hsection
  | refreshRetireInsert request _ pair scope =>
      refine ⟨?_, request, pair, scope, rfl⟩
      simp [State.claim, hconn, Conn.claim, RefreshTask.claim]

theorem State.Locked.absent_of_retired
    {env : Env} {s : State} (hlocked : s.Locked env) {i : ℕ} {key : Digest}
    {u : String} (hclaim : s.claim env i = some (key, .retired u)) :
    key ∉ s.proxy.refreshTokens.current := by
  intro hmem
  obtain ⟨⟨owner, deadline⟩, hlookup⟩ := Table.mem_iff_lookup.mp hmem
  have hsession := (hlocked.inFlight i key _ _ _ hclaim hlookup).2
  simp [Claim.session] at hsession

theorem State.RetiredOut.next
    {env : Env} {s s' : State} {label : Label} (hretired : s.RetiredOut)
    (hlocked : s.Locked env) (hnext : s.next env label = some s') :
    s'.RetiredOut := by
  intro key hkey
  have hbefore : key ∈ s.drawn ∧ key ∉ s.proxy.refreshTokens.current := by
    rcases proxy_next hnext with ⟨hproxy, _⟩ |
      ⟨i, choice, conn, step, _, hconn, hstep, _, rfl⟩
    · exact hretired key (hproxy ▸ hkey)
    · obtain ⟨entry, hentry⟩ := Table.mem_iff_lookup.mp hkey
      rcases StoreOp.retired_after hentry with hold | ⟨hop, _⟩
      · exact hretired key (Table.mem_of_lookup hold)
      · obtain ⟨hclaim, _⟩ := claim_of_insertRetired hconn hstep hop
        exact ⟨hlocked.drawn i key _ hclaim, hlocked.absent_of_retired hclaim⟩
  exact ⟨mem_drawn_next hnext hbefore.1,
    current_absent_next hnext hbefore.1 hbefore.2⟩

theorem run_retiredOut {env : Env} (run : ProxyRun env) :
    ∀ n, (run.state n).RetiredOut := by
  intro n
  induction n with
  | zero =>
      rw [run.start]
      intro key hkey
      exact absurd hkey (AList.notMem_empty key)
  | succ n ih => exact ih.next (run_locked run n) (run.step n)

/-! ## A rotation and a second use -/

/-- Request `i` redeems its token for session `u` in step `n₀` and retires it
in steps `nX` and `nY`.  Until then nothing else removes the token, and the
map of retired tokens has room for it. -/
structure Retires
    {env : Env} (run : ProxyRun env) (i : ℕ) (request : RefreshRequest)
    (u : String) (n₀ nX nY : ℕ) : Prop where
  redeems : RedeemsFor run n₀ i request u
  redeems_lt : n₀ < nX
  removes : ∃ choice pair scope, run.label nX = .poll i choice ∧
    (run.state nX).conns i = some (.refreshGrant request
      (.running (.retireRemove u pair scope)))
  removes_lt : nX < nY
  inserts : ∃ choice pair scope, run.label nY = .poll i choice ∧
    (run.state nY).conns i = some (.refreshGrant request
      (.running (.retireInsert u pair scope)))
  kept : ∀ n, n₀ < n → n ≤ nX →
    env.digest request.refreshToken ∈
      (run.state n).proxy.refreshTokens.current
  room : (sweepAndCheckCapacity (run.state nY).now
    (run.state nY).proxy.refreshTokens.retired
    (env.digest request.refreshToken)).2 = true

inductive RefreshOutcome
  | ok (clientId upstreamId : String)
  | reused (upstreamId : String)
  | invalid
deriving DecidableEq

def CurrentOutcome.answer : CurrentOutcome → Option RefreshOutcome
  | absent => none
  | reused upstreamId => some (.reused upstreamId)
  | ok clientId upstreamId => some (.ok clientId upstreamId)

def retiredAnswer : Option String → RefreshOutcome
  | some upstreamId => .reused upstreamId
  | none => .invalid

/-- Request `j` calls `redeem`: the first section is step `a`, and the call
returns in step `b`, which is the same step unless the token has no current
entry. -/
inductive Redeems
    {env : Env} (run : ProxyRun env) (j : ℕ) (request : RefreshRequest) :
    ℕ → ℕ → RefreshOutcome → Prop
  | current (a : ℕ) (choice : Choice) (outcome : RefreshOutcome)
      (hlabel : run.label a = .poll j choice)
      (hconn : (run.state a).conns j =
        some (.refreshGrant request (.running .redeemCurrent)))
      (houtcome : ((run.state a).proxy.refreshTokens.redeemCurrent
        (run.state a).now (env.digest request.refreshToken)).2.answer =
          some outcome) :
      Redeems run j request a a outcome
  | retired (a b : ℕ) (hlt : a < b) (choice choice' : Choice)
      (hlabel : run.label a = .poll j choice)
      (hconn : (run.state a).conns j =
        some (.refreshGrant request (.running .redeemCurrent)))
      (houtcome : ((run.state a).proxy.refreshTokens.redeemCurrent
        (run.state a).now (env.digest request.refreshToken)).2.answer = none)
      (hlabel' : run.label b = .poll j choice')
      (hconn' : (run.state b).conns j =
        some (.refreshGrant request (.running .redeemRetired))) :
      Redeems run j request a b
        (retiredAnswer ((run.state b).proxy.refreshTokens.redeemRetired
          (run.state b).now (env.digest request.refreshToken)))

section Rotation

variable {env : Env} {run : ProxyRun env} {i : ℕ} {request : RefreshRequest}
  {u : String} {n₀ nX nY : ℕ}

theorem Retires.guards
    (hretires : Retires run i request u n₀ nX nY) {n : ℕ} (hlt : n₀ < n)
    (hle : n ≤ nX) :
    ∃ task, (run.state n).conns i =
        some (.refreshGrant request (.running task)) ∧
      task.session = some u := by
  cases run_serves run hretires.redeems hlt with
  | running task hconn hsession hminted => exact ⟨task, hconn, hsession⟩
  | finished response hconn hreturned =>
      obtain ⟨choice, pair, scope, _, hremoves⟩ := hretires.removes
      rw [ended_run run hconn rfl hle] at hremoves
      simp at hremoves

theorem Retires.entry
    (hretires : Retires run i request u n₀ nX nY) {n : ℕ} (hlt : n₀ < n)
    (hle : n ≤ nX) :
    ∃ owner deadline,
      (run.state n).proxy.refreshTokens.current.lookup
        (env.digest request.refreshToken) = some (owner, deadline) ∧
      owner.state = .inFlight ∧ owner.upstreamId = u := by
  obtain ⟨⟨owner, deadline⟩, hlookup⟩ :=
    Table.mem_iff_lookup.mp (hretires.kept n hlt hle)
  obtain ⟨task, hconn, hsession⟩ := hretires.guards hlt hle
  obtain ⟨claim, hclaim⟩ : ∃ claim, (run.state n).claim env i =
      some (env.digest request.refreshToken, claim) :=
    State.HoldsGuard.claim ⟨request, task, hconn, rfl, by simp [hsession]⟩
  obtain ⟨hstate, howner⟩ :=
    (run_locked run n).inFlight i _ claim owner deadline hclaim hlookup
  refine ⟨owner, deadline, hlookup, hstate, ?_⟩
  have hsame : claim.session = none ∨ claim.session = task.session := by
    simp only [State.claim, hconn, Option.bind_some, Conn.claim,
      Option.map_eq_some_iff, Prod.mk.injEq, true_and] at hclaim
    obtain ⟨claimed, htask, rfl⟩ := hclaim
    cases task <;> simp [RefreshTask.claim, RefreshTask.session] at htask
    all_goals
      subst htask
      simp [Claim.session, RefreshTask.session]
  rcases hsame with hnone | hsame
  · rw [hnone] at howner
    simp at howner
  · rw [howner, hsession, Option.some.injEq] at hsame
    exact hsame

/-- Request `i` is past the retirement of its token. -/
inductive State.PastRetire
    (s : State) (i : ℕ) (request : RefreshRequest) : Prop
  | finish (v : String) (pair : MintedPair) (scope : String)
      (hconn : s.conns i = some (.refreshGrant request
        (.running (.finish v pair scope))))
  | finished (pair : MintedPair) (scope : String)
      (hconn : s.conns i = some (.refreshGrant request
        (.finished (some (.tokenResponse pair scope)))))

theorem State.PastRetire.next
    {s s' : State} {label : Label} (hpast : s.PastRetire i request)
    (hnext : s.next env label = some s') : s'.PastRetire i request := by
  cases hpast with
  | finish v pair scope hconn =>
      rcases conn_next hnext hconn with hsame |
        ⟨choice, step, _, hstep, _, rfl⟩ | ⟨cancelled, _, hcancel, _⟩
      · exact .finish v pair scope hsame
      · simp only [Conn.step, RefreshTask.step, Option.some.injEq] at hstep
        refine .finished pair scope ?_
        rw [State.commit_conns_self, ← hstep]
        rfl
      · simp [Conn.cancel, RefreshTask.cancel] at hcancel
  | finished pair scope hconn =>
      exact .finished pair scope (ended_next hnext hconn rfl)

theorem pastRetire_run
    {m n : ℕ} (hpast : (run.state m).PastRetire i request) (hle : m ≤ n) :
    (run.state n).PastRetire i request :=
  run.stable (fun _ => True) (fun s => s.PastRetire i request)
    (fun _ => trivial) (fun _ _ _ _ hpast hnext => hpast.next hnext) hle hpast

theorem State.PastRetire.claim
    {s : State} (hpast : s.PastRetire i request) :
    ∃ claim, s.claim env i =
      some (env.digest request.refreshToken, claim) := by
  cases hpast with
  | finish v pair scope hconn =>
      exact ⟨.retired v, by simp [State.claim, hconn, Conn.claim,
        RefreshTask.claim]⟩
  | finished pair scope hconn =>
      exact ⟨.exchanged, by simp [State.claim, hconn, Conn.claim]⟩

theorem State.PastRetire.not_retireInsert
    {s : State} (hpast : s.PastRetire i request) (request' : RefreshRequest)
    (v : String) (pair : MintedPair) (scope : String) :
    s.conns i ≠ some (.refreshGrant request'
      (.running (.retireInsert v pair scope))) := by
  cases hpast with
  | finish v pair scope hconn => simp [hconn]
  | finished pair scope hconn => simp [hconn]

theorem Retires.waits
    (hretires : Retires run i request u n₀ nX nY) {n : ℕ} (hlt : nX < n)
    (hle : n ≤ nY) :
    ∃ v pair scope, (run.state n).conns i = some (.refreshGrant request
      (.running (.retireInsert v pair scope))) := by
  have hnotPast : ∀ m, m ≤ nY → ¬ (run.state m).PastRetire i request := by
    intro m hm hpast
    obtain ⟨choice, pair, scope, _, hinserts⟩ := hretires.inserts
    exact (pastRetire_run hpast hm).not_retireInsert _ _ _ _ hinserts
  induction n, hlt using Nat.le_induction with
  | base =>
      obtain ⟨choice, pair, scope, hlabel, hconn⟩ := hretires.removes
      have hnext := run.step nX
      rw [hlabel] at hnext
      obtain ⟨step, hstep, _, hcommit⟩ := next_poll hnext hconn
      simp only [Conn.step, RefreshTask.step, Option.some.injEq] at hstep
      refine ⟨u, pair, scope, ?_⟩
      rw [hcommit, State.commit_conns_self, ← hstep]
      rfl
  | succ n hn ih =>
      obtain ⟨v, pair, scope, hconn⟩ := ih (by omega)
      rcases conn_next (run.step n) hconn with hsame |
        ⟨choice, step, _, hstep, _, hcommit⟩ | ⟨cancelled, _, hcancel, _⟩
      · exact ⟨v, pair, scope, hsame⟩
      · simp only [Conn.step, RefreshTask.step, Option.some.injEq] at hstep
        refine absurd (.finish v pair scope ?_) (hnotPast (n + 1) hle)
        rw [hcommit, State.commit_conns_self, ← hstep]
        rfl
      · simp [Conn.cancel, RefreshTask.cancel] at hcancel

/-- The record of a token is written only by the request that has the claim
on it, while that request waits at the second section of `retire`. -/
theorem recorded_by_claimant
    {s s' : State} {label : Label} {key : Digest} {entry : String × Instant}
    {claim : Claim} (hlocked : s.Locked env)
    (hnext : s.next env label = some s')
    (hclaim : s.claim env i = some (key, claim))
    (hentry : s'.proxy.refreshTokens.retired.lookup key = some entry) :
    s.proxy.refreshTokens.retired.lookup key = some entry ∨
      ∃ request' v pair scope, s.conns i = some (.refreshGrant request'
        (.running (.retireInsert v pair scope))) ∧
        s'.conns i = some (.refreshGrant request'
          (.running (.finish v pair scope))) := by
  rcases proxy_next hnext with ⟨hproxy, _⟩ |
    ⟨p, choice, conn, step, _, hconn, hstep, _, rfl⟩
  · rw [hproxy] at hentry
    exact Or.inl hentry
  · rcases StoreOp.retired_after hentry with hold | ⟨hop, _⟩
    · exact Or.inl hold
    · obtain ⟨hretired, request', pair, scope, rfl⟩ :=
        claim_of_insertRetired hconn hstep hop
      obtain rfl := hlocked.unique p i key _ _ hretired hclaim
      simp only [Conn.step, RefreshTask.step, Option.some.injEq] at hstep
      refine Or.inr ⟨request', entry.1, pair, scope, hconn, ?_⟩
      rw [State.commit_conns_self, ← hstep]
      rfl

theorem Retires.not_retired
    (hretires : Retires run i request u n₀ nX nY) {n : ℕ} (hlt : nX < n)
    (hle : n ≤ nY) :
    env.digest request.refreshToken ∉
      (run.state n).proxy.refreshTokens.retired := by
  intro hmem
  have hbefore : env.digest request.refreshToken ∉
      (run.state nX).proxy.refreshTokens.retired := fun hretired =>
    (run_retiredOut run nX _ hretired).2
      (hretires.kept nX hretires.redeems_lt le_rfl)
  obtain ⟨k, hXk, hkn, hnot, hk⟩ := Transition.Run.exists_switch
    (fun m => env.digest request.refreshToken ∈
      (run.state m).proxy.refreshTokens.retired) hlt.le hbefore hmem
  obtain ⟨entry, hentry⟩ := Table.mem_iff_lookup.mp hk
  obtain ⟨task, hconn⟩ : ∃ task, (run.state k).conns i =
      some (.refreshGrant request (.running task)) ∧
      task.session.isSome := by
    rcases hXk.eq_or_lt with rfl | hXk
    · obtain ⟨task, hconn, hsession⟩ :=
        hretires.guards hretires.redeems_lt le_rfl
      exact ⟨task, hconn, by simp [hsession]⟩
    · obtain ⟨v, pair, scope, hconn⟩ := hretires.waits hXk (by omega)
      exact ⟨_, hconn, rfl⟩
  obtain ⟨claim, hclaim⟩ : ∃ claim, (run.state k).claim env i =
      some (env.digest request.refreshToken, claim) :=
    State.HoldsGuard.claim ⟨request, task, hconn.1, rfl, hconn.2⟩
  rcases recorded_by_claimant (run_locked run k) (run.step k) hclaim hentry with
    hold | ⟨request', v, pair, scope, _, hafter⟩
  · exact hnot (Table.mem_of_lookup hold)
  · obtain ⟨v', pair', scope', hwaits⟩ :=
      hretires.waits (Nat.lt_succ_of_le hXk) (by omega : k + 1 ≤ nY)
    rw [hafter] at hwaits
    simp at hwaits

/-- After `retire` the record is there until it expires, and there is no other
record of the token. -/
structure State.Recorded
    (s : State) (i : ℕ) (request : RefreshRequest) (key : Digest)
    (u : String) (deadline : Instant) : Prop where
  past : s.PastRetire i request
  only : ∀ entry, s.proxy.refreshTokens.retired.lookup key = some entry →
    entry = (u, deadline)
  kept : s.now < deadline →
    s.proxy.refreshTokens.retired.lookup key = some (u, deadline)

theorem Retires.recorded
    (hretires : Retires run i request u n₀ nX nY) :
    (run.state (nY + 1)).Recorded i request (env.digest request.refreshToken)
      u (expiresAfter (run.state nY).now retiredRefreshTtl) := by
  obtain ⟨choice, pair, scope, hlabel, hconn⟩ := hretires.inserts
  have hnext := run.step nY
  rw [hlabel] at hnext
  obtain ⟨step, hstep, _, hcommit⟩ := next_poll hnext hconn
  simp only [Conn.step, RefreshTask.step, Option.some.injEq] at hstep
  have hlookup : (run.state (nY + 1)).proxy.refreshTokens.retired.lookup
      (env.digest request.refreshToken) =
        some (u, expiresAfter (run.state nY).now retiredRefreshTtl) := by
    rw [hcommit, ← hstep]
    exact lookup_insertBounded_self hretires.room
  refine ⟨?_, ?_, fun _ => hlookup⟩
  · refine .finish u pair scope ?_
    rw [hcommit, State.commit_conns_self, ← hstep]
    rfl
  · intro entry hentry
    rw [hlookup, Option.some.injEq] at hentry
    exact hentry.symm

theorem State.Recorded.next
    {s s' : State} {label : Label} {deadline : Instant}
    (hrecorded : s.Recorded i request (env.digest request.refreshToken) u
      deadline)
    (hlocked : s.Locked env) (hnext : s.next env label = some s') :
    s'.Recorded i request (env.digest request.refreshToken) u deadline := by
  have hpast := hrecorded.past
  obtain ⟨claim, hclaim⟩ : ∃ claim, s.claim env i =
    some (env.digest request.refreshToken, claim) := hpast.claim
  refine ⟨hpast.next hnext, ?_, ?_⟩
  · intro entry hentry
    rcases recorded_by_claimant hlocked hnext hclaim hentry with
      hold | ⟨request', v, pair, scope, hconn, _⟩
    · exact hrecorded.only entry hold
    · exact absurd hconn (hpast.not_retireInsert _ _ _ _)
  · intro hlive
    have hbefore := hrecorded.kept (lt_of_le_of_lt (now_le_next hnext) hlive)
    rcases proxy_next hnext with ⟨hproxy, _⟩ |
      ⟨p, choice, conn, step, _, hconn, hstep, _, rfl⟩
    · rw [hproxy]
      exact hbefore
    · refine StoreOp.retired_kept hbefore hlive ?_
      intro v hop
      obtain ⟨hretired, request', pair, scope, rfl⟩ :=
        claim_of_insertRetired hconn hstep hop
      obtain rfl := hlocked.unique p i _ _ _ hretired hclaim
      exact hpast.not_retireInsert _ _ _ _ hconn

theorem Retires.recorded_run
    (hretires : Retires run i request u n₀ nX nY) {n : ℕ} (hlt : nY < n) :
    (run.state n).Recorded i request (env.digest request.refreshToken) u
      (expiresAfter (run.state nY).now retiredRefreshTtl) :=
  run.stable (fun s => s.Locked env)
    (fun s => s.Recorded i request (env.digest request.refreshToken) u
      (expiresAfter (run.state nY).now retiredRefreshTtl))
    (run_locked run)
    (fun _ _ _ hlocked hrecorded hnext => hrecorded.next hlocked hnext) hlt
    hretires.recorded

end Rotation

/-! ## When a second use is detected -/

theorem answer_of_inFlight
    {store : RefreshStore} {now : Instant} {key : Digest}
    {owner : RefreshOwner} {deadline : Instant}
    (hlookup : store.current.lookup key = some (owner, deadline))
    (hstate : owner.state = .inFlight) :
    (deadline ≤ now ∧ (store.redeemCurrent now key).2 = .absent ∧
        key ∉ (store.redeemCurrent now key).1.current) ∨
      (store.redeemCurrent now key).2 = .reused owner.upstreamId := by
  unfold RefreshStore.redeemCurrent
  rw [hlookup]
  by_cases hexpired : deadline ≤ now
  · left
    simp [hexpired, AList.mem_erase]
  · right
    simp [hexpired, hstate]

theorem answer_of_absent
    {store : RefreshStore} {now : Instant} {key : Digest}
    (habsent : key ∉ store.current) :
    (store.redeemCurrent now key).2 = .absent := by
  have hlookup : store.current.lookup key = none :=
    AList.lookup_eq_none.mpr habsent
  simp [RefreshStore.redeemCurrent, hlookup]

theorem Redeems.contains_iff
    {env : Env} {run : ProxyRun env} {j a b : ℕ} {request : RefreshRequest}
    {outcome : RefreshOutcome} (hredeems : Redeems run j request a b outcome)
    (u : String) :
    (run.state (b + 1)).conns j = some (.refreshGrant request
        (.running (.reusedTake u .upstream))) ↔
      outcome = .reused u := by
  cases hredeems with
  | current choice _ hlabel hconn houtcome =>
      have hnext := run.step a
      rw [hlabel] at hnext
      obtain ⟨step, hstep, _, hcommit⟩ := next_poll hnext hconn
      simp only [Conn.step, RefreshTask.step, Option.some.injEq] at hstep
      rw [hcommit, State.commit_conns_self, ← hstep]
      simp only [Conn.Step.lift]
      split
      next hcurrent => simp [hcurrent, CurrentOutcome.answer] at houtcome
      next v hcurrent =>
        simp only [hcurrent, CurrentOutcome.answer, Option.some.injEq]
          at houtcome
        simp [← houtcome]
      next clientId v hcurrent =>
        simp only [hcurrent, CurrentOutcome.answer, Option.some.injEq]
          at houtcome
        split <;> simp [← houtcome]
  | retired _ hlt choice choice' hlabel hconn houtcome hlabel' hconn' =>
      have hnext := run.step b
      rw [hlabel'] at hnext
      obtain ⟨step, hstep, _, hcommit⟩ := next_poll hnext hconn'
      simp only [Conn.step, RefreshTask.step, Option.some.injEq] at hstep
      rw [hcommit, State.commit_conns_self, ← hstep]
      simp only [Conn.Step.lift]
      split
      next v hretired => simp [hretired, retiredAnswer]
      next hretired => simp [hretired, retiredAnswer, Phase.failed]

theorem redeemRetired_of_absent
    {store : RefreshStore} {now : Instant} {key : Digest}
    (habsent : key ∉ store.retired) : store.redeemRetired now key = none := by
  have hlookup : store.retired.lookup key = none :=
    AList.lookup_eq_none.mpr habsent
  simp [RefreshStore.redeemRetired, hlookup]

theorem State.Recorded.answer_iff
    {s : State} {i : ℕ} {request : RefreshRequest} {key : Digest}
    {u : String} {deadline : Instant}
    (hrecorded : s.Recorded i request key u deadline) :
    retiredAnswer (s.proxy.refreshTokens.redeemRetired s.now key) =
      .reused u ↔ s.now < deadline := by
  unfold RefreshStore.redeemRetired
  by_cases hlive : s.now < deadline
  · simp [hrecorded.kept hlive, hlive, retiredAnswer]
  · simp only [hlive, iff_false]
    split
    next v expiresAt hlookup =>
      have heq := hrecorded.only _ hlookup
      simp only [Prod.mk.injEq] at heq
      simp [heq.2, hlive, retiredAnswer]
    next => simp [retiredAnswer]

/-- A second use of a token that is rotated returns `Reused`, and leads to the
containment branch, exactly when it does not return between the two sections
of `retire` and, after them, reads the record before it expires. -/
theorem reuse_detected_iff
    {env : Env} {run : ProxyRun env} {i j : ℕ}
    {request request' : RefreshRequest} {u : String} {n₀ nX nY a b : ℕ}
    {outcome : RefreshOutcome}
    (hretires : Retires run i request u n₀ nX nY) (hother : j ≠ i)
    (hsame : env.digest request'.refreshToken =
      env.digest request.refreshToken)
    (hredeems : Redeems run j request' a b outcome) (hafter : n₀ < a) :
    (outcome = .reused u ↔
      ¬ (nX < b ∧ b < nY) ∧
        (nY < b → (run.state b).now <
          expiresAfter (run.state nY).now retiredRefreshTtl)) ∧
    ((run.state (b + 1)).conns j = some (.refreshGrant request'
        (.running (.reusedTake u .upstream))) ↔
      ¬ (nX < b ∧ b < nY) ∧
        (nY < b → (run.state b).now <
          expiresAfter (run.state nY).now retiredRefreshTtl)) := by
  rw [hredeems.contains_iff u, and_self_iff]
  have hpolled : ∀ n choice, run.label n = .poll j choice → n ≠ nX ∧ n ≠ nY := by
    intro n choice hlabel
    constructor
    · rintro rfl
      obtain ⟨choice', pair, scope, hlabel', _⟩ := hretires.removes
      rw [hlabel, Label.poll.injEq] at hlabel'
      exact hother hlabel'.1
    · rintro rfl
      obtain ⟨choice', pair, scope, hlabel', _⟩ := hretires.inserts
      rw [hlabel, Label.poll.injEq] at hlabel'
      exact hother hlabel'.1
  have hremoved : ∀ n, nX < n → env.digest request.refreshToken ∉
      (run.state n).proxy.refreshTokens.current := by
    intro n hn
    obtain ⟨choice, pair, scope, hlabel, hconn⟩ := hretires.removes
    exact absent_of_removes run ⟨choice, request, _, hlabel, hconn, rfl, rfl⟩ hn
  have hlt := hretires.removes_lt
  cases hredeems with
  | current choice _ hlabel hconn houtcome =>
      rw [hsame] at houtcome
      have hne := (hpolled a choice hlabel).1
      have hbefore : a < nX := by
        by_contra hnot
        rw [answer_of_absent (hremoved a (by omega))] at houtcome
        simp [CurrentOutcome.answer] at houtcome
      obtain ⟨owner, deadline, hlookup, hstate, rfl⟩ :=
        hretires.entry hafter hbefore.le
      rcases answer_of_inFlight hlookup hstate with
        ⟨_, habsent, _⟩ | hreused
      · rw [habsent] at houtcome
        simp [CurrentOutcome.answer] at houtcome
      · rw [hreused, CurrentOutcome.answer, Option.some.injEq] at houtcome
        rw [← houtcome]
        simp only [true_iff]
        exact ⟨by omega, fun hlater => by omega⟩
  | retired _ hab choice choice' hlabel hconn houtcome hlabel' hconn' =>
      rw [hsame] at houtcome ⊢
      have hne := hpolled a choice hlabel
      have hne' := hpolled b choice' hlabel'
      have hlate : nX < a := by
        by_contra hnot
        obtain ⟨owner, deadline, hlookup, hstate, _⟩ :=
          hretires.entry hafter (by omega)
        rcases answer_of_inFlight hlookup hstate with
          ⟨_, _, hgone⟩ | hreused
        · have hnext := run.step a
          rw [hlabel] at hnext
          obtain ⟨step, hstep, _, hcommit⟩ := next_poll hnext hconn
          simp only [Conn.step, RefreshTask.step, Option.some.injEq] at hstep
          have hkept := hretires.kept (a + 1) (by omega) (by omega)
          rw [hcommit, ← hstep] at hkept
          simp only [State.commit, Conn.Step.lift, StoreOp.apply, hsame]
            at hkept
          exact hgone hkept
        · rw [hreused] at houtcome
          simp [CurrentOutcome.answer] at houtcome
      by_cases hgap : b < nY
      · rw [redeemRetired_of_absent (hretires.not_retired (by omega) hgap.le)]
        simp only [retiredAnswer, reduceCtorEq, false_iff]
        intro hboth
        exact hboth.1 ⟨by omega, hgap⟩
      · have hYb : nY < b := by omega
        rw [(hretires.recorded_run hYb).answer_iff]
        constructor
        · intro hlive
          exact ⟨by omega, fun _ => hlive⟩
        · exact fun hboth => hboth.2 hYb

namespace Sample

def secondUse : Label :=
  .spawn 5 (.refreshGrant
    { refreshToken := some refreshRequest.refreshToken
      clientId := some refreshRequest.clientId })

/-- Request 5 presents the token that request 4 is rotating: both of its
sections fall between the two sections of `retire`. -/
def reuseInWindow : List Label :=
  first.session 0 ++ refreshUntilReplaced 4 ++ (refreshFromMint 4).take 3 ++
    [secondUse, .poll 5 {}, .poll 5 {}, .poll 4 {}, .poll 4 {}]

theorem reuseInWindow_enabled :
    Transition.Enabled (State.next env) State.initial reuseInWindow = true := by
  decide +kernel

/-- Request 5 presents the token after request 4 has retired it. -/
def reuseAfterwards : List Label :=
  first.session 0 ++ refreshUntilReplaced 4 ++ refreshFromMint 4 ++
    [secondUse, .poll 5 {}, .poll 5 {}]

theorem reuseAfterwards_enabled :
    Transition.Enabled (State.next env) State.initial reuseAfterwards =
      true := by
  decide +kernel

theorem retires_of_facts
    {run : ProxyRun env} {nY : ℕ} {pair : MintedPair} {scope : String}
    (hpresented : (run.state 25).conns 4 =
      some (.refreshGrant refreshRequest (.running .redeemCurrent)))
    (hlabel₀ : run.label 25 = .poll 4 {})
    (houtcome : ((run.state 25).proxy.refreshTokens.redeemCurrent
      (run.state 25).now (env.digest refreshRequest.refreshToken)).2 =
        .ok first.clientId first.sessionId)
    (hlabelX : run.label 34 = .poll 4 {})
    (hconnX : (run.state 34).conns 4 = some (.refreshGrant refreshRequest
      (.running (.retireRemove first.sessionId pair scope))))
    (hkept : env.digest refreshRequest.refreshToken ∈
      (run.state 34).proxy.refreshTokens.current)
    (hlt : 34 < nY) (hlabelY : run.label nY = .poll 4 {})
    (hconnY : (run.state nY).conns 4 = some (.refreshGrant refreshRequest
      (.running (.retireInsert first.sessionId pair scope))))
    (hroom : (sweepAndCheckCapacity (run.state nY).now
      (run.state nY).proxy.refreshTokens.retired
      (env.digest refreshRequest.refreshToken)).2 = true) :
    Retires run 4 refreshRequest first.sessionId 25 34 nY where
  redeems := ⟨hpresented, ⟨{}, hlabel₀⟩, first.clientId, houtcome⟩
  redeems_lt := by decide
  removes := ⟨{}, pair, scope, hlabelX, hconnX⟩
  removes_lt := hlt
  inserts := ⟨{}, pair, scope, hlabelY, hconnY⟩
  kept := by
    intro n hlow hhigh
    by_contra habsent
    obtain ⟨deadline, hlookup, _⟩ := redeemCurrent_ok houtcome
    have hdrawn := mem_drawn_run run hlow.le
      ((run_drawn run 25).current _ (Table.mem_of_lookup hlookup))
    exact current_absent_run run hhigh hdrawn habsent hkept
  room := hroom

/-- The second use of the token is answered `Invalid`. -/
theorem reuse_missed_in_window :
    ¬ ∀ (run : ProxyRun env) (i j : ℕ) (request request' : RefreshRequest)
        (u : String) (n₀ nX nY a b : ℕ) (outcome : RefreshOutcome),
      Retires run i request u n₀ nX nY → j ≠ i →
      env.digest request'.refreshToken = env.digest request.refreshToken →
      Redeems run j request' a b outcome → n₀ < a →
      (run.state b).now ≤ (run.state nY).now + retiredRefreshTtl →
      outcome = .reused u := by
  intro hclaim
  have hfacts :
      ((run reuseInWindow reuseInWindow_enabled).state 25).conns 4 =
        some (.refreshGrant refreshRequest (.running .redeemCurrent)) ∧
      (((run reuseInWindow
        reuseInWindow_enabled).state 25).proxy.refreshTokens.redeemCurrent
          ((run reuseInWindow reuseInWindow_enabled).state 25).now
          (env.digest refreshRequest.refreshToken)).2 =
        .ok first.clientId first.sessionId ∧
      ((run reuseInWindow reuseInWindow_enabled).state 34).conns 4 =
        some (.refreshGrant refreshRequest (.running
          (.retireRemove first.sessionId returnedPair "view_issues"))) ∧
      env.digest refreshRequest.refreshToken ∈ ((run reuseInWindow
        reuseInWindow_enabled).state 34).proxy.refreshTokens.current ∧
      ((run reuseInWindow reuseInWindow_enabled).state 38).conns 4 =
        some (.refreshGrant refreshRequest (.running
          (.retireInsert first.sessionId returnedPair "view_issues"))) ∧
      (sweepAndCheckCapacity
        ((run reuseInWindow reuseInWindow_enabled).state 38).now
        ((run reuseInWindow
          reuseInWindow_enabled).state 38).proxy.refreshTokens.retired
        (env.digest refreshRequest.refreshToken)).2 = true := by
    decide +kernel
  have hsecond :
      ((run reuseInWindow reuseInWindow_enabled).state 36).conns 5 =
        some (.refreshGrant refreshRequest (.running .redeemCurrent)) ∧
      (((run reuseInWindow
        reuseInWindow_enabled).state 36).proxy.refreshTokens.redeemCurrent
          ((run reuseInWindow reuseInWindow_enabled).state 36).now
          (env.digest refreshRequest.refreshToken)).2.answer = none ∧
      ((run reuseInWindow reuseInWindow_enabled).state 37).conns 5 =
        some (.refreshGrant refreshRequest (.running .redeemRetired)) ∧
      retiredAnswer (((run reuseInWindow
        reuseInWindow_enabled).state 37).proxy.refreshTokens.redeemRetired
          ((run reuseInWindow reuseInWindow_enabled).state 37).now
          (env.digest refreshRequest.refreshToken)) = .invalid ∧
      ((run reuseInWindow reuseInWindow_enabled).state 37).now ≤
        ((run reuseInWindow reuseInWindow_enabled).state 38).now +
          retiredRefreshTtl := by
    decide +kernel
  obtain ⟨hpresented, houtcome, hconnX, hkept, hconnY, hroom⟩ := hfacts
  obtain ⟨hfirst, habsent, hread, hinvalid, hintime⟩ := hsecond
  have hreused := hclaim (run reuseInWindow reuseInWindow_enabled) 4 5
    refreshRequest refreshRequest first.sessionId 25 34 38 36 37 _
    (retires_of_facts hpresented rfl houtcome rfl hconnX hkept (by decide)
      rfl hconnY hroom)
    (by decide) rfl
    (.retired 36 37 (by decide) {} {} rfl hfirst habsent rfl hread)
    (by decide) hintime
  rw [hinvalid] at hreused
  simp at hreused

theorem reuse_detected_afterwards :
    ((run reuseAfterwards reuseAfterwards_enabled).state (39 + 1)).conns 5 =
      some (.refreshGrant refreshRequest
        (.running (.reusedTake first.sessionId .upstream))) := by
  have hfacts :
      ((run reuseAfterwards reuseAfterwards_enabled).state 25).conns 4 =
        some (.refreshGrant refreshRequest (.running .redeemCurrent)) ∧
      (((run reuseAfterwards
        reuseAfterwards_enabled).state 25).proxy.refreshTokens.redeemCurrent
          ((run reuseAfterwards reuseAfterwards_enabled).state 25).now
          (env.digest refreshRequest.refreshToken)).2 =
        .ok first.clientId first.sessionId ∧
      ((run reuseAfterwards reuseAfterwards_enabled).state 34).conns 4 =
        some (.refreshGrant refreshRequest (.running
          (.retireRemove first.sessionId returnedPair "view_issues"))) ∧
      env.digest refreshRequest.refreshToken ∈ ((run reuseAfterwards
        reuseAfterwards_enabled).state 34).proxy.refreshTokens.current ∧
      ((run reuseAfterwards reuseAfterwards_enabled).state 35).conns 4 =
        some (.refreshGrant refreshRequest (.running
          (.retireInsert first.sessionId returnedPair "view_issues"))) ∧
      (sweepAndCheckCapacity
        ((run reuseAfterwards reuseAfterwards_enabled).state 35).now
        ((run reuseAfterwards
          reuseAfterwards_enabled).state 35).proxy.refreshTokens.retired
        (env.digest refreshRequest.refreshToken)).2 = true := by
    decide +kernel
  have hsecond :
      ((run reuseAfterwards reuseAfterwards_enabled).state 38).conns 5 =
        some (.refreshGrant refreshRequest (.running .redeemCurrent)) ∧
      (((run reuseAfterwards
        reuseAfterwards_enabled).state 38).proxy.refreshTokens.redeemCurrent
          ((run reuseAfterwards reuseAfterwards_enabled).state 38).now
          (env.digest refreshRequest.refreshToken)).2.answer = none ∧
      ((run reuseAfterwards reuseAfterwards_enabled).state 39).conns 5 =
        some (.refreshGrant refreshRequest (.running .redeemRetired)) ∧
      ((run reuseAfterwards reuseAfterwards_enabled).state 39).now <
        expiresAfter
          ((run reuseAfterwards reuseAfterwards_enabled).state 35).now
          retiredRefreshTtl := by
    decide +kernel
  obtain ⟨hpresented, houtcome, hconnX, hkept, hconnY, hroom⟩ := hfacts
  obtain ⟨hfirst, habsent, hread, hlive⟩ := hsecond
  have hretires := retires_of_facts hpresented rfl houtcome rfl hconnX hkept
    (by decide) rfl hconnY hroom
  have hredeems := Redeems.retired 38 39 (by decide) {} {} rfl hfirst habsent
    rfl hread
  have hiff := (reuse_detected_iff hretires (by decide) rfl hredeems
    (by decide)).2
  exact hiff.mpr ⟨by decide, fun _ => hlive⟩

end Sample

end RuprogressMcp
