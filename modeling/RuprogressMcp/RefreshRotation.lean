import RuprogressMcp.RefreshGrants

/-!
# Rotation of refresh tokens is linear

A request that redeemed a refresh token has a claim on it.  The claim starts
when the entry goes from active to in flight; it may be given up by a
rollback, or it may go through the mint of a new pair and the retirement of
the token to the returned response, and then it stays for ever.  No two
requests have a claim on one token, and a claimed token is never active.

In the same way every session has at most one slot: its active entry, the
request that may still reactivate or replace it, or the code grant that has
not minted it yet.
-/

namespace RuprogressMcp

/-- How far a request has come with the token it redeemed. -/
inductive Claim
  | held (upstreamId : String)
  | rotated (upstreamId : String)
  | retired (upstreamId : String)
  | exchanged

namespace RefreshTask

def claim : RefreshTask → Option Claim
  | retireRemove upstreamId _ _ => some (.rotated upstreamId)
  | retireInsert upstreamId _ _ => some (.retired upstreamId)
  | finish upstreamId _ _ => some (.retired upstreamId)
  | task => task.session.map .held

end RefreshTask

namespace StoreOp

/-- The sections that change the state of a current refresh entry. -/
def guarding : StoreOp → Bool
  | redeemCurrent _ => true
  | dropGuard _ => true
  | _ => false

/-- The section adds a current refresh entry. -/
def mintsRefresh (now : Instant) (proxy : ProxyState) : StoreOp → Bool
  | mintRefresh key clientId upstreamId =>
      (proxy.refreshTokens.mint now key clientId upstreamId).2
  | _ => false

end StoreOp

namespace Conn

def claim (env : Env) : Conn → Option (Digest × Claim)
  | refreshGrant request (.running task) =>
      task.claim.map fun claim => (env.digest request.refreshToken, claim)
  | refreshGrant request (.finished (some (.tokenResponse _ _))) =>
      some (env.digest request.refreshToken, .exchanged)
  | _ => none

/-- What a step does to the claim of the request that performs it. -/
inductive ClaimStep (now : Instant) (proxy : ProxyState) :
    Option (Digest × Claim) → StoreOp → Option (Digest × Claim) → Prop
  | none (op : StoreOp) (hop : op.guarding = false) :
      ClaimStep now proxy none op none
  | miss (key : Digest)
      (houtcome : ∀ clientId u,
        (proxy.refreshTokens.redeemCurrent now key).2 ≠ .ok clientId u) :
      ClaimStep now proxy none (.redeemCurrent key) none
  | redeem (key : Digest) (clientId u : String)
      (houtcome : (proxy.refreshTokens.redeemCurrent now key).2 =
        .ok clientId u) :
      ClaimStep now proxy none (.redeemCurrent key) (some (key, .held u))
  | hold (key : Digest) (u : String) (op : StoreOp)
      (hop : op.guarding = false) (hmint : op.mintsRefresh now proxy = false) :
      ClaimStep now proxy (some (key, .held u)) op (some (key, .held u))
  | drop (key : Digest) (u : String) :
      ClaimStep now proxy (some (key, .held u)) (.dropGuard key) none
  | rotate (key minted : Digest) (clientId u : String) :
      ClaimStep now proxy (some (key, .held u))
        (.mintRefresh minted clientId u) (some (key, .rotated u))
  | rotateLast (key minted : Digest) (entry : TokenEntry) (ttl : Duration)
      (u : String) :
      ClaimStep now proxy (some (key, .held u))
        (.mintToken minted entry ttl) (some (key, .rotated u))
  | retire (key : Digest) (u : String) :
      ClaimStep now proxy (some (key, .rotated u)) (.removeCurrent key)
        (some (key, .retired u))
  | record (key : Digest) (u : String) :
      ClaimStep now proxy (some (key, .retired u)) (.insertRetired key u)
        (some (key, .retired u))
  | exchange (key : Digest) (u : String) :
      ClaimStep now proxy (some (key, .retired u)) (.dropGuard key)
        (some (key, .exchanged))

theorem section_guarding (pc : TakePc) (u : String) :
    (pc.section u).guarding = false := by
  cases pc <;> rfl

theorem section_mintsRefresh
    (now : Instant) (proxy : ProxyState) (pc : TakePc) (u : String) :
    (pc.section u).mintsRefresh now proxy = false := by
  cases pc <;> rfl

theorem claimStep_refreshGrant
    (env : Env) (now : Instant) (choice : Choice) (proxy : ProxyState)
    (request : RefreshRequest) (task : RefreshTask) :
    ClaimStep now proxy ((refreshGrant request (.running task)).claim env)
      (task.step env now choice proxy request).op
      ((refreshGrant request
        (task.step env now choice proxy request).phase).claim env) := by
  cases task with
  | redeemCurrent =>
      simp only [RefreshTask.step]
      split
      next houtcome => exact .miss _ (by simp [houtcome])
      next u houtcome => exact .miss _ (by simp [houtcome])
      next clientId u houtcome =>
        split
        · exact .redeem _ clientId u houtcome
        · exact .redeem _ clientId u houtcome
  | redeemRetired =>
      simp only [RefreshTask.step]
      split <;> exact .none _ rfl
  | reusedTake u pc =>
      simp only [RefreshTask.step, takeSession_section]
      split <;> exact .none _ (section_guarding pc u)
  | reusedRevoke => exact .none _ rfl
  | readRefresh clientId u =>
      simp only [RefreshTask.step]
      split <;> exact .hold _ u _ rfl rfl
  | upstreamRefresh clientId u secret scopes =>
      simp only [RefreshTask.step]
      split <;> exact .hold _ u _ rfl rfl
  | failedTake u pc =>
      simp only [RefreshTask.step, takeSession_section]
      split <;>
        exact .hold _ u _ (section_guarding pc u)
          (section_mintsRefresh now proxy pc u)
  | replace clientId u set ttl =>
      simp only [RefreshTask.step]
      split <;> exact .hold _ u _ rfl rfl
  | mintAccess clientId u ttl wantsRefresh scope =>
      simp only [RefreshTask.step]
      split
      · exact .hold _ u _ rfl rfl
      · split
        · split
          · exact .hold _ u _ rfl rfl
          · exact .rotateLast ..
        · exact .hold _ u _ rfl rfl
  | mintRefresh clientId u ttl scope accessToken =>
      simp only [RefreshTask.step]
      split
      · exact .hold _ u _ rfl rfl
      · split
        next => exact .rotate ..
        next hroom => exact .hold _ u _ rfl (by simpa [StoreOp.mintsRefresh] using hroom)
  | retireRemove u pair scope => exact .retire _ u
  | retireInsert u pair scope => exact .record _ u
  | rollback u failure =>
      have hafter : (refreshGrant request
          (.finished (failure.map .tokenError))).claim env = none := by
        cases failure <;> rfl
      simp only [RefreshTask.step, hafter]
      exact .drop _ u
  | finish u pair scope => exact .exchange _ u
  | touch clientId u => exact .hold _ u _ rfl rfl
  | discardOrphaned u => exact .hold _ u _ rfl rfl
  | readScopes clientId u secret => exact .hold _ u _ rfl rfl
  | failedDiscard u => exact .hold _ u _ rfl rfl
  | readTtl clientId u set => exact .hold _ u _ rfl rfl
  | orphanDiscard u set => exact .hold _ u _ rfl rfl
  | orphanRevoke u => exact .hold _ u _ rfl rfl

theorem Performs.refreshGrant_of_guarding
    {env : Env} {conn : Conn} {op : StoreOp}
    (hperforms : Performs env conn op) (hop : op.guarding = true) :
    ∃ request phase, conn = .refreshGrant request phase := by
  cases hperforms with
  | take u pc htaking hsection =>
      rw [hsection, section_guarding] at hop
      simp at hop
  | refreshRedeem request => exact ⟨request, _, rfl⟩
  | refreshRollback request u failure => exact ⟨request, _, rfl⟩
  | refreshFinish request u pair scope => exact ⟨request, _, rfl⟩
  | _ => simp [StoreOp.guarding] at hop

theorem claimStep_of_step
    {env : Env} {now : Instant} {choice : Choice} {proxy : ProxyState}
    {conn : Conn} {step : Step}
    (hstep : conn.step env now choice proxy = some step) :
    ClaimStep now proxy (conn.claim env) step.op (step.conn.claim env) := by
  have hperforms := performs_of_step hstep
  have hguarding : (∀ request phase, conn ≠ .refreshGrant request phase) →
      step.op.guarding = false := by
    intro hother
    by_contra hop
    obtain ⟨request, phase, hconn⟩ :=
      hperforms.refreshGrant_of_guarding (by simpa using hop)
    exact hother request phase hconn
  cases advance_of_step hstep with
  | refreshGrant request task =>
      exact claimStep_refreshGrant env now choice proxy request task
  | _ => exact .none _ (hguarding (by simp))

end Conn

/-! ## The claims of a state -/

def State.claim (env : Env) (s : State) (i : ℕ) : Option (Digest × Claim) :=
  (s.conns i).bind (Conn.claim env)

theorem claim_start (env : Env) (request : Request) :
    (Conn.start env request).claim env = none := by
  cases request <;> simp only [Conn.start] <;> (try split) <;> rfl

theorem claim_cancel
    {env : Env} {conn cancelled : Conn}
    (hcancel : conn.cancel = some cancelled) :
    cancelled.claim env = conn.claim env := by
  unfold Conn.cancel at hcancel
  split at hcancel
  next => cases hcancel; rfl
  next request task =>
    obtain ⟨phase, hphase, rfl⟩ := Option.map_eq_some_iff.mp hcancel
    cases task <;> simp only [RefreshTask.cancel, Option.some.injEq,
      reduceCtorEq] at hphase
    all_goals
      subst hphase
      rfl
  next => cases hcancel; rfl
  next => cases hcancel; rfl
  next => simp at hcancel

theorem claim_next
    {env : Env} {s s' : State} {label : Label}
    (hnext : s.next env label = some s') :
    (s'.proxy = s.proxy ∧ s'.drawn = s.drawn ∧ s'.drawnIds = s.drawnIds ∧
        ∀ j, s'.claim env j = s.claim env j) ∨
      ∃ i step, s.Fresh step.op ∧ s' = s.commit i step ∧
        Conn.ClaimStep s.now s.proxy (s.claim env i) step.op
          (s'.claim env i) ∧
        ∀ j, j ≠ i → s'.claim env j = s.claim env j := by
  rcases view_next (Conn.claim env) (claim_start env)
      (fun _ _ => claim_cancel) hnext with hquiet |
    ⟨i, choice, conn, step, _, hconn, hstep, hfresh, rfl, hother⟩
  · exact Or.inl hquiet
  · refine Or.inr ⟨i, step, hfresh, rfl, ?_, hother⟩
    simpa [State.claim, State.commit_conns_self, hconn] using
      Conn.claimStep_of_step hstep

/-! ## A claimed token is locked -/

theorem redeemCurrent_ok
    {store : RefreshStore} {now : Instant} {key : Digest}
    {clientId u : String}
    (houtcome : (store.redeemCurrent now key).2 = .ok clientId u) :
    ∃ deadline,
      store.current.lookup key =
        some ({ clientId, upstreamId := u, state := .active }, deadline) ∧
      (store.redeemCurrent now key).1.current.lookup key =
        some ({ clientId, upstreamId := u, state := .inFlight }, deadline) := by
  unfold RefreshStore.redeemCurrent at houtcome ⊢
  split at houtcome
  next owner deadline hlookup =>
    split at houtcome
    next => simp at houtcome
    next hlive =>
      split at houtcome
      next => simp at houtcome
      next hactive =>
        simp only [CurrentOutcome.ok.injEq] at houtcome
        obtain ⟨rfl, rfl⟩ := houtcome
        refine ⟨deadline, ?_, ?_⟩
        · rw [hlookup, ← hactive]
        · simp [hlive, AList.lookup_insert]
  next => simp at houtcome

def Claim.session : Claim → Option String
  | held upstreamId => some upstreamId
  | rotated upstreamId => some upstreamId
  | retired _ => none
  | exchanged => none

/-- Claims are unique, and an entry under a claim is in flight for the
session of the claim.  In particular a retired token has no entry. -/
structure State.Locked (env : Env) (s : State) : Prop where
  drawn : ∀ i key claim, s.claim env i = some (key, claim) → key ∈ s.drawn
  unique : ∀ i j key claim other, s.claim env i = some (key, claim) →
    s.claim env j = some (key, other) → i = j
  inFlight : ∀ i key claim owner deadline,
    s.claim env i = some (key, claim) →
      s.proxy.refreshTokens.current.lookup key = some (owner, deadline) →
        owner.state = .inFlight ∧ claim.session = some owner.upstreamId

theorem State.Locked.initial (env : Env) : State.initial.Locked env := by
  constructor <;> simp [State.claim, State.initial]

theorem claim_before
    {env : Env} {s : State} {i j : ℕ} {step : Conn.Step} {key : Digest}
    {claim : Claim}
    (hclaim : Conn.ClaimStep s.now s.proxy (s.claim env i) step.op
      ((s.commit i step).claim env i))
    (hother : ∀ j, j ≠ i → (s.commit i step).claim env j = s.claim env j)
    (hafter : (s.commit i step).claim env j = some (key, claim)) :
    (∃ earlier, s.claim env j = some (key, earlier)) ∨
      (j = i ∧ step.op = .redeemCurrent key ∧ ∃ clientId u,
        (s.proxy.refreshTokens.redeemCurrent s.now key).2 = .ok clientId u ∧
        claim = .held u) := by
  by_cases heq : j = i
  · subst heq
    rw [hafter] at hclaim
    generalize hop : step.op = op at hclaim
    generalize hbefore : s.claim env j = before at hclaim
    cases hclaim with
    | redeem _ clientId u houtcome =>
        exact Or.inr ⟨rfl, rfl, clientId, u, houtcome, rfl⟩
    | hold _ u _ _ _ => exact Or.inl ⟨_, rfl⟩
    | rotate _ minted clientId u => exact Or.inl ⟨_, rfl⟩
    | rotateLast _ minted entry ttl u => exact Or.inl ⟨_, rfl⟩
    | retire _ u => exact Or.inl ⟨_, rfl⟩
    | record _ u => exact Or.inl ⟨_, rfl⟩
    | exchange _ u => exact Or.inl ⟨_, rfl⟩
  · rw [hother j heq] at hafter
    exact Or.inl ⟨claim, hafter⟩

theorem State.Locked.no_redemption
    {env : Env} {s : State} (hlocked : s.Locked env) {i : ℕ} {key : Digest}
    {claim : Claim} (hclaim : s.claim env i = some (key, claim))
    (clientId u : String) :
    (s.proxy.refreshTokens.redeemCurrent s.now key).2 ≠ .ok clientId u := by
  intro houtcome
  obtain ⟨deadline, hlookup, _⟩ := redeemCurrent_ok houtcome
  have hstate := (hlocked.inFlight i key claim _ _ hclaim hlookup).1
  simp at hstate

theorem State.Locked.inFlight_of_unchanged
    {env : Env} {s : State} (hlocked : s.Locked env) {i j : ℕ}
    {step : Conn.Step} {key : Digest} {claim : Claim} {owner : RefreshOwner}
    {deadline : Instant}
    (hclaim : Conn.ClaimStep s.now s.proxy (s.claim env i) step.op
      ((s.commit i step).claim env i))
    (hother : ∀ j, j ≠ i → (s.commit i step).claim env j = s.claim env j)
    (hafter : (s.commit i step).claim env j = some (key, claim))
    (hentry : (s.commit i step).proxy.refreshTokens.current.lookup key =
      some (owner, deadline))
    (hold : s.proxy.refreshTokens.current.lookup key =
      some (owner, deadline)) :
    owner.state = .inFlight ∧ claim.session = some owner.upstreamId := by
  by_cases heq : j = i
  · subst heq
    rw [hafter] at hclaim
    have hbefore := fun claim => hlocked.inFlight j key claim owner deadline
    simp only [State.commit] at hentry
    generalize step.op = op at hclaim hentry
    generalize s.claim env j = before at hclaim hbefore
    cases hclaim with
    | redeem _ clientId u houtcome =>
        obtain ⟨_, hlookup, hflight⟩ := redeemCurrent_ok houtcome
        simp only [StoreOp.apply, hflight, Option.some.injEq,
          Prod.mk.injEq] at hentry
        rw [← hentry.1]
        exact ⟨rfl, rfl⟩
    | hold _ u _ _ _ => exact hbefore _ rfl hold
    | rotate _ minted clientId u => exact hbefore (.held u) rfl hold
    | rotateLast _ minted entry ttl u => exact hbefore (.held u) rfl hold
    | retire _ u =>
        have hgone := (Table.lookup_erase_iff.mp hentry).1
        exact absurd rfl hgone
    | record _ u => exact hbefore _ rfl hold
    | exchange _ u => simpa [Claim.session] using hbefore _ rfl hold
  · rw [hother j heq] at hafter
    exact hlocked.inFlight j key claim owner deadline hafter hold

theorem State.Locked.commit
    {env : Env} {s : State} (hlocked : s.Locked env) (hdrawn : s.Drawn)
    {i : ℕ} {step : Conn.Step} (hfresh : s.Fresh step.op)
    (hclaim : Conn.ClaimStep s.now s.proxy (s.claim env i) step.op
      ((s.commit i step).claim env i))
    (hother : ∀ j, j ≠ i → (s.commit i step).claim env j = s.claim env j) :
    (s.commit i step).Locked env where
  drawn := by
    intro j key claim hafter
    apply mem_drawn_commit
    rcases claim_before hclaim hother hafter with ⟨earlier, hearlier⟩ |
      ⟨_, _, clientId, u, houtcome, _⟩
    · exact hlocked.drawn j key earlier hearlier
    · obtain ⟨deadline, hlookup, _⟩ := redeemCurrent_ok houtcome
      exact hdrawn.current key (Table.mem_of_lookup hlookup)
  unique := by
    intro j k key claim other hj hk
    rcases claim_before hclaim hother hj with ⟨earlierj, hearlierj⟩ |
      ⟨hji, _, clientId, u, houtcome, _⟩
    · rcases claim_before hclaim hother hk with ⟨earlierk, hearlierk⟩ |
        ⟨_, _, clientId, u, houtcome, _⟩
      · exact hlocked.unique j k key _ _ hearlierj hearlierk
      · exact absurd houtcome (hlocked.no_redemption hearlierj clientId u)
    · rcases claim_before hclaim hother hk with ⟨earlierk, hearlierk⟩ |
        ⟨hki, _⟩
      · exact absurd houtcome (hlocked.no_redemption hearlierk clientId u)
      · rw [hji, hki]
  inFlight := by
    intro j key claim owner deadline hafter hentry
    have hbefore := claim_before hclaim hother hafter
    rcases StoreOp.current_after hentry with
      hold | ⟨hop, _⟩ | ⟨hop, hstate, _, hlookup⟩ | ⟨hop, _, hlookup⟩
    · exact hlocked.inFlight_of_unchanged hclaim hother hafter hentry hold
    · rcases hbefore with ⟨earlier, hearlier⟩ | ⟨_, hredeem, _⟩
      · have hkey := hlocked.drawn j key earlier hearlier
        exact absurd rfl (hfresh.ne_of_minted (by rw [hop]; rfl) hkey)
      · rw [hop] at hredeem
        simp at hredeem
    · rcases hbefore with ⟨earlier, hearlier⟩ |
        ⟨_, _, clientId, u, houtcome, rfl⟩
      · have hflight := (hlocked.inFlight j key _ _ _ hearlier hlookup).1
        simp at hflight
      · obtain ⟨_, hactive, _⟩ := redeemCurrent_ok houtcome
        rw [hlookup, Option.some.injEq, Prod.mk.injEq] at hactive
        have hsession := congrArg RefreshOwner.upstreamId hactive.1
        exact ⟨hstate, congrArg some hsession.symm⟩
    · exfalso
      have hearlier : ∃ earlier, s.claim env j = some (key, earlier) := by
        rcases hbefore with hearlier | ⟨_, hredeem, _⟩
        · exact hearlier
        · rw [hop] at hredeem
          simp at hredeem
      obtain ⟨earlier, hearlier⟩ := hearlier
      rw [hop] at hclaim
      generalize hclaimi : s.claim env i = before at hclaim
      generalize hafteri : (s.commit i step).claim env i = after at hclaim
      cases hclaim with
      | none op hguarding => simp [StoreOp.guarding] at hguarding
      | hold _ u op hguarding _ => simp [StoreOp.guarding] at hguarding
      | drop _ u =>
          have heq := hlocked.unique j i key _ _ hearlier hclaimi
          rw [heq, hafteri] at hafter
          simp at hafter
      | exchange _ u =>
          have hsession :=
            (hlocked.inFlight i key _ _ _ hclaimi hlookup).2
          simp [Claim.session] at hsession

theorem State.Locked.next
    {env : Env} {s s' : State} {label : Label} (hlocked : s.Locked env)
    (hdrawn : s.Drawn) (hnext : s.next env label = some s') :
    s'.Locked env := by
  rcases claim_next hnext with ⟨hproxy, hkeys, _, hclaims⟩ |
    ⟨i, step, hfresh, rfl, hclaim, hother⟩
  · constructor
    · simpa only [hclaims, hkeys] using hlocked.drawn
    · simpa only [hclaims] using hlocked.unique
    · simpa only [hclaims, hproxy] using hlocked.inFlight
  · exact hlocked.commit hdrawn hfresh hclaim hother

theorem run_locked {env : Env} (run : ProxyRun env) :
    ∀ n, (run.state n).Locked env := by
  have hboth : ∀ n, (run.state n).Drawn ∧ (run.state n).Locked env :=
    run.invariant (fun s => s.Drawn ∧ s.Locked env)
      ⟨State.Drawn.initial, State.Locked.initial env⟩
      fun _ _ _ hgood hnext =>
        ⟨hgood.1.next hnext, hgood.2.next hgood.1 hnext⟩
  exact fun n => (hboth n).2

/-! ## The slot of a session -/

/-- The session that a code grant has stored and for which it has not minted
a refresh token yet. -/
def CodeTask.minting : CodeTask → Option String
  | mintAccess upstreamId _ _ _ => some upstreamId
  | mintRefresh upstreamId _ _ _ => some upstreamId
  | _ => none

def heldSession : Option (Digest × Claim) → Option String
  | some (_, .held upstreamId) => some upstreamId
  | _ => none

/-- The session for which the request may still make an entry active. -/
def Conn.mayActivate (env : Env) : Conn → Option String
  | .codeGrant _ (.running task) => task.minting
  | conn => heldSession (conn.claim env)

theorem mayActivate_refreshGrant
    (env : Env) (request : RefreshRequest) (phase : Phase RefreshTask) :
    (Conn.refreshGrant request phase).mayActivate env =
      heldSession ((Conn.refreshGrant request phase).claim env) :=
  rfl

inductive Slot
  | entry (key : Digest)
  | request (i : ℕ)

inductive State.HasSlot (env : Env) (s : State) (u : String) : Slot → Prop
  | entry (key : Digest) (owner : RefreshOwner) (deadline : Instant)
      (hlookup : s.proxy.refreshTokens.current.lookup key =
        some (owner, deadline))
      (hactive : owner.state = .active) (hsession : owner.upstreamId = u) :
      HasSlot env s u (.entry key)
  | request (i : ℕ) (conn : Conn) (hconn : s.conns i = some conn)
      (hmay : conn.mayActivate env = some u) :
      HasSlot env s u (.request i)

/-- The slot that a section of request `i` may fill. -/
def StoreOp.target (i : ℕ) : StoreOp → Option Slot
  | redeemCurrent _ => some (.request i)
  | insertUpstream _ _ _ => some (.request i)
  | dropGuard key => some (.entry key)
  | mintRefresh key _ _ => some (.entry key)
  | _ => none

theorem codeTask_minting_step
    {env : Env} {now : Instant} {choice : Choice} {proxy : ProxyState}
    {request : CodeRequest} {task task' : CodeTask} {u : String}
    (hphase : (task.step env now choice proxy request).phase = .running task')
    (hminting : task'.minting = some u) :
    task.minting = some u ∨ ∃ set deadline,
      (task.step env now choice proxy request).op =
        .insertUpstream u set deadline := by
  cases task
  case insert set ttl deadline =>
    simp only [CodeTask.step] at hphase ⊢
    cases hdraw : choice.draw with
    | none => simp [hdraw, Phase.failed] at hphase
    | some id =>
        simp only [hdraw] at hphase ⊢
        split at hphase
        next =>
          simp only [Phase.running.injEq] at hphase
          subst hphase
          simp only [CodeTask.minting, Option.some.injEq] at hminting
          subst hminting
          exact Or.inr ⟨set, deadline, rfl⟩
        next => simp [Phase.failed] at hphase
  all_goals
    left
    simp only [CodeTask.step, CodeTask.sweepNext] at hphase
    repeat' split at hphase
  all_goals simp only [Phase.running.injEq, Phase.failed, reduceCtorEq] at hphase
  all_goals
    subst hphase
    simp_all [CodeTask.minting]

theorem mayActivate_step
    {env : Env} {now : Instant} {choice : Choice} {proxy : ProxyState}
    {conn : Conn} {step : Conn.Step} {u : String}
    (hstep : conn.step env now choice proxy = some step)
    (hmay : step.conn.mayActivate env = some u) :
    conn.mayActivate env = some u ∨
      (∃ key clientId, step.op = .redeemCurrent key ∧
        (proxy.refreshTokens.redeemCurrent now key).2 = .ok clientId u) ∨
      ∃ set deadline, step.op = .insertUpstream u set deadline := by
  have hclaim := Conn.claimStep_of_step hstep
  cases Conn.advance_of_step hstep with
  | codeGrant request task =>
      simp only [Conn.Step.lift] at hmay ⊢
      cases hphase : (task.step env now choice proxy request).phase with
      | running task' =>
          rw [hphase] at hmay
          rcases codeTask_minting_step hphase hmay with hold | hinsert
          · exact Or.inl hold
          · exact Or.inr (Or.inr hinsert)
      | finished response =>
          rw [hphase] at hmay
          simp [Conn.mayActivate, Conn.claim, heldSession] at hmay
  | refreshGrant request task =>
      simp only [Conn.Step.lift, mayActivate_refreshGrant] at hclaim hmay ⊢
      generalize (Conn.refreshGrant request (.running task)).claim env =
        before at hclaim ⊢
      generalize (Conn.refreshGrant request
        (task.step env now choice proxy request).phase).claim env =
          after at hclaim hmay
      generalize (task.step env now choice proxy request).op = op at hclaim ⊢
      cases hclaim with
      | redeem key clientId v houtcome =>
          simp only [heldSession, Option.some.injEq] at hmay
          subst hmay
          exact Or.inr (Or.inl ⟨key, clientId, rfl, houtcome⟩)
      | hold key v _ _ _ => exact Or.inl hmay
      | _ => simp [heldSession] at hmay
  | register request task =>
      simp [Conn.Step.lift, Conn.mayActivate, Conn.claim, heldSession] at hmay
  | authorize query task =>
      simp [Conn.Step.lift, Conn.mayActivate, Conn.claim, heldSession] at hmay
  | callback query task =>
      simp [Conn.Step.lift, Conn.mayActivate, Conn.claim, heldSession] at hmay
  | revoke token task =>
      simp [Conn.Step.lift, Conn.mayActivate, Conn.claim, heldSession] at hmay
  | bearer token task =>
      simp [Conn.Step.lift, Conn.mayActivate, Conn.claim, heldSession] at hmay

theorem mayActivate_of_mintRefresh
    {env : Env} {now : Instant} {choice : Choice} {proxy : ProxyState}
    {conn : Conn} {step : Conn.Step} {key : Digest} {clientId u : String}
    (hstep : conn.step env now choice proxy = some step)
    (hop : step.op = .mintRefresh key clientId u)
    (hroom : (proxy.refreshTokens.mint now key clientId u).2 = true) :
    conn.mayActivate env = some u ∧ step.conn.mayActivate env = none := by
  have hperforms := Conn.performs_of_step hstep
  rw [hop] at hperforms
  cases hperforms with
  | take v pc htaking hsection => cases pc <;> simp [TakePc.section] at hsection
  | codeMintRefresh request _ ttl scope accessToken draw =>
      refine ⟨rfl, ?_⟩
      simp only [Conn.step, CodeTask.step, Option.some.injEq] at hstep
      subst hstep
      split at hop
      next => simp [Conn.Step.lift] at hop
      next minted hdraw =>
        simp only [Conn.Step.lift, StoreOp.mintRefresh.injEq] at hop
        rw [← hop.1] at hroom
        simp [Conn.Step.lift, hroom, Conn.mayActivate, CodeTask.minting]
  | refreshMintRefresh request _ _ ttl scope accessToken draw =>
      refine ⟨rfl, ?_⟩
      simp only [Conn.step, RefreshTask.step, Option.some.injEq] at hstep
      subst hstep
      split at hop
      next => simp [Conn.Step.lift] at hop
      next minted hdraw =>
        simp only [Conn.Step.lift, StoreOp.mintRefresh.injEq] at hop
        rw [← hop.1] at hroom
        simp [Conn.Step.lift, hroom, mayActivate_refreshGrant, Conn.claim,
          RefreshTask.claim, heldSession]

theorem mayActivate_of_dropGuard
    {env : Env} {now : Instant} {choice : Choice} {proxy : ProxyState}
    {conn : Conn} {step : Conn.Step} {key : Digest}
    (hstep : conn.step env now choice proxy = some step)
    (hop : step.op = .dropGuard key) :
    (∃ v, conn.claim env = some (key, .held v) ∧
        conn.mayActivate env = some v ∧ step.conn.mayActivate env = none) ∨
      ∃ v, conn.claim env = some (key, .retired v) := by
  have hperforms := Conn.performs_of_step hstep
  rw [hop] at hperforms
  cases hperforms with
  | take v pc htaking hsection => cases pc <;> simp [TakePc.section] at hsection
  | refreshRollback request v failure =>
      refine Or.inl ⟨v, rfl, rfl, ?_⟩
      simp only [Conn.step, RefreshTask.step, Option.some.injEq] at hstep
      rw [← hstep]
      cases failure <;> rfl
  | refreshFinish request v pair scope => exact Or.inr ⟨v, rfl⟩

theorem mayActivate_start (env : Env) (request : Request) :
    (Conn.start env request).mayActivate env = none := by
  cases request <;> simp only [Conn.start] <;> (try split) <;> rfl

theorem mayActivate_cancel
    {env : Env} {conn cancelled : Conn}
    (hcancel : conn.cancel = some cancelled) :
    cancelled.mayActivate env = conn.mayActivate env := by
  have hclaim : cancelled.claim env = conn.claim env := claim_cancel hcancel
  unfold Conn.cancel at hcancel
  split at hcancel
  next => cases hcancel; rfl
  next request task =>
    obtain ⟨phase, _, rfl⟩ := Option.map_eq_some_iff.mp hcancel
    rw [mayActivate_refreshGrant, mayActivate_refreshGrant, hclaim]
  next => cases hcancel; rfl
  next => cases hcancel; rfl
  next => simp at hcancel

theorem slot_setConn
    {env : Env} {s : State} {i : ℕ} {conn : Conn} {u : String} {slot : Slot}
    (hsame : ∀ u, conn.mayActivate env = some u →
      ∃ before, s.conns i = some before ∧ before.mayActivate env = some u)
    (hslot : (s.setConn i conn).HasSlot env u slot) : s.HasSlot env u slot := by
  cases hslot with
  | entry key owner deadline hlookup hactive hsession =>
      exact .entry key owner deadline hlookup hactive hsession
  | request j after hconn hmay =>
      by_cases heq : j = i
      · subst heq
        rw [State.setConn_conns_self, Option.some.injEq] at hconn
        subst hconn
        obtain ⟨before, hbefore, hmay⟩ := hsame u hmay
        exact .request j before hbefore hmay
      · rw [State.setConn_conns_of_ne heq] at hconn
        exact .request j after hconn hmay

/-- A slot after a section was there before, or it is the one that the section
fills, and then another slot of the session was given up or the session is
new. -/
theorem slot_commit
    {env : Env} {s : State} {i : ℕ} {choice : Choice} {conn : Conn}
    {step : Conn.Step} {u : String} {slot : Slot} (hlocked : s.Locked env)
    (hconn : s.conns i = some conn)
    (hstep : conn.step env s.now choice s.proxy = some step)
    (hslot : (s.commit i step).HasSlot env u slot) :
    s.HasSlot env u slot ∨
      (step.op.target i = some slot ∧
        ((∃ given, s.HasSlot env u given ∧
            ¬ (s.commit i step).HasSlot env u given) ∨
          step.op.mintedId = some u)) := by
  have hgivenUp (hmay : step.conn.mayActivate env = none) :
      ¬ (s.commit i step).HasSlot env u (.request i) := by
    rintro (_ | ⟨_, after, hafter, hafterMay⟩)
    rw [State.commit_conns_self, Option.some.injEq] at hafter
    rw [← hafter, hmay] at hafterMay
    simp at hafterMay
  cases hslot with
  | request j after hafter hmay =>
      by_cases heq : j = i
      · subst heq
        rw [State.commit_conns_self, Option.some.injEq] at hafter
        subst hafter
        rcases mayActivate_step hstep hmay with hold |
          ⟨key, clientId, hop, houtcome⟩ | ⟨set, deadline, hop⟩
        · exact Or.inl (.request j conn hconn hold)
        · right
          rw [hop]
          refine ⟨rfl, Or.inl ⟨.entry key, ?_⟩⟩
          obtain ⟨deadline, hlookup, hflight⟩ := redeemCurrent_ok houtcome
          refine ⟨.entry key _ deadline hlookup rfl rfl, ?_⟩
          rintro (⟨_, owner, expiry, hentry, hactive, _⟩ | _)
          simp only [State.commit, hop, StoreOp.apply, hflight,
            Option.some.injEq, Prod.mk.injEq] at hentry
          rw [← hentry.1] at hactive
          simp at hactive
        · right
          rw [hop]
          exact ⟨rfl, Or.inr rfl⟩
      · rw [State.commit_conns_of_ne heq] at hafter
        exact Or.inl (.request j after hafter hmay)
  | entry key owner deadline hlookup hactive hsession =>
      rcases StoreOp.current_after hlookup with
        hold | ⟨hop, _, hroom⟩ | ⟨_, hflight, _⟩ | ⟨hop, _, hbefore⟩
      · exact Or.inl (.entry key owner deadline hold hactive hsession)
      · right
        rw [hsession] at hop hroom
        obtain ⟨hmay, hafter⟩ := mayActivate_of_mintRefresh hstep hop hroom
        rw [hop]
        exact ⟨rfl, Or.inl ⟨.request i, .request i conn hconn hmay,
          hgivenUp hafter⟩⟩
      · rw [hactive] at hflight
        simp at hflight
      · right
        have hclaim {claim} (hconnClaim : conn.claim env = some (key, claim)) :
            claim.session = some u := by
          have hstate : s.claim env i = some (key, claim) := by
            simp [State.claim, hconn, hconnClaim]
          have hflight := hlocked.inFlight i key claim _ _ hstate hbefore
          rw [hflight.2, ← hsession]
        rcases mayActivate_of_dropGuard hstep hop with
          ⟨v, hheld, hmay, hafter⟩ | ⟨v, hretired⟩
        · have hv : v = u := by simpa [Claim.session] using hclaim hheld
          subst hv
          rw [hop]
          exact ⟨rfl, Or.inl ⟨.request i, .request i conn hconn hmay,
            hgivenUp hafter⟩⟩
        · have hnone := hclaim hretired
          simp [Claim.session] at hnone

/-- Every session has at most one slot. -/
structure State.OneSlot (env : Env) (s : State) : Prop where
  unique : ∀ u slot other, s.HasSlot env u slot → s.HasSlot env u other →
    slot = other
  drawn : ∀ u slot, s.HasSlot env u slot → u ∈ s.drawnIds

theorem State.OneSlot.initial (env : Env) : State.initial.OneSlot env := by
  have hnone : ∀ u slot, ¬ State.initial.HasSlot env u slot := by
    rintro u slot (⟨_, _, _, hlookup, _⟩ | ⟨_, _, hconn, _⟩)
    · simp [State.initial, ProxyState.new] at hlookup
    · simp [State.initial] at hconn
  exact ⟨fun u slot other hslot => absurd hslot (hnone u slot),
    fun u slot hslot => absurd hslot (hnone u slot)⟩

theorem State.OneSlot.of_old
    {env : Env} {s s' : State} (hone : s.OneSlot env)
    (hids : ∀ id, id ∈ s.drawnIds → id ∈ s'.drawnIds)
    (hold : ∀ u slot, s'.HasSlot env u slot → s.HasSlot env u slot) :
    s'.OneSlot env where
  unique u slot other hslot hother :=
    hone.unique u slot other (hold u slot hslot) (hold u other hother)
  drawn u slot hslot := hids u (hone.drawn u slot (hold u slot hslot))

theorem State.OneSlot.commit
    {env : Env} {s : State} (hone : s.OneSlot env) (hlocked : s.Locked env)
    {i : ℕ} {choice : Choice} {conn : Conn} {step : Conn.Step}
    (hconn : s.conns i = some conn)
    (hstep : conn.step env s.now choice s.proxy = some step)
    (hfresh : s.Fresh step.op) : (s.commit i step).OneSlot env where
  unique := by
    have hmixed : ∀ u slot other, (s.commit i step).HasSlot env u slot →
        s.HasSlot env u slot →
        ((∃ given, s.HasSlot env u given ∧
          ¬ (s.commit i step).HasSlot env u given) ∨
            step.op.mintedId = some u) →
        slot = other := by
      intro u slot other hafter hold hnew
      rcases hnew with ⟨given, hgiven, hgone⟩ | hminted
      · rw [hone.unique u given slot hgiven hold] at hgone
        exact absurd hafter hgone
      · exact absurd (hone.drawn u slot hold) (hfresh.2 u hminted)
    intro u slot other hslot hother
    rcases slot_commit hlocked hconn hstep hslot with hold | ⟨htarget, hnew⟩
    · rcases slot_commit hlocked hconn hstep hother with hold' | ⟨_, hnew⟩
      · exact hone.unique u slot other hold hold'
      · exact hmixed u slot other hslot hold hnew
    · rcases slot_commit hlocked hconn hstep hother with
        hold' | ⟨htarget', _⟩
      · exact (hmixed u other slot hother hold' hnew).symm
      · rw [htarget, Option.some.injEq] at htarget'
        exact htarget'
  drawn := by
    intro u slot hslot
    rcases slot_commit hlocked hconn hstep hslot with
      hold | ⟨_, ⟨given, hgiven, _⟩ | hminted⟩
    · exact mem_drawnIds_commit (hone.drawn u slot hold)
    · exact mem_drawnIds_commit (hone.drawn u given hgiven)
    · exact mintedId_mem_commit hminted

theorem State.OneSlot.next
    {env : Env} {s s' : State} {label : Label} (hone : s.OneSlot env)
    (hlocked : s.Locked env) (hnext : s.next env label = some s') :
    s'.OneSlot env := by
  have hids : ∀ id, id ∈ s.drawnIds → id ∈ s'.drawnIds :=
    fun _ hid => mem_drawnIds_next hnext hid
  cases stepKind_of_next hnext with
  | elapse duration =>
      refine hone.of_old hids ?_
      rintro u slot (⟨key, owner, deadline, hlookup, hactive, hsession⟩ |
        ⟨j, conn, hconn, hmay⟩)
      · exact .entry key owner deadline hlookup hactive hsession
      · exact .request j conn hconn hmay
  | spawn i request hfree =>
      refine hone.of_old hids fun u slot hslot => slot_setConn ?_ hslot
      simp [mayActivate_start]
  | poll i choice conn step hconn hstep hfresh =>
      exact hone.commit hlocked hconn hstep hfresh
  | cancel i conn cancelled hconn hcancel =>
      refine hone.of_old hids fun u slot hslot => slot_setConn ?_ hslot
      intro v hv
      exact ⟨conn, hconn, by rw [← mayActivate_cancel hcancel]; exact hv⟩

theorem run_oneSlot {env : Env} (run : ProxyRun env) :
    ∀ n, (run.state n).OneSlot env := by
  intro n
  induction n with
  | zero =>
      rw [run.start]
      exact State.OneSlot.initial env
  | succ n ih => exact ih.next (run_locked run n) (run.step n)

/-! ## Linear rotation -/

/-- Request `i` holds the in-flight guard of the token with this digest. -/
def State.HoldsGuard (env : Env) (s : State) (i : ℕ) (key : Digest) : Prop :=
  ∃ request task,
    s.conns i = some (.refreshGrant request (.running task)) ∧
    env.digest request.refreshToken = key ∧ task.session.isSome

/-- Request `i` exchanged the token with this digest for a pair. -/
def State.Exchanged (env : Env) (s : State) (i : ℕ) (key : Digest) : Prop :=
  ∃ request pair scope,
    s.conns i = some (.refreshGrant request
      (.finished (some (.tokenResponse pair scope)))) ∧
    env.digest request.refreshToken = key

/-- In step `n` request `i` retires or discards its token. -/
def Removes
    {env : Env} (run : ProxyRun env) (n i : ℕ) (key : Digest) : Prop :=
  ∃ choice request task,
    run.label n = .poll i choice ∧
    (run.state n).conns i = some (.refreshGrant request (.running task)) ∧
    env.digest request.refreshToken = key ∧
    (task.step env (run.state n).now choice (run.state n).proxy request).op =
      .removeCurrent key

theorem State.HoldsGuard.claim
    {env : Env} {s : State} {i : ℕ} {key : Digest}
    (hholds : s.HoldsGuard env i key) :
    ∃ claim, s.claim env i = some (key, claim) := by
  obtain ⟨request, task, hconn, rfl, hsession⟩ := hholds
  cases task <;> simp [RefreshTask.session] at hsession
  all_goals simp [State.claim, hconn, Conn.claim, RefreshTask.claim,
    RefreshTask.session]

theorem State.Exchanged.claim
    {env : Env} {s : State} {i : ℕ} {key : Digest}
    (hexchanged : s.Exchanged env i key) :
    ∃ claim, s.claim env i = some (key, claim) := by
  obtain ⟨request, pair, scope, hconn, rfl⟩ := hexchanged
  exact ⟨.exchanged, by simp [State.claim, hconn, Conn.claim]⟩

theorem current_absent_next
    {env : Env} {s s' : State} {label : Label} {key : Digest}
    (hnext : s.next env label = some s') (hdrawn : key ∈ s.drawn)
    (habsent : key ∉ s.proxy.refreshTokens.current) :
    key ∉ s'.proxy.refreshTokens.current := by
  intro hmem
  obtain ⟨⟨owner, deadline⟩, hentry⟩ := Table.mem_iff_lookup.mp hmem
  rcases proxy_next hnext with ⟨hproxy, _⟩ |
    ⟨i, choice, conn, step, _, _, _, hfresh, rfl⟩
  · exact habsent (hproxy ▸ hmem)
  · rcases StoreOp.current_after hentry with
      hold | ⟨hop, _⟩ | ⟨_, _, _, hold⟩ | ⟨_, _, hold⟩
    · exact habsent (Table.mem_of_lookup hold)
    · exact absurd rfl (hfresh.ne_of_minted (by rw [hop]; rfl) hdrawn)
    · exact habsent (Table.mem_of_lookup hold)
    · exact habsent (Table.mem_of_lookup hold)

theorem current_absent_run
    {env : Env} (run : ProxyRun env) {key : Digest} {m n : ℕ} (hle : m ≤ n)
    (hdrawn : key ∈ (run.state m).drawn)
    (habsent : key ∉ (run.state m).proxy.refreshTokens.current) :
    key ∉ (run.state n).proxy.refreshTokens.current := by
  have hboth : key ∈ (run.state n).drawn ∧
      key ∉ (run.state n).proxy.refreshTokens.current :=
    run.stable (fun _ => True)
      (fun s => key ∈ s.drawn ∧ key ∉ s.proxy.refreshTokens.current)
      (fun _ => trivial)
      (fun _ _ _ _ hgood hnext => ⟨mem_drawn_next hnext hgood.1,
        current_absent_next hnext hgood.1 hgood.2⟩)
      hle ⟨hdrawn, habsent⟩
  exact hboth.2

theorem not_ok_of_absent
    {store : RefreshStore} {now : Instant} {key : Digest}
    (habsent : key ∉ store.current) (clientId u : String) :
    (store.redeemCurrent now key).2 ≠ .ok clientId u := by
  intro houtcome
  obtain ⟨deadline, hlookup, _⟩ := redeemCurrent_ok houtcome
  exact habsent (Table.mem_of_lookup hlookup)

theorem absent_of_removes
    {env : Env} (run : ProxyRun env) {n i m : ℕ} {key : Digest}
    (hremoves : Removes run n i key) (hlt : n < m) :
    key ∉ (run.state m).proxy.refreshTokens.current := by
  obtain ⟨choice, request, task, hlabel, hconn, hkey, hop⟩ := hremoves
  have hsession : task.session.isSome := by
    cases task with
    | reusedTake u pc =>
        rw [RefreshTask.step, takeSession_section] at hop
        cases pc <;> simp [TakePc.section] at hop
    | redeemCurrent => simp [RefreshTask.step] at hop
    | redeemRetired => simp [RefreshTask.step] at hop
    | reusedRevoke => simp [RefreshTask.step] at hop
    | _ => rfl
  obtain ⟨claim, hclaim⟩ :=
    State.HoldsGuard.claim ⟨request, task, hconn, hkey, hsession⟩
  have hdrawn := (run_locked run n).drawn i key claim hclaim
  have hnext := run.step n
  rw [hlabel] at hnext
  obtain ⟨step, hstep, _, hcommit⟩ := next_poll hnext hconn
  simp only [Conn.step, Option.some.injEq] at hstep
  have hafter : key ∉ (run.state (n + 1)).proxy.refreshTokens.current := by
    rw [hcommit, ← hstep]
    simp only [State.commit, Conn.Step.lift, hop, StoreOp.apply,
      RefreshStore.removeCurrent]
    simp [AList.mem_erase]
  rw [← hlabel] at hnext
  exact current_absent_run run hlt (mem_drawn_next hnext hdrawn) hafter

theorem State.Exchanged.run
    {env : Env} (run : ProxyRun env) {i m n : ℕ} {key : Digest}
    (hexchanged : (run.state m).Exchanged env i key) (hle : m ≤ n) :
    (run.state n).Exchanged env i key := by
  obtain ⟨request, pair, scope, hconn, hkey⟩ := hexchanged
  exact ⟨request, pair, scope, ended_run run hconn rfl hle, hkey⟩

/-- At most one guard per token, no redemption of a guarded, retired or
discarded token, one active entry per session, and one returned pair per
token. -/
theorem refresh_rotation_linear {env : Env} (run : ProxyRun env) :
    (∀ n i j key, (run.state n).HoldsGuard env i key →
      (run.state n).HoldsGuard env j key → i = j) ∧
    (∀ n i key, (run.state n).HoldsGuard env i key → ∀ clientId u,
      ((run.state n).proxy.refreshTokens.redeemCurrent (run.state n).now
        key).2 ≠ .ok clientId u) ∧
    (∀ n i key, Removes run n i key → ∀ m, n < m →
      key ∉ (run.state m).proxy.refreshTokens.current ∧
      ∀ clientId u,
        ((run.state m).proxy.refreshTokens.redeemCurrent (run.state m).now
          key).2 ≠ .ok clientId u) ∧
    (∀ n key key' owner owner' deadline deadline',
      (run.state n).proxy.refreshTokens.current.lookup key =
        some (owner, deadline) →
      (run.state n).proxy.refreshTokens.current.lookup key' =
        some (owner', deadline') →
      owner.state = .active → owner'.state = .active →
      owner.upstreamId = owner'.upstreamId → key = key') ∧
    (∀ m n i j key, (run.state m).Exchanged env i key →
      (run.state n).Exchanged env j key → i = j) := by
  refine ⟨?_, ?_, ?_, ?_, ?_⟩
  · intro n i j key hi hj
    obtain ⟨claim, hclaim⟩ := hi.claim
    obtain ⟨other, hother⟩ := hj.claim
    exact (run_locked run n).unique i j key claim other hclaim hother
  · intro n i key hholds
    obtain ⟨claim, hclaim⟩ := hholds.claim
    exact (run_locked run n).no_redemption hclaim
  · intro n i key hremoves m hlt
    have habsent := absent_of_removes run hremoves hlt
    exact ⟨habsent, not_ok_of_absent habsent⟩
  · intro n key key' owner owner' deadline deadline' hkey hkey' hactive
      hactive' hsession
    have hsame := (run_oneSlot run n).unique owner'.upstreamId _ _
      (.entry key owner deadline hkey hactive hsession)
      (.entry key' owner' deadline' hkey' hactive' rfl)
    simpa using hsame
  · intro m n i j key hi hj
    obtain ⟨claim, hclaim⟩ := (hi.run run (le_max_left m n)).claim
    obtain ⟨other, hother⟩ := (hj.run run (le_max_right m n)).claim
    exact (run_locked run (max m n)).unique i j key claim other hclaim hother

namespace Sample

/-- One rotation, and a second request that presents the same token while the
first is between `replace` and its mints. -/
def rotation : List Label :=
  first.session 0 ++ refreshUntilReplaced 4 ++
    [.spawn 5 (.refreshGrant
      { refreshToken := some refreshRequest.refreshToken
        clientId := some refreshRequest.clientId })] ++
    refreshFromMint 4

theorem rotation_enabled :
    Transition.Enabled (State.next env) State.initial rotation = true := by
  decide +kernel

theorem refresh_rotation_linear_sample :
    ((run rotation rotation_enabled).state 33).HoldsGuard env 4
      (env.digest refreshRequest.refreshToken) ∧
    (∀ clientId u,
      (((run rotation rotation_enabled).state
        33).proxy.refreshTokens.redeemCurrent
          ((run rotation rotation_enabled).state 33).now
          (env.digest refreshRequest.refreshToken)).2 ≠ .ok clientId u) ∧
    ((run rotation rotation_enabled).state 38).Exchanged env 4
      (env.digest refreshRequest.refreshToken) ∧
    ∀ n j, ((run rotation rotation_enabled).state n).Exchanged env j
      (env.digest refreshRequest.refreshToken) → j = 4 := by
  have hlinear := refresh_rotation_linear (run rotation rotation_enabled)
  have hguard : ((run rotation rotation_enabled).state 33).HoldsGuard env 4
      (env.digest refreshRequest.refreshToken) := by
    refine ⟨refreshRequest, .mintAccess first.clientId first.sessionId
      (seconds 7200) true "view_issues", ?_, rfl, rfl⟩
    decide +kernel
  have hexchanged : ((run rotation rotation_enabled).state 38).Exchanged env 4
      (env.digest refreshRequest.refreshToken) := by
    refine ⟨refreshRequest, returnedPair, "view_issues", ?_, rfl⟩
    decide +kernel
  exact ⟨hguard, hlinear.2.1 33 4 _ hguard, hexchanged,
    fun n j hj => hlinear.2.2.2.2 n 38 j 4 _ hj hexchanged⟩

end Sample

end RuprogressMcp
