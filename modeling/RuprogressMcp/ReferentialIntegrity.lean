import RuprogressMcp.ProxyWriters

/-!
# Tokens and the sessions they name

The access and refresh tokens of a session live in two stores, the session in
a third.  A request that removes a session owes the purge of its tokens, and
the set of an expired session its revocation, until it has performed them.
The debts of a request are read off its task; every token names a session
that is present or whose purge some request owes.
-/

namespace RuprogressMcp

/-- The two stores whose entries name a session. -/
inductive Dependent
  | tokens
  | refresh
deriving DecidableEq

def Dependent.purge (u : String) : Dependent → StoreOp
  | tokens => .removeTokensByUpstream u
  | refresh => .removeRefreshByUpstream u

/-- Some entry of the store names session `u`. -/
inductive ProxyState.Names (proxy : ProxyState) : Dependent → String → Prop
  | token (key : Digest) (entry : TokenEntry × Instant)
      (hlookup : proxy.tokens.lookup key = some entry) :
      Names proxy .tokens entry.1.upstreamId
  | refresh (key : Digest) (entry : RefreshOwner × Instant)
      (hlookup : proxy.refreshTokens.current.lookup key = some entry) :
      Names proxy .refresh entry.1.upstreamId

/-- A mint that finds room and stores an entry for session `u`. -/
inductive StoreOp.Stores (now : Instant) (proxy : ProxyState) :
    StoreOp → Dependent → String → Prop
  | token (key : Digest) (entry : TokenEntry) (ttl : Duration)
      (hroom : (proxy.tokens.mint now key entry ttl).2 = true) :
      Stores now proxy (.mintToken key entry ttl) .tokens entry.upstreamId
  | refresh (key : Digest) (clientId u : String)
      (hroom : (proxy.refreshTokens.mint now key clientId u).2 = true) :
      Stores now proxy (.mintRefresh key clientId u) .refresh u

theorem StoreOp.names_after
    {now : Instant} {proxy : ProxyState} {op : StoreOp} {d : Dependent}
    {u : String} (hnames : (op.apply now proxy).Names d u) :
    (proxy.Names d u ∧ op ≠ d.purge u) ∨ op.Stores now proxy d u := by
  cases hnames with
  | token key entry hlookup =>
      rcases tokens_after hlookup with hold | ⟨ttl, hop, hroom⟩
      · refine Or.inl ⟨.token key entry hold, ?_⟩
        intro hop
        rw [hop] at hlookup
        simpa using (Table.lookup_retain_eq_some.mp hlookup).2
      · rw [hop]
        exact Or.inr (.token key entry.1 ttl hroom)
  | refresh key entry hlookup =>
      obtain ⟨owner, deadline⟩ := entry
      have hkept (state : RefreshState)
          (hold : proxy.refreshTokens.current.lookup key =
            some ({ owner with state }, deadline)) :
          proxy.Names .refresh owner.upstreamId :=
        .refresh key _ hold
      have hpurge : op ≠ Dependent.refresh.purge owner.upstreamId := by
        intro hop
        rw [hop] at hlookup
        simpa using (Table.lookup_retain_eq_some.mp hlookup).2
      rcases current_after hlookup with
        hold | ⟨hop, _, hroom⟩ | ⟨_, _, _, hold⟩ | ⟨_, _, hold⟩
      · exact Or.inl ⟨hkept owner.state hold, hpurge⟩
      · rw [hop]
        exact Or.inr (.refresh key owner.clientId owner.upstreamId hroom)
      · exact Or.inl ⟨hkept _ hold, hpurge⟩
      · exact Or.inl ⟨hkept _ hold, hpurge⟩

/-! ## What a request owes -/

def TakePc.purging (u : String) : Dependent → TakePc → List String
  | _, .upstream => []
  | _, .tokens _ => [u]
  | .tokens, .refresh _ => []
  | .refresh, .refresh _ => [u]

/-- The set that a `take_session` in progress has removed. -/
def TakePc.taken : TakePc → List UpstreamTokenSet
  | .upstream => []
  | .tokens set => [set]
  | .refresh set => [set]

/-- The sessions whose tokens in a store the request has still to purge. -/
def Conn.purging (d : Dependent) : Conn → List String
  | codeGrant _ (.running (.replayTake u pc)) => pc.purging u d
  | codeGrant _ (.running (.rollback u pc)) => pc.purging u d
  | codeGrant _ (.running (.sweepTokens _ u _ todo _)) => u :: todo.map Prod.fst
  | codeGrant _ (.running (.sweepRefresh _ u _ todo _)) =>
      match d with
      | .tokens => todo.map Prod.fst
      | .refresh => u :: todo.map Prod.fst
  | refreshGrant _ (.running (.reusedTake u pc)) => pc.purging u d
  | refreshGrant _ (.running (.failedTake u pc)) => pc.purging u d
  | revoke _ (.running (.takeSession u pc)) => pc.purging u d
  | _ => []

/-- The removed sets that the request has still to hand to
`revoke_upstream_and_purge`. -/
def Conn.toRevoke : Conn → List UpstreamTokenSet
  | codeGrant _ (.running (.sweepTokens _ _ expired todo swept)) =>
      swept ++ expired :: todo.map Prod.snd
  | codeGrant _ (.running (.sweepRefresh _ _ expired todo swept)) =>
      swept ++ expired :: todo.map Prod.snd
  | refreshGrant _ (.running (.reusedTake _ pc)) => pc.taken
  | revoke _ (.running (.takeSession _ pc)) => pc.taken
  | _ => []

/-- The request removes a session without revoking it upstream: containment
of a replayed code, and the clean-up after a failed mint or a failed upstream
refresh. -/
def Conn.discardsTaken : Conn → Bool
  | codeGrant _ (.running (.replayTake _ _)) => true
  | codeGrant _ (.running (.rollback _ _)) => true
  | refreshGrant _ (.running (.failedTake _ _)) => true
  | _ => false

def State.Purging (s : State) (d : Dependent) (u : String) : Prop :=
  ∃ i conn, s.conns i = some conn ∧ u ∈ conn.purging d

/-- The request has nothing to purge and nothing to revoke. -/
structure Conn.Settled (conn : Conn) : Prop where
  purging : ∀ d, conn.purging d = []
  toRevoke : conn.toRevoke = []

theorem settled_of_ended
    {conn : Conn} (hended : conn.inProgress = false) : conn.Settled := by
  cases conn with
  | codeGrant request phase | refreshGrant request phase
  | revoke token phase =>
      cases phase with
      | running task => simp [Conn.inProgress] at hended
      | finished response => exact ⟨fun _ => rfl, rfl⟩
  | _ => exact ⟨fun _ => rfl, rfl⟩

theorem settled_of_cancel
    {conn cancelled : Conn} (hcancel : conn.cancel = some cancelled) :
    conn.Settled := by
  unfold Conn.cancel at hcancel
  split at hcancel
  · exact ⟨fun _ => rfl, rfl⟩
  · simp only [Option.map_eq_some_iff] at hcancel
    obtain ⟨phase, hphase, _⟩ := hcancel
    unfold RefreshTask.cancel at hphase
    split at hphase
    all_goals first | exact ⟨fun _ => rfl, rfl⟩ | simp at hphase
  · exact ⟨fun _ => rfl, rfl⟩
  · exact ⟨fun _ => rfl, rfl⟩
  · simp at hcancel

theorem Conn.Taking.advance
    {env : Env} {now : Instant} {choice : Choice} {proxy : ProxyState}
    {conn : Conn} {step : Conn.Step} {u : String} {pc : TakePc}
    (htaking : conn.Taking u pc)
    (hstep : conn.step env now choice proxy = some step) :
    step.op = pc.section u ∧
      ∀ pc', (takeSession proxy u pc).2 = .inl pc' →
        step.conn.Taking u pc' ∧
          step.conn.discardsTaken = conn.discardsTaken := by
  cases htaking with
  | codeReplay request =>
      cases Conn.advance_of_step hstep
      refine ⟨takeSession_section .., fun pc' hnext => ?_⟩
      simp only [Step.lift, CodeTask.step, hnext]
      exact ⟨.codeReplay .., rfl⟩
  | codeRollback request =>
      cases Conn.advance_of_step hstep
      refine ⟨takeSession_section .., fun pc' hnext => ?_⟩
      simp only [Step.lift, CodeTask.step, hnext]
      exact ⟨.codeRollback .., rfl⟩
  | refreshReused request =>
      cases Conn.advance_of_step hstep
      refine ⟨takeSession_section .., fun pc' hnext => ?_⟩
      simp only [Step.lift, RefreshTask.step, hnext]
      exact ⟨.refreshReused .., rfl⟩
  | refreshFailed request =>
      cases Conn.advance_of_step hstep
      refine ⟨takeSession_section .., fun pc' hnext => ?_⟩
      simp only [Step.lift, RefreshTask.step, hnext]
      exact ⟨.refreshFailed .., rfl⟩
  | revoke token =>
      cases Conn.advance_of_step hstep
      refine ⟨takeSession_section .., fun pc' hnext => ?_⟩
      simp only [Step.lift, RevokeTask.step, hnext]
      exact ⟨.revoke .., rfl⟩

theorem Conn.Taking.purging_eq
    {conn : Conn} {u : String} {pc : TakePc} (htaking : conn.Taking u pc)
    (d : Dependent) : conn.purging d = pc.purging u d := by
  cases htaking <;> rfl

theorem Conn.Taking.purging_step
    {env : Env} {now : Instant} {choice : Choice} {proxy : ProxyState}
    {conn : Conn} {step : Conn.Step} {u v : String} {pc : TakePc}
    {d : Dependent} (htaking : conn.Taking v pc)
    (hstep : conn.step env now choice proxy = some step)
    (hpurging : u ∈ conn.purging d) :
    u ∈ step.conn.purging d ∨ step.op = d.purge u := by
  rw [htaking.purging_eq] at hpurging
  obtain ⟨hop, hnext⟩ := htaking.advance hstep
  cases pc with
  | upstream => simp [TakePc.purging] at hpurging
  | tokens set =>
      simp only [TakePc.purging, List.mem_singleton] at hpurging
      subst hpurging
      cases d with
      | tokens => exact Or.inr hop
      | refresh =>
          left
          rw [(hnext _ rfl).1.purging_eq]
          simp [TakePc.purging]
  | refresh set =>
      cases d with
      | tokens => simp [TakePc.purging] at hpurging
      | refresh =>
          simp only [TakePc.purging, List.mem_singleton] at hpurging
          subst hpurging
          exact Or.inr hop

theorem purging_sweepNext
    {request : CodeRequest} {set : UpstreamTokenSet}
    {swept : List UpstreamTokenSet} {todo : List (String × UpstreamTokenSet)}
    (d : Dependent) :
    Conn.purging d (.codeGrant request (CodeTask.sweepNext set swept todo)) =
      todo.map Prod.fst := by
  cases todo with
  | nil => rfl
  | cons head todo => rfl

theorem purging_step
    {env : Env} {now : Instant} {choice : Choice} {proxy : ProxyState}
    {conn : Conn} {step : Conn.Step} {d : Dependent} {u : String}
    (hstep : conn.step env now choice proxy = some step)
    (hpurging : u ∈ conn.purging d) :
    u ∈ step.conn.purging d ∨ step.op = d.purge u := by
  cases Conn.advance_of_step hstep with
  | codeGrant request task =>
      cases task with
      | replayTake v pc =>
          exact Conn.Taking.purging_step (.codeReplay request v pc) hstep hpurging
      | rollback v pc =>
          exact Conn.Taking.purging_step (.codeRollback request v pc) hstep hpurging
      | sweepTokens set v expired todo swept =>
          simp only [Conn.purging, List.mem_cons] at hpurging
          cases d with
          | tokens =>
              rcases hpurging with rfl | hmem
              · exact Or.inr rfl
              · exact Or.inl hmem
          | refresh => exact Or.inl (List.mem_cons.mpr hpurging)
      | sweepRefresh set v expired todo swept =>
          have hrest (hmem : u ∈ todo.map Prod.fst) :
              u ∈ Conn.purging d (.codeGrant request
                (CodeTask.sweepNext set (swept ++ [expired]) todo)) := by
            rwa [purging_sweepNext]
          cases d with
          | tokens => exact Or.inl (hrest hpurging)
          | refresh =>
              simp only [Conn.purging, List.mem_cons] at hpurging
              rcases hpurging with rfl | hmem
              · exact Or.inr rfl
              · exact Or.inl (hrest hmem)
      | _ => simp [Conn.purging] at hpurging
  | refreshGrant request task =>
      cases task with
      | reusedTake v pc =>
          exact Conn.Taking.purging_step (.refreshReused request v pc) hstep hpurging
      | failedTake v pc =>
          exact Conn.Taking.purging_step (.refreshFailed request v pc) hstep hpurging
      | _ => simp [Conn.purging] at hpurging
  | revoke token task =>
      cases task with
      | takeSession v pc =>
          exact Conn.Taking.purging_step (.revoke token v pc) hstep hpurging
      | _ => simp [Conn.purging] at hpurging
  | _ => simp [Conn.purging] at hpurging

/-! ## How a session leaves -/

theorem StoreOp.session_leaves
    {now : Instant} {proxy : ProxyState} {op : StoreOp} {u : String}
    {set : UpstreamTokenSet} {deadline : Instant}
    (hlookup : proxy.upstreamTokens.lookup u = some (set, deadline))
    (hgone : u ∉ (op.apply now proxy).upstreamTokens) :
    op = .takeUpstream u ∨ (op = .sweepUpstream ∧ deadline ≤ now) ∨
      ∃ id held expiry, op = .insertUpstream id held expiry ∧
        deadline ≤ now := by
  have hswept (hlive : now < deadline) : u ∈ proxy.upstreamTokens.sweep now :=
    Table.mem_of_lookup (Table.lookup_sweep_iff.mpr ⟨hlookup, hlive⟩)
  have hpresent := Table.mem_of_lookup hlookup
  cases op with
  | insertUpstream id held expiry =>
      refine Or.inr (Or.inr ⟨id, held, expiry, rfl, ?_⟩)
      by_contra hlive
      apply hgone
      rw [Table.mem_iff_lookup]
      by_cases heq : u = id
      · subst heq
        have hroom : (sweepAndCheckCapacity now proxy.upstreamTokens u).2 =
            true := by
          simp [sweepAndCheckCapacity, hswept (not_le.mp hlive)]
        exact ⟨_, lookup_insertBounded_self hroom⟩
      · exact ⟨_, lookup_insertBounded_of_ne heq hlookup (not_le.mp hlive)⟩
  | takeUpstream taken =>
      left
      by_contra hne
      apply hgone
      refine AList.mem_erase.mpr ⟨?_, hpresent⟩
      rintro rfl
      exact hne rfl
  | replaceUpstream replaced held =>
      exfalso
      apply hgone
      simp only [apply, UpstreamStore.replace]
      split
      · exact (AList.mem_insert _).mpr (Or.inr hpresent)
      · exact hpresent
  | sweepUpstream =>
      refine Or.inr (Or.inl ⟨rfl, ?_⟩)
      by_contra hlive
      exact hgone (hswept (not_le.mp hlive))
  | _ => exact absurd hpresent hgone

theorem Conn.Taking.toRevoke_eq
    {conn : Conn} {u : String} {pc : TakePc} (htaking : conn.Taking u pc)
    (hrevokes : conn.discardsTaken = false) : conn.toRevoke = pc.taken := by
  cases htaking with
  | codeReplay request => simp [discardsTaken] at hrevokes
  | codeRollback request => simp [discardsTaken] at hrevokes
  | refreshFailed request => simp [discardsTaken] at hrevokes
  | refreshReused request => rfl
  | revoke token => rfl

theorem mem_sweepExpired
    {store : UpstreamStore} {now : Instant} {u : String}
    {set : UpstreamTokenSet} {deadline : Instant}
    (hlookup : store.lookup u = some (set, deadline))
    (hexpired : deadline ≤ now) : (u, set) ∈ (store.sweepExpired now).2 := by
  have hentry := Table.lookup_eq_some_iff_mem_entries.mp hlookup
  simp only [UpstreamStore.sweepExpired, List.mem_map, List.mem_filter]
  exact ⟨_, ⟨hentry, by simpa using hexpired⟩, rfl⟩

theorem mem_toRevoke_sweepNext
    {request : CodeRequest} {set held : UpstreamTokenSet}
    {swept : List UpstreamTokenSet} {todo : List (String × UpstreamTokenSet)}
    (hheld : held ∈ todo.map Prod.snd) :
    held ∈ Conn.toRevoke
      (.codeGrant request (CodeTask.sweepNext set swept todo)) := by
  cases todo with
  | nil => simp at hheld
  | cons head todo => exact List.mem_append_right _ hheld

/-- Whoever removes a session owes the purge of its tokens; its set is then
revoked unless the removal is one that discards it.  The exception is the
sweep inside `UpstreamStore::insert`. -/
theorem owed_of_leaves
    {env : Env} {now : Instant} {choice : Choice} {proxy : ProxyState}
    {conn : Conn} {step : Conn.Step} {u : String} {set : UpstreamTokenSet}
    {deadline : Instant}
    (hstep : conn.step env now choice proxy = some step)
    (hlookup : proxy.upstreamTokens.lookup u = some (set, deadline))
    (hgone : u ∉ (step.op.apply now proxy).upstreamTokens) :
    ((∀ d, u ∈ step.conn.purging d) ∧
        (set ∈ step.conn.toRevoke ∨
          (conn.discardsTaken = true ∧ step.op = .takeUpstream u))) ∨
      ∃ id held expiry, step.op = .insertUpstream id held expiry ∧
        deadline ≤ now := by
  have hperforms := Conn.performs_of_step hstep
  rcases StoreOp.session_leaves hlookup hgone with
    hop | ⟨hop, hexpired⟩ | hinsert
  · left
    rw [hop] at hperforms
    cases hperforms with
    | take v pc htaking hsection =>
        cases pc <;> simp [TakePc.section] at hsection
        subst hsection
        have htaken : (takeSession proxy u .upstream).2 = .inl (.tokens set) := by
          simp [takeSession, UpstreamStore.take, hlookup]
        obtain ⟨_, hnext⟩ := htaking.advance hstep
        obtain ⟨hafter, hsame⟩ := hnext _ htaken
        constructor
        · intro d
          rw [hafter.purging_eq]
          simp [TakePc.purging]
        · cases hdiscards : conn.discardsTaken with
          | true => exact Or.inr ⟨rfl, hop⟩
          | false =>
              left
              rw [hafter.toRevoke_eq (hsame.trans hdiscards)]
              simp [TakePc.taken]
  · left
    rw [hop] at hperforms
    cases hperforms with
    | take v pc htaking hsection =>
        cases pc <;> simp [TakePc.section] at hsection
    | codeSweep request incoming =>
        cases Conn.advance_of_step hstep
        have hmem := mem_sweepExpired hlookup hexpired
        constructor
        · intro d
          simp only [Conn.Step.lift, CodeTask.step, purging_sweepNext]
          exact List.mem_map_of_mem hmem
        · exact Or.inl (mem_toRevoke_sweepNext (List.mem_map_of_mem hmem))
  · exact Or.inr hinsert

theorem toRevoke_step
    {env : Env} {now : Instant} {choice : Choice} {proxy : ProxyState}
    {conn : Conn} {step : Conn.Step} {set : UpstreamTokenSet}
    (hstep : conn.step env now choice proxy = some step)
    (hset : set ∈ conn.toRevoke) (hrefresh : set.refresh.isSome = true) :
    set ∈ step.conn.toRevoke ∨ set ∈ step.revoking := by
  have htaking {v : String} {pc : TakePc} (htaking : conn.Taking v pc)
      (hrevokes : conn.discardsTaken = false)
      (hlast : ∀ held, pc = .refresh held → held ∈ step.revoking) :
      set ∈ step.conn.toRevoke ∨ set ∈ step.revoking := by
    rw [htaking.toRevoke_eq hrevokes] at hset
    obtain ⟨_, hnext⟩ := htaking.advance hstep
    cases pc with
    | upstream => simp [TakePc.taken] at hset
    | tokens held =>
        left
        obtain ⟨hafter, hsame⟩ := hnext (.refresh held) rfl
        rwa [hafter.toRevoke_eq (hsame.trans hrevokes)]
    | refresh held =>
        right
        simp only [TakePc.taken, List.mem_singleton] at hset
        subst hset
        exact hlast set rfl
  cases Conn.advance_of_step hstep with
  | codeGrant request task =>
      cases task with
      | sweepTokens incoming v expired todo swept => exact Or.inl hset
      | sweepRefresh incoming v expired todo swept =>
          simp only [Conn.toRevoke] at hset
          cases todo with
          | nil =>
              right
              simp only [Conn.Step.lift, CodeTask.step, CodeTask.sweepRevoking,
                List.mem_filter]
              exact ⟨by simpa using hset, hrefresh⟩
          | cons head todo =>
              left
              simp only [Conn.Step.lift, CodeTask.step, CodeTask.sweepNext,
                Conn.toRevoke]
              simpa using hset
      | _ => simp [Conn.toRevoke] at hset
  | refreshGrant request task =>
      cases task with
      | reusedTake v pc =>
          refine htaking (.refreshReused request v pc) rfl ?_
          rintro held rfl
          simp [Conn.Step.lift, RefreshTask.step, takeSession]
      | _ => simp [Conn.toRevoke] at hset
  | revoke token task =>
      cases task with
      | takeSession v pc =>
          refine htaking (.revoke token v pc) rfl ?_
          rintro held rfl
          simp [Conn.Step.lift, RevokeTask.step, takeSession]
      | _ => simp [Conn.toRevoke] at hset
  | _ => simp [Conn.toRevoke] at hset

/-! ## The invariant -/

/-- A step that keeps the stores consistent.  The sweep inside an insertion
drops nothing that is referred to or revocable, a mint finds its session
present or its purge still owed, and no removal that discards the taken set
takes an expired session with a refresh token. -/
structure State.Respects (s : State) (conn : Conn) (op : StoreOp) :
    Prop where
  insert : ∀ id held expiry, op = .insertUpstream id held expiry →
    ∀ u set deadline, s.proxy.upstreamTokens.lookup u = some (set, deadline) →
      deadline ≤ s.now → set.refresh = none ∧ ∀ d, ¬ s.proxy.Names d u
  mint : ∀ d u, op.Stores s.now s.proxy d u →
    u ∈ s.proxy.upstreamTokens ∨ s.Purging d u
  take : conn.discardsTaken = true → ∀ u set deadline,
    op = .takeUpstream u →
    s.proxy.upstreamTokens.lookup u = some (set, deadline) →
    deadline ≤ s.now → set.refresh = none

/-- Every token names a session that is present or whose purge is owed. -/
def State.Linked (s : State) : Prop :=
  ∀ d u, s.proxy.Names d u → u ∈ s.proxy.upstreamTokens ∨ s.Purging d u

theorem State.Linked.initial : State.initial.Linked := by
  intro d u hnames
  cases hnames with
  | token key entry hlookup =>
      exact absurd (Table.mem_of_lookup hlookup) (AList.notMem_empty key)
  | refresh key entry hlookup =>
      exact absurd (Table.mem_of_lookup hlookup) (AList.notMem_empty key)

theorem not_names_of_purge
    {now : Instant} {proxy : ProxyState} {op : StoreOp} {d : Dependent}
    {u : String} (hop : op = d.purge u) :
    ¬ (op.apply now proxy).Names d u := by
  intro hnames
  rcases StoreOp.names_after hnames with ⟨_, hne⟩ | hstores
  · exact hne hop
  · cases hstores <;> simp [Dependent.purge] at hop

theorem purging_next
    {env : Env} {s s' : State} {label : Label} {d : Dependent} {u : String}
    (hnext : s.next env label = some s') (hpurging : s.Purging d u) :
    s'.Purging d u ∨ ¬ s'.proxy.Names d u := by
  obtain ⟨j, conn, hconn, hmem⟩ := hpurging
  rcases conn_next hnext hconn with hsame | ⟨choice, step, _, hstep, _, rfl⟩ |
    ⟨cancelled, _, hcancel, _⟩
  · exact Or.inl ⟨j, conn, hsame, hmem⟩
  · rcases purging_step hstep hmem with hafter | hop
    · exact Or.inl ⟨j, step.conn, State.commit_conns_self s j step, hafter⟩
    · exact Or.inr (not_names_of_purge hop)
  · rw [(settled_of_cancel hcancel).purging] at hmem
    simp at hmem

theorem State.Linked.next
    {env : Env} {s s' : State} {label : Label} (hlinked : s.Linked)
    (hrespects : ∀ i choice conn step, label = .poll i choice →
      s.conns i = some conn →
      conn.step env s.now choice s.proxy = some step →
      s.Respects conn step.op)
    (hnext : s.next env label = some s') : s'.Linked := by
  intro d u hnames
  have hpurging (howed : s.Purging d u) :
      u ∈ s'.proxy.upstreamTokens ∨ s'.Purging d u := by
    rcases purging_next hnext howed with hafter | hnone
    · exact Or.inr hafter
    · exact absurd hnames hnone
  rcases proxy_next hnext with ⟨hproxy, _⟩ |
    ⟨i, choice, conn, step, hlabel, hconn, hstep, _, rfl⟩
  · rw [hproxy] at hnames
    rcases hlinked d u hnames with hpresent | howed
    · rw [hproxy]
      exact Or.inl hpresent
    · exact hpurging howed
  · have hrespected := hrespects i choice conn step hlabel hconn hstep
    rcases StoreOp.names_after hnames with ⟨hbefore, _⟩ | hstores
    · rcases hlinked d u hbefore with hpresent | howed
      · by_cases hafter : u ∈ (s.commit i step).proxy.upstreamTokens
        · exact Or.inl hafter
        · obtain ⟨⟨set, deadline⟩, hlookup⟩ :=
            Table.mem_iff_lookup.mp hpresent
          rcases owed_of_leaves hstep hlookup hafter with
            ⟨howed, _⟩ | ⟨id, held, expiry, hop, hexpired⟩
          · exact Or.inr
              ⟨i, step.conn, State.commit_conns_self s i step, howed d⟩
          · exact absurd hbefore ((hrespected.insert id held expiry hop u set
              deadline hlookup hexpired).2 d)
      · exact hpurging howed
    · rcases hrespected.mint d u hstores with hpresent | howed
      · left
        generalize hop : step.op = op at hstores
        cases hstores <;> simpa [State.commit, hop, StoreOp.apply] using hpresent
      · exact hpurging howed

/-! ## Sets that are owed a revocation -/

/-- Since `handed` sets had been handed over, request `i` has handed over
this one too, or it still owes it. -/
def State.Owes (s : State) (i handed : ℕ) (set : UpstreamTokenSet) : Prop :=
  handed ≤ s.revoking.length ∧
    (set ∈ s.revoking.drop handed ∨
      ∃ conn, s.conns i = some conn ∧ set ∈ conn.toRevoke)

theorem revoking_next
    {env : Env} {s s' : State} {label : Label}
    (hnext : s.next env label = some s') :
    ∃ more, s'.revoking = s.revoking ++ more := by
  cases stepKind_of_next hnext with
  | poll i choice conn step hconn hstep hfresh => exact ⟨step.revoking, rfl⟩
  | _ => exact ⟨[], (List.append_nil _).symm⟩

theorem State.Owes.next
    {env : Env} {s s' : State} {label : Label} {i handed : ℕ}
    {set : UpstreamTokenSet} (hrefresh : set.refresh.isSome = true)
    (howes : s.Owes i handed set) (hnext : s.next env label = some s') :
    s'.Owes i handed set := by
  obtain ⟨hle, howes⟩ := howes
  obtain ⟨more, hmore⟩ := revoking_next hnext
  refine ⟨by rw [hmore, List.length_append]; omega, ?_⟩
  rcases howes with hdone | ⟨conn, hconn, hmem⟩
  · left
    rw [hmore, List.drop_append_of_le_length hle]
    exact List.mem_append_left _ hdone
  · rcases conn_next hnext hconn with hsame | ⟨choice, step, _, hstep, _, rfl⟩ |
      ⟨cancelled, _, hcancel, _⟩
    · exact Or.inr ⟨conn, hsame, hmem⟩
    · rcases toRevoke_step hstep hmem hrefresh with hafter | hrevoked
      · exact Or.inr ⟨step.conn, State.commit_conns_self s i step, hafter⟩
      · left
        simp only [State.commit, List.drop_append_of_le_length hle]
        exact List.mem_append_right _ hrevoked
    · rw [(settled_of_cancel hcancel).toRevoke] at hmem
      simp at hmem

/-! ## Referential integrity -/

section Integrity

variable {env : Env} (run : ProxyRun env)

def StepsRespect : Prop :=
  ∀ n i choice conn step, run.label n = .poll i choice →
    (run.state n).conns i = some conn →
    conn.step env (run.state n).now choice (run.state n).proxy = some step →
    (run.state n).Respects conn step.op

variable {run}

theorem run_linked (hrespect : StepsRespect run) (n : ℕ) :
    (run.state n).Linked := by
  induction n with
  | zero => rw [run.start]; exact State.Linked.initial
  | succ n ih => exact ih.next (hrespect n) (run.step n)

theorem named_present
    (hrespect : StepsRespect run) {n : ℕ} (hquiet : (run.state n).Quiescent)
    {d : Dependent} {u : String} (hnames : (run.state n).proxy.Names d u) :
    u ∈ (run.state n).proxy.upstreamTokens := by
  rcases run_linked hrespect n d u hnames with hpresent | ⟨i, conn, hconn, hmem⟩
  · exact hpresent
  · rw [(settled_of_ended (hquiet i conn hconn)).purging] at hmem
    simp at hmem

theorem expired_handed_over
    (hrespect : StepsRespect run) {m : ℕ} {u : String}
    {set : UpstreamTokenSet} {deadline : Instant}
    (hlookup : (run.state m).proxy.upstreamTokens.lookup u =
      some (set, deadline))
    (hexpired : deadline ≤ (run.state m).now)
    (hrefresh : set.refresh.isSome = true)
    (hgone : u ∉ (run.state (m + 1)).proxy.upstreamTokens) :
    ∃ i choice, run.label m = .poll i choice ∧
      ∀ n, m < n → ∀ conn, (run.state n).conns i = some conn →
        conn.inProgress = false →
        set ∈ (run.state n).revoking.drop (run.state m).revoking.length := by
  have hsome : set.refresh ≠ none := Option.isSome_iff_ne_none.mp hrefresh
  rcases proxy_next (run.step m) with ⟨hproxy, _⟩ |
    ⟨i, choice, conn, step, hlabel, hconn, hstep, _, hcommit⟩
  · rw [hproxy] at hgone
    exact absurd (Table.mem_of_lookup hlookup) hgone
  · refine ⟨i, choice, hlabel, ?_⟩
    have hrespected := hrespect m i choice conn step hlabel hconn hstep
    rw [hcommit] at hgone
    have howed : set ∈ step.conn.toRevoke := by
      rcases owed_of_leaves hstep hlookup hgone with
        ⟨_, howed | ⟨hdiscards, hop⟩⟩ | ⟨id, held, expiry, hop, _⟩
      · exact howed
      · exact absurd
          (hrespected.take hdiscards u set deadline hop hlookup hexpired) hsome
      · exact absurd (hrespected.insert id held expiry hop u set deadline
          hlookup hexpired).1 hsome
    intro n hn conn' hconn' hended
    have hstart : (run.state (m + 1)).Owes i (run.state m).revoking.length
        set := by
      rw [hcommit]
      refine ⟨by simp [State.commit], Or.inr ⟨step.conn, ?_, howed⟩⟩
      exact State.commit_conns_self _ i step
    have howes := run.stable (fun _ => True)
      (fun s => s.Owes i (run.state m).revoking.length set) (fun _ => trivial)
      (fun _ _ _ _ howes hnext => howes.next hrefresh hnext) hn hstart
    rcases howes.2 with hdone | ⟨held, hheld, hmem⟩
    · exact hdone
    · rw [hconn', Option.some.injEq] at hheld
      rw [← hheld, (settled_of_ended hended).toRevoke] at hmem
      simp at hmem

theorem proxy_stores_consistent (hrespect : StepsRespect run) :
    (∀ n, (run.state n).Quiescent →
      ∀ d u, (run.state n).proxy.Names d u →
        u ∈ (run.state n).proxy.upstreamTokens) ∧
    (∀ m n u, m < n → u ∈ (run.state m).proxy.upstreamTokens →
      u ∉ (run.state (m + 1)).proxy.upstreamTokens →
      (run.state n).Quiescent → ∀ d, ¬ (run.state n).proxy.Names d u) ∧
    (∀ m u set deadline,
      (run.state m).proxy.upstreamTokens.lookup u = some (set, deadline) →
      deadline ≤ (run.state m).now → set.refresh.isSome = true →
      u ∉ (run.state (m + 1)).proxy.upstreamTokens →
      ∃ i choice, run.label m = .poll i choice ∧
        ∀ n, m < n → ∀ conn, (run.state n).conns i = some conn →
          conn.inProgress = false →
          set ∈ (run.state n).revoking.drop
            (run.state m).revoking.length) := by
  refine ⟨?_, ?_, ?_⟩
  · intro n hquiet d u hnames
    exact named_present hrespect hquiet hnames
  · intro m n u hlt hpresent hgone hquiet d hnames
    have hdrawn := mem_drawnIds_run run (Nat.le_succ m)
      ((run_drawn run m).sessions u hpresent)
    exact session_absent_run run hlt hdrawn hgone
      (named_present hrespect hquiet hnames)
  · intro m u set deadline hlookup hexpired hrefresh hgone
    exact expired_handed_over hrespect hlookup hexpired hrefresh hgone

end Integrity

namespace Sample

/-- The first session is a second older than its refresh token, and it
expires while the second grant is between its sweep and its insertion. -/
def expiredAtInsert : List Label :=
  first.authorization 0 ++ (first.codeGrant 3).take 10 ++
    .elapse (seconds 1) :: (first.codeGrant 3).drop 10 ++
    .elapse (refreshTtl - seconds 2) :: second.authorization 4 ++
    (second.codeGrant 7).take 6 ++
    .elapse (seconds 1) :: (second.codeGrant 7).drop 6

theorem expiredAtInsert_enabled :
    Transition.Enabled (State.next env) State.initial expiredAtInsert =
      true := by
  decide +kernel

theorem expiredAtInsert_quiescent :
    ((run expiredAtInsert expiredAtInsert_enabled).state 51).Quiescent := by
  have hended : ∀ i < 8, (((run expiredAtInsert
      expiredAtInsert_enabled).state 51).conns i).all
        (fun conn => !conn.inProgress) = true := by
    decide +kernel
  refine run_quiescent (by decide : expiredAtInsert.all (spawnsBelow 8) = true)
    fun i hi conn hconn => ?_
  have hall := hended i hi
  rw [hconn] at hall
  simpa using hall

/-- The insertion drops the expired session: its refresh token stays, and its
upstream refresh token is never revoked. -/
theorem expired_session_dropped :
    (¬ ∀ (run : ProxyRun env) (n : ℕ), (run.state n).Quiescent →
      ∀ d u, (run.state n).proxy.Names d u →
        u ∈ (run.state n).proxy.upstreamTokens) ∧
    ¬ ∀ (run : ProxyRun env) (m n : ℕ) (u : String) (set : UpstreamTokenSet)
        (deadline : Instant), m < n →
      (run.state m).proxy.upstreamTokens.lookup u = some (set, deadline) →
      deadline ≤ (run.state m).now → set.refresh.isSome = true →
      u ∉ (run.state (m + 1)).proxy.upstreamTokens →
      (run.state n).Quiescent → set ∈ (run.state n).revoking := by
  have hfacts :
      (((run expiredAtInsert
        expiredAtInsert_enabled).state 51).proxy.refreshTokens.current.lookup
          (env.digest (refreshTokenPrefix ++ first.refresh))).map
            (fun entry => entry.1.upstreamId) = some first.sessionId ∧
      first.sessionId ∉ ((run expiredAtInsert
        expiredAtInsert_enabled).state 51).proxy.upstreamTokens ∧
      ((run expiredAtInsert
        expiredAtInsert_enabled).state 47).proxy.upstreamTokens.lookup
          first.sessionId =
        some (upstreamSet, refreshTtl) ∧
      refreshTtl ≤
        ((run expiredAtInsert expiredAtInsert_enabled).state 47).now ∧
      first.sessionId ∉ ((run expiredAtInsert
        expiredAtInsert_enabled).state (47 + 1)).proxy.upstreamTokens ∧
      ((run expiredAtInsert expiredAtInsert_enabled).state 51).revoking =
        [] := by
    decide +kernel
  obtain ⟨hnamed, habsent, hlookup, hexpired, hgone, hrevoking⟩ := hfacts
  constructor
  · intro hclaim
    obtain ⟨entry, hentry, hsession⟩ := Option.map_eq_some_iff.mp hnamed
    refine habsent (hclaim (run expiredAtInsert expiredAtInsert_enabled) 51
      expiredAtInsert_quiescent .refresh first.sessionId ?_)
    rw [← hsession]
    exact .refresh _ entry hentry
  · intro hclaim
    have hhanded := hclaim (run expiredAtInsert expiredAtInsert_enabled) 47 51
      first.sessionId _ refreshTtl (by decide) hlookup hexpired rfl hgone
      expiredAtInsert_quiescent
    rw [hrevoking] at hhanded
    simp at hhanded

/-- The sweep of the second grant finds the first session expired. -/
def sweptByGrant : List Label :=
  first.session 0 ++ .elapse refreshTtl :: second.authorization 4 ++
    (second.codeGrant 7).take 6 ++ List.replicate 2 (.poll 7 {}) ++
    (second.codeGrant 7).drop 6

theorem sweptByGrant_enabled :
    Transition.Enabled (State.next env) State.initial sweptByGrant = true := by
  decide +kernel

/-- A computable check that is enough for a step to be respectful. -/
def keepsSessions (s : State) : Label → Bool
  | .poll i choice =>
      match (s.conns i).bind (·.step env s.now choice s.proxy) with
      | none => true
      | some step =>
          match step.op with
          | .insertUpstream _ _ _ =>
              s.proxy.upstreamTokens.entries.all fun entry =>
                decide (s.now < entry.2.2)
          | .mintToken _ entry _ =>
              decide (entry.upstreamId ∈ s.proxy.upstreamTokens)
          | .mintRefresh _ _ u => decide (u ∈ s.proxy.upstreamTokens)
          | .takeUpstream _ => false
          | _ => true
  | _ => true

theorem respects_of_keepsSessions
    {s : State} {i : ℕ} {choice : Choice} {conn : Conn} {step : Conn.Step}
    (hkeeps : keepsSessions s (.poll i choice) = true)
    (hconn : s.conns i = some conn)
    (hstep : conn.step env s.now choice s.proxy = some step) :
    s.Respects conn step.op := by
  simp only [keepsSessions, hconn, Option.bind_some, hstep] at hkeeps
  generalize step.op = op at hkeeps
  refine ⟨?_, ?_, ?_⟩
  · rintro id held expiry rfl u set deadline hlookup hexpired
    have hlive := List.all_eq_true.mp hkeeps _
      (Table.lookup_eq_some_iff_mem_entries.mp hlookup)
    exact absurd hexpired (not_le.mpr (by simpa using hlive))
  · intro d u hstores
    cases hstores <;> exact Or.inl (by simpa using hkeeps)
  · rintro hdiscards u set deadline rfl
    simp at hkeeps

theorem sweptByGrant_respects :
    StepsRespect (run sweptByGrant sweptByGrant_enabled) := by
  have hkeeps : ∀ n < 51, keepsSessions
      ((run sweptByGrant sweptByGrant_enabled).state n)
      ((run sweptByGrant sweptByGrant_enabled).label n) = true := by
    decide +kernel
  intro n i choice conn step hlabel hconn hstep
  have hn := run_poll_lt hlabel
  have hkept := hkeeps n hn
  rw [hlabel] at hkept
  exact respects_of_keepsSessions hkept hconn hstep

theorem swept_session_handed_over :
    ((run sweptByGrant sweptByGrant_enabled).state
      42).proxy.upstreamTokens.lookup first.sessionId =
        some (upstreamSet, refreshTtl) ∧
    upstreamSet ∈
      ((run sweptByGrant sweptByGrant_enabled).state 51).revoking := by
  have hfacts :
      ((run sweptByGrant sweptByGrant_enabled).state
        42).proxy.upstreamTokens.lookup first.sessionId =
          some (upstreamSet, refreshTtl) ∧
      refreshTtl ≤ ((run sweptByGrant sweptByGrant_enabled).state 42).now ∧
      first.sessionId ∉ ((run sweptByGrant
        sweptByGrant_enabled).state (42 + 1)).proxy.upstreamTokens ∧
      (((run sweptByGrant sweptByGrant_enabled).state 51).conns 7).map
        Conn.inProgress = some false := by
    decide +kernel
  obtain ⟨hlookup, hexpired, hgone, hended⟩ := hfacts
  obtain ⟨conn, hconn, hidle⟩ := Option.map_eq_some_iff.mp hended
  obtain ⟨i, choice, hlabel, hhanded⟩ :=
    (proxy_stores_consistent sweptByGrant_respects).2.2 42 first.sessionId _
      refreshTtl hlookup hexpired rfl hgone
  have hrequest : (run sweptByGrant sweptByGrant_enabled).label 42 =
      .poll 7 {} := rfl
  rw [hrequest, Label.poll.injEq] at hlabel
  rw [← hlabel.1] at hhanded
  exact ⟨hlookup, List.mem_of_mem_drop (hhanded 51 (by decide) conn hconn hidle)⟩

end Sample

end RuprogressMcp
