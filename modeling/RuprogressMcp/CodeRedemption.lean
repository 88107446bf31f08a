import RuprogressMcp.ProxyWriters

/-!
# Redemption of authorization codes

`CodeStore::redeem` checks the bindings of a pending code under one lock and
removes the code from `pending` and from `upstream` under two more.  Several
redemptions can pass the check; the one that finds the code in `upstream` owns
it.  The stage of a code grant records how far it has come, and an invariant
over the stages of all requests gives single use.
-/

namespace RuprogressMcp

/-! ## PKCE -/

theorem foldl_or_xor_eq_zero
    (pairs : List (UInt8 × UInt8)) (diff : UInt8) :
    pairs.foldl (fun diff xy => diff ||| (xy.1 ^^^ xy.2)) diff = 0 ↔
      diff = 0 ∧ ∀ xy ∈ pairs, xy.1 = xy.2 := by
  induction pairs generalizing diff with
  | nil => simp
  | cons xy pairs ih =>
      rw [List.foldl_cons, ih, UInt8.or_eq_zero_iff, UInt8.xor_eq_zero_iff,
        List.forall_mem_cons, and_assoc]

theorem eq_of_zip
    {a b : List UInt8} (hlength : a.length = b.length)
    (hzip : ∀ xy ∈ a.zip b, xy.1 = xy.2) : a = b := by
  induction a generalizing b with
  | nil =>
      rw [List.length_nil, eq_comm, List.length_eq_zero_iff] at hlength
      exact hlength.symm
  | cons x a ih =>
      cases b with
      | nil => simp at hlength
      | cons y b =>
          rw [List.zip_cons_cons, List.forall_mem_cons] at hzip
          have hhead : x = y := hzip.1
          rw [hhead, ih (by simpa using hlength) hzip.2]

theorem constantTimeEq_iff {a b : List UInt8} :
    constantTimeEq a b = true ↔ a = b := by
  unfold constantTimeEq
  constructor
  · intro h
    split at h
    next => simp at h
    next hlength =>
      rw [beq_iff_eq, foldl_or_xor_eq_zero] at h
      exact eq_of_zip (not_not.mp hlength) h.2
  · rintro rfl
    rw [if_neg (by simp), beq_iff_eq, foldl_or_xor_eq_zero]
    refine ⟨rfl, ?_⟩
    induction a with
    | nil => simp
    | cons x a ih =>
        rw [List.zip_cons_cons, List.forall_mem_cons]
        exact ⟨rfl, ih⟩

theorem utf8Bytes_injective {s t : String} (h : utf8Bytes s = utf8Bytes t) :
    s = t := by
  have hbytes : s.toUTF8 = t.toUTF8 := ByteArray.ext (Array.toList_inj.mp h)
  exact String.toByteArray_inj.mp hbytes

theorem pkceVerify_iff {env : Env} {codeChallenge verifier : String} :
    pkceVerify env codeChallenge verifier = true ↔
      env.challengeFor verifier = codeChallenge := by
  rw [pkceVerify, constantTimeEq_iff]
  exact ⟨utf8Bytes_injective, fun heq => by rw [heq]⟩

theorem bindingsMatch_iff
    {env : Env} {entry : PendingCode} {request : CodeRequest} :
    CodeTask.bindingsMatch env entry request = true ↔
      entry.clientId = request.clientId ∧
        entry.redirectUri = request.redirectUri ∧
        env.challengeFor request.codeVerifier = entry.codeChallenge := by
  simp only [CodeTask.bindingsMatch, Bool.and_eq_true, decide_eq_true_eq,
    pkceVerify_iff, and_assoc]

/-! ## Stages of a code grant -/

/-- A grant that passed the binding check, one that has removed the pending
code, and one that owns the code. -/
inductive CodeStage
  | passed
  | removed
  | owned
deriving DecidableEq

namespace CodeTask

def stage : CodeTask → Option CodeStage
  | redeemPending => none
  | redeemConsumed => none
  | replayDeleteAccess _ => none
  | replayDeleteRefresh _ _ => none
  | replayTake _ _ => none
  | removePending => some .passed
  | removeUpstream => some .removed
  | _ => some .owned

end CodeTask

/-- The sections that consume a code. -/
def StoreOp.consuming : StoreOp → Bool
  | removePending _ => true
  | removeCodeUpstream _ => true
  | markConsumed _ _ => true
  | _ => false

namespace Conn

def codeStage (env : Env) : Conn → Option (Digest × CodeStage)
  | codeGrant request (.running task) =>
      task.stage.map fun stage => (env.digest request.code, stage)
  | _ => none

/-- What a step does to the stage of the request that performs it. -/
inductive StageStep (now : Instant) (proxy : ProxyState) :
    Option (Digest × CodeStage) → StoreOp → Option (Digest × CodeStage) → Prop
  | none (op : StoreOp) (hop : op.consuming = false) :
      StageStep now proxy none op none
  | pass (key : Digest) (entry : PendingCode)
      (hentry : (proxy.codes.redeemPending now key).2 = some entry) :
      StageStep now proxy none (.redeemPending key) (some (key, .passed))
  | remove (key : Digest) :
      StageStep now proxy (some (key, .passed)) (.removePending key)
        (some (key, .removed))
  | lose (key : Digest) (hgone : key ∉ proxy.codes.upstream) :
      StageStep now proxy (some (key, .removed)) (.removeCodeUpstream key) none
  | take (key : Digest) (hstored : key ∈ proxy.codes.upstream) :
      StageStep now proxy (some (key, .removed)) (.removeCodeUpstream key)
        (some (key, .owned))
  | own (key : Digest) (op : StoreOp) (hop : op.consuming = false) :
      StageStep now proxy (some (key, .owned)) op (some (key, .owned))
  | leave (key : Digest) (op : StoreOp) (hop : op.consuming = false) :
      StageStep now proxy (some (key, .owned)) op none
  | mark (key : Digest) (record : ConsumedRecord) :
      StageStep now proxy (some (key, .owned)) (.markConsumed key record) none

theorem section_consuming (pc : TakePc) (u : String) :
    (pc.section u).consuming = false := by
  cases pc <;> rfl

theorem stageStep_codeGrant
    (env : Env) (now : Instant) (choice : Choice) (proxy : ProxyState)
    (request : CodeRequest) (task : CodeTask) :
    StageStep now proxy ((codeGrant request (.running task)).codeStage env)
      (task.step env now choice proxy request).op
      ((codeGrant request
        (task.step env now choice proxy request).phase).codeStage env) := by
  cases task with
  | redeemPending =>
      simp only [CodeTask.step]
      split
      next => exact .none _ rfl
      next entry hentry =>
        split
        · exact .pass _ entry hentry
        · exact .none _ rfl
  | redeemConsumed =>
      simp only [CodeTask.step]
      split <;> exact .none _ rfl
  | removePending => exact .remove _
  | removeUpstream =>
      simp only [CodeTask.step, CodeStore.removeUpstream]
      split
      next hlookup => exact .lose _ (AList.lookup_eq_none.mp hlookup)
      next set hlookup => exact .take _ (Table.mem_of_lookup hlookup)
  | replayDeleteAccess record =>
      simp only [CodeTask.step]
      split <;> exact .none _ rfl
  | replayDeleteRefresh record digest => exact .none _ rfl
  | replayTake u pc =>
      simp only [CodeTask.step, takeSession_section]
      split <;> exact .none _ (section_consuming pc u)
  | touch set => exact .own _ _ rfl
  | sweep set =>
      simp only [CodeTask.step]
      unfold CodeTask.sweepNext
      split <;> exact .own _ _ rfl
  | sweepTokens set u expired todo swept => exact .own _ _ rfl
  | sweepRefresh set u expired todo swept =>
      simp only [CodeTask.step]
      unfold CodeTask.sweepNext
      split <;> exact .own _ _ rfl
  | readTtl set => exact .own _ _ rfl
  | readDeadline set ttl => exact .own _ _ rfl
  | insert set ttl deadline =>
      simp only [CodeTask.step]
      split
      · exact .leave _ _ rfl
      · split
        · exact .own _ _ rfl
        · exact .leave _ _ rfl
  | mintAccess u ttl wantsRefresh scope =>
      simp only [CodeTask.step]
      repeat' split
      all_goals exact .own _ _ rfl
  | mintRefresh u ttl scope accessToken =>
      simp only [CodeTask.step]
      repeat' split
      all_goals exact .own _ _ rfl
  | rollback u pc =>
      simp only [CodeTask.step, takeSession_section]
      split
      · exact .own _ _ (section_consuming pc u)
      · exact .leave _ _ (section_consuming pc u)
  | markConsumed u pair scope => exact .mark _ _

theorem Performs.codeGrant_of_consuming
    {env : Env} {conn : Conn} {op : StoreOp}
    (hperforms : Performs env conn op) (hop : op.consuming = true) :
    ∃ request phase, conn = .codeGrant request phase := by
  cases hperforms with
  | take u pc htaking hsection =>
      rw [hsection, section_consuming] at hop
      simp at hop
  | codeRemovePending request => exact ⟨request, _, rfl⟩
  | codeRemoveUpstream request => exact ⟨request, _, rfl⟩
  | codeMarkConsumed request u pair scope => exact ⟨request, _, rfl⟩
  | _ => simp [StoreOp.consuming] at hop

theorem stageStep_of_step
    {env : Env} {now : Instant} {choice : Choice} {proxy : ProxyState}
    {conn : Conn} {step : Step}
    (hstep : conn.step env now choice proxy = some step) :
    StageStep now proxy (conn.codeStage env) step.op
      (step.conn.codeStage env) := by
  have hconsuming : (∀ request phase, conn ≠ .codeGrant request phase) →
      step.op.consuming = false := by
    intro hother
    by_contra hop
    obtain ⟨request, phase, hconn⟩ :=
      (performs_of_step hstep).codeGrant_of_consuming (by simpa using hop)
    exact hother request phase hconn
  cases advance_of_step hstep with
  | codeGrant request task =>
      exact stageStep_codeGrant env now choice proxy request task
  | _ => exact .none _ (hconsuming (by simp))

end Conn

/-! ## The stages of a state -/

def State.codeStage (env : Env) (s : State) (i : ℕ) :
    Option (Digest × CodeStage) :=
  (s.conns i).bind (Conn.codeStage env)

theorem codeStage_start (env : Env) (request : Request) :
    (Conn.start env request).codeStage env = none := by
  cases request <;> simp only [Conn.start] <;> (try split) <;> rfl

theorem codeStage_cancel
    {env : Env} {conn cancelled : Conn}
    (hcancel : conn.cancel = some cancelled) :
    cancelled.codeStage env = conn.codeStage env := by
  unfold Conn.cancel at hcancel
  split at hcancel
  next => cases hcancel; rfl
  next request task =>
    obtain ⟨phase, _, rfl⟩ := Option.map_eq_some_iff.mp hcancel
    rfl
  next => cases hcancel; rfl
  next => cases hcancel; rfl
  next => simp at hcancel

theorem codeStage_next
    {env : Env} {s s' : State} {label : Label}
    (hnext : s.next env label = some s') :
    (s'.proxy = s.proxy ∧ s'.drawn = s.drawn ∧ s'.drawnIds = s.drawnIds ∧
        ∀ j, s'.codeStage env j = s.codeStage env j) ∨
      ∃ i step, s.Fresh step.op ∧ s' = s.commit i step ∧
        Conn.StageStep s.now s.proxy (s.codeStage env i) step.op
          (s'.codeStage env i) ∧
        ∀ j, j ≠ i → s'.codeStage env j = s.codeStage env j := by
  rcases view_next (Conn.codeStage env) (codeStage_start env)
      (fun _ _ => codeStage_cancel) hnext with hquiet |
    ⟨i, choice, conn, step, _, hconn, hstep, hfresh, rfl, hother⟩
  · exact Or.inl hquiet
  · refine Or.inr ⟨i, step, hfresh, rfl, ?_, hother⟩
    simpa [State.codeStage, State.commit_conns_self, hconn] using
      Conn.stageStep_of_step hstep

theorem redeemPending_eq_some
    {store : CodeStore} {now : Instant} {key : Digest} {entry : PendingCode}
    (hentry : (store.redeemPending now key).2 = some entry) :
    ∃ deadline, store.pending.lookup key = some (entry, deadline) ∧
      now < deadline ∧ (store.redeemPending now key).1 = store := by
  unfold CodeStore.redeemPending at hentry ⊢
  split at hentry
  next found deadline hlookup =>
    split at hentry
    next => simp at hentry
    next hlive =>
      simp only [Option.some.injEq] at hentry
      subst hentry
      exact ⟨deadline, hlookup, not_le.mp hlive, by simp [hlive]⟩
  next => simp at hentry

theorem redeemConsumed_of_lookup
    {store : CodeStore} {now deadline : Instant} {key : Digest}
    {record : ConsumedRecord}
    (hlookup : store.consumed.lookup key = some (record, deadline))
    (hlive : now < deadline) : store.redeemConsumed now key = some record := by
  simp [CodeStore.redeemConsumed, hlookup, hlive]

/-- A code that a redemption has removed is no longer pending, an owned code
is in neither map and has one owner, and a pending code has its set. -/
structure State.CodesOwned (env : Env) (s : State) : Prop where
  drawn : ∀ i key stage, s.codeStage env i = some (key, stage) → key ∈ s.drawn
  removed : ∀ i key stage, s.codeStage env i = some (key, stage) →
    stage ≠ .passed → key ∉ s.proxy.codes.pending
  owned : ∀ i key, s.codeStage env i = some (key, .owned) →
    key ∉ s.proxy.codes.upstream
  unique : ∀ i j key, s.codeStage env i = some (key, .owned) →
    s.codeStage env j = some (key, .owned) → i = j
  stored : ∀ key ∈ s.proxy.codes.pending, key ∈ s.proxy.codes.upstream

theorem State.CodesOwned.initial (env : Env) :
    State.initial.CodesOwned env := by
  constructor
  case stored => exact fun key hkey => absurd hkey (AList.notMem_empty key)
  all_goals simp [State.codeStage, State.initial]

theorem codeStage_before
    {env : Env} {s : State} {i j : ℕ} {step : Conn.Step} {key : Digest}
    {stage : CodeStage}
    (hstage : Conn.StageStep s.now s.proxy (s.codeStage env i) step.op
      ((s.commit i step).codeStage env i))
    (hother : ∀ j, j ≠ i →
      (s.commit i step).codeStage env j = s.codeStage env j)
    (hafter : (s.commit i step).codeStage env j = some (key, stage)) :
    s.codeStage env j = some (key, stage) ∨
      (j = i ∧ stage = .passed ∧ ∃ entry,
        (s.proxy.codes.redeemPending s.now key).2 = some entry) ∨
      (j = i ∧ stage = .removed ∧ s.codeStage env i = some (key, .passed) ∧
        step.op = .removePending key) ∨
      (j = i ∧ stage = .owned ∧ s.codeStage env i = some (key, .removed) ∧
        step.op = .removeCodeUpstream key ∧ key ∈ s.proxy.codes.upstream) := by
  by_cases heq : j = i
  · subst heq
    rw [hafter] at hstage
    generalize hop : step.op = op at hstage
    generalize hbefore : s.codeStage env j = before at hstage
    cases hstage with
    | pass _ entry hentry => exact Or.inr (Or.inl ⟨rfl, rfl, entry, hentry⟩)
    | remove _ => exact Or.inr (Or.inr (Or.inl ⟨rfl, rfl, rfl, rfl⟩))
    | take _ hstored =>
        exact Or.inr (Or.inr (Or.inr ⟨rfl, rfl, rfl, rfl, hstored⟩))
    | own _ _ hop => exact Or.inl rfl
  · rw [hother j heq] at hafter
    exact Or.inl hafter

theorem State.CodesOwned.commit
    {env : Env} {s : State} {label : Label} (hcodes : s.CodesOwned env)
    (hdrawn : s.Drawn) {i : ℕ} {step : Conn.Step}
    (hnext : s.next env label = some (s.commit i step))
    (hstage : Conn.StageStep s.now s.proxy (s.codeStage env i) step.op
      ((s.commit i step).codeStage env i))
    (hother : ∀ j, j ≠ i →
      (s.commit i step).codeStage env j = s.codeStage env j) :
    (s.commit i step).CodesOwned env where
  drawn := by
    intro j key stage hafter
    apply mem_drawn_commit
    rcases codeStage_before hstage hother hafter with hold |
      ⟨_, _, entry, hentry⟩ | ⟨_, _, hpassed, _⟩ | ⟨_, _, hremoved, _⟩
    · exact hcodes.drawn j key stage hold
    · obtain ⟨deadline, hlookup, _⟩ := redeemPending_eq_some hentry
      exact hdrawn.pending key (Table.mem_of_lookup hlookup)
    · exact hcodes.drawn i key _ hpassed
    · exact hcodes.drawn i key _ hremoved
  removed := by
    intro j key stage hafter hnotPassed
    rcases codeStage_before hstage hother hafter with hold |
      ⟨_, hpassed, _⟩ | ⟨_, _, _, hop⟩ | ⟨_, _, hremoved, _⟩
    · exact pending_absent_next hnext (hcodes.drawn j key stage hold)
        (hcodes.removed j key stage hold hnotPassed)
    · exact absurd hpassed hnotPassed
    · simp [State.commit, hop, StoreOp.apply, CodeStore.removePending,
        AList.mem_erase]
    · exact pending_absent_next hnext (hcodes.drawn i key _ hremoved)
        (hcodes.removed i key _ hremoved (by simp))
  owned := by
    intro j key hafter
    rcases codeStage_before hstage hother hafter with hold |
      ⟨_, hpassed, _⟩ | ⟨_, hremoved, _⟩ | ⟨_, _, _, hop, _⟩
    · exact codeUpstream_absent_next hnext (hcodes.drawn j key _ hold)
        (hcodes.owned j key hold)
    · simp at hpassed
    · simp at hremoved
    · simp [State.commit, hop, StoreOp.apply, CodeStore.removeUpstream,
        AList.mem_erase]
  unique := by
    intro j k key hj hk
    have howned {l} (hl : (s.commit i step).codeStage env l =
        some (key, .owned)) :
        s.codeStage env l = some (key, .owned) ∨
          (l = i ∧ key ∈ s.proxy.codes.upstream) := by
      rcases codeStage_before hstage hother hl with hold |
        ⟨_, hpassed, _⟩ | ⟨_, hremoved, _⟩ | ⟨hl, _, _, _, hstored⟩
      · exact Or.inl hold
      · simp at hpassed
      · simp at hremoved
      · exact Or.inr ⟨hl, hstored⟩
    rcases howned hj with hj | ⟨hji, hstored⟩
    · rcases howned hk with hk | ⟨_, hstored⟩
      · exact hcodes.unique j k key hj hk
      · exact absurd hstored (hcodes.owned j key hj)
    · rcases howned hk with hk | ⟨hki, _⟩
      · exact absurd hstored (hcodes.owned k key hk)
      · rw [hji, hki]
  stored := by
    intro key hkey
    obtain ⟨entry, hentry⟩ := Table.mem_iff_lookup.mp hkey
    rcases StoreOp.pending_after hentry with hold | ⟨set, hop, _, hroom⟩
    · have hpending := Table.mem_of_lookup hold
      refine StoreOp.codeUpstream_kept (hcodes.stored key hpending) ?_
      intro hop
      rw [hop] at hstage
      generalize hbefore : s.codeStage env i = before at hstage
      generalize (s.commit i step).codeStage env i = after at hstage
      cases hstage with
      | none _ hquiet => simp [StoreOp.consuming] at hquiet
      | lose _ _ => exact hcodes.removed i key _ hbefore (by simp) hpending
      | take _ _ => exact hcodes.removed i key _ hbefore (by simp) hpending
      | own _ _ hquiet => simp [StoreOp.consuming] at hquiet
      | leave _ _ hquiet => simp [StoreOp.consuming] at hquiet
    · simp only [State.commit, hop, StoreOp.apply, CodeStore.mint] at hroom ⊢
      split at hroom
      next hasRoom =>
        rw [if_pos hasRoom]
        exact (AList.mem_insert _).mpr (Or.inl rfl)
      next => simp at hroom

theorem State.CodesOwned.next
    {env : Env} {s s' : State} {label : Label} (hcodes : s.CodesOwned env)
    (hdrawn : s.Drawn) (hnext : s.next env label = some s') :
    s'.CodesOwned env := by
  rcases codeStage_next hnext with ⟨hproxy, hkeys, _, hstages⟩ |
    ⟨i, step, _, rfl, hstage, hother⟩
  · constructor
    · simpa only [hstages, hkeys] using hcodes.drawn
    · simpa only [hstages, hproxy] using hcodes.removed
    · simpa only [hstages, hproxy] using hcodes.owned
    · simpa only [hstages] using hcodes.unique
    · simpa only [hproxy] using hcodes.stored
  · exact hcodes.commit hdrawn hnext hstage hother

theorem run_codesOwned {env : Env} (run : ProxyRun env) :
    ∀ n, (run.state n).CodesOwned env := by
  intro n
  induction n with
  | zero =>
      rw [run.start]
      exact State.CodesOwned.initial env
  | succ n ih => exact ih.next (run_drawn run n) (run.step n)

/-! ## Calls of `redeem` -/

inductive CodeOutcome
  | ok (set : UpstreamTokenSet)
  | mismatch
  | replayed (record : ConsumedRecord)
  | invalid
deriving DecidableEq

def consumedAnswer : Option ConsumedRecord → CodeOutcome
  | some record => .replayed record
  | none => .invalid

def takenAnswer : Option UpstreamTokenSet → CodeOutcome
  | some set => .ok set
  | none => .invalid

section Redemption

variable {env : Env} (run : ProxyRun env)

/-- In step `a` request `j` reads the pending code and passes the binding
check. -/
structure PassesCheck
    (a j : ℕ) (request : CodeRequest) (entry : PendingCode) : Prop where
  label : ∃ choice, run.label a = .poll j choice
  conn : (run.state a).conns j =
    some (.codeGrant request (.running .redeemPending))
  pending : ((run.state a).proxy.codes.redeemPending (run.state a).now
    (env.digest request.code)).2 = some entry
  bindings : CodeTask.bindingsMatch env entry request = true

/-- Request `j` calls `redeem`: the first section is step `a`, and the call
returns in step `b`. -/
inductive CodeRedeems (j : ℕ) (request : CodeRequest) :
    ℕ → ℕ → CodeOutcome → Prop
  | mismatch (a : ℕ) (choice : Choice) (entry : PendingCode)
      (hlabel : run.label a = .poll j choice)
      (hconn : (run.state a).conns j =
        some (.codeGrant request (.running .redeemPending)))
      (hpending : ((run.state a).proxy.codes.redeemPending (run.state a).now
        (env.digest request.code)).2 = some entry)
      (hbindings : CodeTask.bindingsMatch env entry request = false) :
      CodeRedeems j request a a .mismatch
  | consumed (a b : ℕ) (hlt : a < b) (choice choice' : Choice)
      (hlabel : run.label a = .poll j choice)
      (hconn : (run.state a).conns j =
        some (.codeGrant request (.running .redeemPending)))
      (hpending : ((run.state a).proxy.codes.redeemPending (run.state a).now
        (env.digest request.code)).2 = none)
      (hlabel' : run.label b = .poll j choice')
      (hconn' : (run.state b).conns j =
        some (.codeGrant request (.running .redeemConsumed))) :
      CodeRedeems j request a b
        (consumedAnswer ((run.state b).proxy.codes.redeemConsumed
          (run.state b).now (env.digest request.code)))
  | matched (a b : ℕ) (hlt : a < b) (choice : Choice) (entry : PendingCode)
      (hcheck : PassesCheck run a j request entry)
      (hlabel : run.label b = .poll j choice)
      (hconn : (run.state b).conns j =
        some (.codeGrant request (.running .removeUpstream))) :
      CodeRedeems j request a b
        (takenAnswer ((run.state b).proxy.codes.upstream.lookup
          (env.digest request.code)))

def PerformsAt (m : ℕ) (op : StoreOp) : Prop :=
  ∃ i choice conn step, run.label m = .poll i choice ∧
    (run.state m).conns i = some conn ∧
    conn.step env (run.state m).now choice (run.state m).proxy = some step ∧
    step.op = op

variable {run}

theorem PerformsAt.commit
    {m : ℕ} {op : StoreOp} (hperforms : PerformsAt run m op) :
    (run.state m).Fresh op ∧
      (run.state (m + 1)).proxy =
        op.apply (run.state m).now (run.state m).proxy ∧
      ∃ i conn, (run.state m).conns i = some conn ∧
        Conn.Performs env conn op := by
  obtain ⟨i, hsection⟩ : ∃ i, SectionOf run m i op := hperforms
  obtain ⟨hfresh, _, hproxy, conn, hconn, hsections⟩ := hsection.commit
  exact ⟨hfresh, hproxy, i, conn, hconn, hsections⟩

theorem codeTask_removing_step
    {now : Instant} {choice : Choice} {proxy : ProxyState}
    {request : CodeRequest} {task task' : CodeTask}
    (hphase : (task.step env now choice proxy request).phase = .running task')
    (htask : task' = .removePending ∨ task' = .removeUpstream) :
    (task = .redeemPending ∧ ∃ entry,
        (proxy.codes.redeemPending now (env.digest request.code)).2 =
          some entry ∧
        CodeTask.bindingsMatch env entry request = true) ∨
      task = .removePending := by
  cases task
  case redeemPending =>
    simp only [CodeTask.step] at hphase
    split at hphase
    next =>
      simp only [Phase.running.injEq] at hphase
      subst hphase
      simp at htask
    next entry hentry =>
      split at hphase
      next hbindings => exact Or.inl ⟨rfl, entry, hentry, hbindings⟩
      next => simp [Phase.failed] at hphase
  case removePending => exact Or.inr rfl
  all_goals
    simp only [CodeTask.step, CodeTask.sweepNext] at hphase
    repeat' split at hphase
  all_goals simp only [Phase.running.injEq, Phase.failed, reduceCtorEq] at hphase
  all_goals
    subst hphase
    simp at htask

theorem check_of_removing
    {n j : ℕ} {request : CodeRequest} {task : CodeTask}
    (hconn : (run.state n).conns j =
      some (.codeGrant request (.running task)))
    (htask : task = .removePending ∨ task = .removeUpstream) :
    ∃ a, a < n ∧ ∃ entry, PassesCheck run a j request entry := by
  induction n generalizing task with
  | zero => simp [run.start, State.initial] at hconn
  | succ n ih =>
      have hstep (hbefore : ∃ task, (run.state n).conns j =
          some (.codeGrant request (.running task)) ∧
          (task = .removePending ∨ task = .removeUpstream)) :
          ∃ a, a < n + 1 ∧ ∃ entry, PassesCheck run a j request entry := by
        obtain ⟨before, hconn, hbefore⟩ := hbefore
        obtain ⟨a, ha, hcheck⟩ := ih hconn hbefore
        exact ⟨a, by omega, hcheck⟩
      rcases conn_before (run.step n) hconn with hold | ⟨request', _, hstart⟩ |
        ⟨choice, before, step, hlabel, hbefore, hpolled, _, _, hafter⟩ |
        ⟨before, _, _, hcancel⟩
      · exact hstep ⟨task, hold, htask⟩
      · cases request' <;> simp only [Conn.start] at hstart
        all_goals try split at hstart
        all_goals simp [CodeTask.start] at hstart
        rw [hstart.2] at htask
        simp at htask
      · cases Conn.advance_of_step hpolled with
        | codeGrant request' task' =>
            simp only [Conn.Step.lift, Conn.codeGrant.injEq] at hafter
            obtain ⟨rfl, hphase⟩ := hafter
            rcases codeTask_removing_step hphase htask with
              ⟨rfl, entry, hentry, hbindings⟩ | rfl
            · exact ⟨n, by omega, entry, ⟨choice, hlabel⟩, hbefore, hentry,
                hbindings⟩
            · exact hstep ⟨_, hbefore, Or.inl rfl⟩
        | _ => simp [Conn.Step.lift] at hafter
      · unfold Conn.cancel at hcancel
        split at hcancel
        all_goals simp at hcancel

theorem minted_before
    {n : ℕ} {key : Digest} {entry : PendingCode} {deadline : Instant}
    (hlookup : (run.state n).proxy.codes.pending.lookup key =
      some (entry, deadline)) :
    ∃ m, m < n ∧ ∃ set, PerformsAt run m (.mintCode key entry set) ∧
      deadline = expiresAfter (run.state m).now codeTtl := by
  obtain ⟨m, i, op, _, hmn, hsection, hnot, hm⟩ := exists_section run
    (fun proxy => proxy.codes.pending.lookup key = some (entry, deadline))
    (Nat.zero_le n) (by simp [run.start, State.initial, ProxyState.new]) hlookup
  rcases StoreOp.pending_after hm with hold | ⟨set, rfl, hdeadline, _⟩
  · exact absurd hold hnot
  · exact ⟨m, hmn, set, ⟨i, hsection⟩, hdeadline⟩

theorem CodeRedeems.takes
    {j a b : ℕ} {request : CodeRequest} {set : UpstreamTokenSet}
    (hredeems : CodeRedeems run j request a b (.ok set)) :
    (∃ choice, run.label b = .poll j choice) ∧
      (run.state b).conns j =
        some (.codeGrant request (.running .removeUpstream)) ∧
      (run.state b).proxy.codes.upstream.lookup (env.digest request.code) =
        some set ∧
      ∃ entry, PassesCheck run a j request entry := by
  generalize houtcome : CodeOutcome.ok set = outcome at hredeems
  cases hredeems with
  | mismatch => simp at houtcome
  | consumed => unfold consumedAnswer at houtcome; split at houtcome <;> simp at houtcome
  | matched _ hlt choice entry hcheck hlabel hconn =>
      unfold takenAnswer at houtcome
      split at houtcome
      next found hlookup =>
        simp only [CodeOutcome.ok.injEq] at houtcome
        subst houtcome
        exact ⟨⟨choice, hlabel⟩, hconn, hlookup, entry, hcheck⟩
      next => simp at houtcome

theorem taken_absent
    {j b n : ℕ} {request : CodeRequest}
    (hlabel : ∃ choice, run.label b = .poll j choice)
    (hconn : (run.state b).conns j =
      some (.codeGrant request (.running .removeUpstream)))
    (hstored : env.digest request.code ∈ (run.state b).proxy.codes.upstream)
    (hlt : b < n) :
    env.digest request.code ∉ (run.state n).proxy.codes.upstream := by
  obtain ⟨choice, hlabel⟩ := hlabel
  have hnext := run.step b
  rw [hlabel] at hnext
  obtain ⟨step, hstep, _, hcommit⟩ := next_poll hnext hconn
  simp only [Conn.step, CodeTask.step, Option.some.injEq] at hstep
  have hdrawn := (run_drawn run b).codeUpstream _ hstored
  have hafter : env.digest request.code ∉
      (run.state (b + 1)).proxy.codes.upstream := by
    rw [hcommit, ← hstep]
    simp [State.commit, Conn.Step.lift, StoreOp.apply,
      CodeStore.removeUpstream, AList.mem_erase]
  have hboth : env.digest request.code ∈ (run.state n).drawn ∧
      env.digest request.code ∉ (run.state n).proxy.codes.upstream :=
    run.stable (fun _ => True)
      (fun s => env.digest request.code ∈ s.drawn ∧
        env.digest request.code ∉ s.proxy.codes.upstream)
      (fun _ => trivial)
      (fun _ _ _ _ hgood hnext => ⟨mem_drawn_next hnext hgood.1,
        codeUpstream_absent_next hnext hgood.1 hgood.2⟩)
      hlt ⟨mem_drawn_run run (Nat.le_succ b) hdrawn, hafter⟩
  exact hboth.2

theorem redeemed_once
    {i j a b c d : ℕ} {request request' : CodeRequest}
    {set set' : UpstreamTokenSet}
    (hi : CodeRedeems run i request a b (.ok set))
    (hj : CodeRedeems run j request' c d (.ok set'))
    (hsame : env.digest request.code = env.digest request'.code) :
    i = j ∧ b = d := by
  obtain ⟨hlabeli, hconni, hlookupi, _⟩ := hi.takes
  obtain ⟨hlabelj, hconnj, hlookupj, _⟩ := hj.takes
  have hstep : b = d := by
    rcases Nat.lt_trichotomy b d with hlt | heq | hlt
    · have habsent := taken_absent hlabeli hconni
        (Table.mem_of_lookup hlookupi) hlt
      rw [hsame] at habsent
      exact absurd (Table.mem_of_lookup hlookupj) habsent
    · exact heq
    · have habsent := taken_absent hlabelj hconnj
        (Table.mem_of_lookup hlookupj) hlt
      rw [← hsame] at habsent
      exact absurd (Table.mem_of_lookup hlookupi) habsent
  subst hstep
  obtain ⟨choice, hlabeli⟩ := hlabeli
  obtain ⟨choice', hlabelj⟩ := hlabelj
  rw [hlabeli, Label.poll.injEq] at hlabelj
  exact ⟨hlabelj.1, rfl⟩

theorem mismatch_changes_nothing
    {j a b : ℕ} {request : CodeRequest}
    (hredeems : CodeRedeems run j request a b .mismatch) :
    a = b ∧ (run.state (b + 1)).proxy = (run.state a).proxy := by
  generalize houtcome : CodeOutcome.mismatch = outcome at hredeems
  cases hredeems with
  | mismatch choice entry hlabel hconn hpending hbindings =>
      have hnext := run.step a
      rw [hlabel] at hnext
      obtain ⟨step, hstep, _, hcommit⟩ := next_poll hnext hconn
      simp only [Conn.step, CodeTask.step, Option.some.injEq] at hstep
      obtain ⟨_, _, _, hsame⟩ := redeemPending_eq_some hpending
      refine ⟨rfl, ?_⟩
      rw [hcommit, ← hstep]
      simp only [State.commit, Conn.Step.lift, StoreOp.apply, hsame]
  | consumed => unfold consumedAnswer at houtcome; split at houtcome <;> simp at houtcome
  | matched => unfold takenAnswer at houtcome; split at houtcome <;> simp at houtcome

theorem pending_until_checked
    {m n : ℕ} {key : Digest} {entry : PendingCode} {set : UpstreamTokenSet}
    (hmint : PerformsAt run m (.mintCode key entry set))
    (hroom : (sweepAndCheckCapacity (run.state m).now
      (run.state m).proxy.codes.pending key).2 = true)
    (hlt : m < n)
    (hlive : (run.state n).now < expiresAfter (run.state m).now codeTtl)
    (hunchecked : ∀ a, a < n → ∀ j request entry',
      env.digest request.code = key → ¬ PassesCheck run a j request entry') :
    (run.state n).proxy.codes.pending.lookup key =
      some (entry, expiresAfter (run.state m).now codeTtl) := by
  obtain ⟨_, hproxy, _⟩ := hmint.commit
  have hinserted : (run.state (m + 1)).proxy.codes.pending.lookup key =
      some (entry, expiresAfter (run.state m).now codeTtl) := by
    have hself : (insertBounded (run.state m).now
        (run.state m).proxy.codes.pending key entry
        (expiresAfter (run.state m).now codeTtl)).1.lookup key =
          some (entry, expiresAfter (run.state m).now codeTtl) :=
      lookup_insertBounded_self hroom
    rw [hproxy]
    simp only [StoreOp.apply, CodeStore.mint]
    split <;> exact hself
  induction n, hlt using Nat.le_induction with
  | base => exact hinserted
  | succ n hn ih =>
      have hearlier := lt_of_le_of_lt (now_le_next (run.step n)) hlive
      have hbefore := ih hearlier fun a ha => hunchecked a (by omega)
      rcases proxy_next (run.step n) with ⟨hsame, _⟩ |
        ⟨i, choice, conn, step, hlabel, hconn, hstep, hfresh, hcommit⟩
      · rw [hsame]
        exact hbefore
      · rw [hcommit]
        refine StoreOp.pending_kept hbefore (by simpa only using hearlier)
          ?_ ?_
        · intro hop
          have hperforms := Conn.performs_of_step hstep
          rw [hop] at hperforms
          cases hperforms with
          | take u pc htaking hsection =>
              cases pc <;> simp [TakePc.section] at hsection
          | codeRemovePending request =>
              obtain ⟨a, ha, checked, hcheck⟩ :=
                check_of_removing hconn (Or.inl rfl)
              exact hunchecked a (by omega) i request checked rfl hcheck
        · intro hminted
          have hdrawn := (run_drawn run n).pending key
            (Table.mem_of_lookup hbefore)
          exact hfresh.1 key hminted hdrawn

theorem ok_unless_taken
    {i a c : ℕ} {request : CodeRequest} {entry : PendingCode}
    {outcome : CodeOutcome} (hcheck : PassesCheck run a i request entry)
    (hredeems : CodeRedeems run i request a c outcome) :
    (∃ set, outcome = .ok set) ∨
      ∃ j request' a' b set, env.digest request'.code =
        env.digest request.code ∧ b < c ∧
        CodeRedeems run j request' a' b (.ok set) := by
  cases hredeems with
  | mismatch choice other hlabel hconn hpending hbindings =>
      rw [hcheck.pending, Option.some.injEq] at hpending
      rw [← hpending, hcheck.bindings] at hbindings
      simp at hbindings
  | consumed _ hlt choice choice' hlabel hconn hpending hlabel' hconn' =>
      rw [hcheck.pending] at hpending
      simp at hpending
  | matched _ hlt choice other _ hlabel hconn =>
      cases hlookup : (run.state c).proxy.codes.upstream.lookup
          (env.digest request.code) with
      | some set => exact Or.inl ⟨set, rfl⟩
      | none =>
          right
          obtain ⟨deadline, hpending, _⟩ :=
            redeemPending_eq_some hcheck.pending
          have hstored := (run_codesOwned run a).stored _
            (Table.mem_of_lookup hpending)
          obtain ⟨e, _, hec, hpresent, hgone⟩ := Transition.Run.exists_switch
            (fun n => env.digest request.code ∉
              (run.state n).proxy.codes.upstream) hlt.le
            (not_not.mpr hstored) (AList.lookup_eq_none.mp hlookup)
          have hpresent := not_not.mp hpresent
          rcases proxy_next (run.step e) with ⟨hsame, _⟩ |
            ⟨p, choice', conn, step, hlabel', hconn', hstep, _, hcommit⟩
          · rw [hsame] at hgone
            exact absurd hpresent hgone
          · have hop : step.op =
                .removeCodeUpstream (env.digest request.code) := by
              by_contra hother
              rw [hcommit] at hgone
              exact hgone (StoreOp.codeUpstream_kept hpresent hother)
            have hperforms := Conn.performs_of_step hstep
            generalize hkey : env.digest request.code = key at hop hpresent
            rw [hop] at hperforms
            cases hperforms with
            | take u pc htaking hsection =>
                cases pc <;> simp [TakePc.section] at hsection
            | codeRemoveUpstream request' =>
                obtain ⟨set, hset⟩ := Table.mem_iff_lookup.mp hpresent
                obtain ⟨a', ha', checked, hchecked⟩ :=
                  check_of_removing hconn' (Or.inr rfl)
                have hok := CodeRedeems.matched a' e ha' choice' checked
                  hchecked hlabel' hconn'
                rw [hset] at hok
                exact ⟨p, request', a', e, set, rfl, hec, hok⟩

/-! ## Replays -/

/-- The code has been recorded: no request can own it any more. -/
structure State.CodeSpent (env : Env) (s : State) (key : Digest) : Prop where
  drawn : key ∈ s.drawn
  pending : key ∉ s.proxy.codes.pending
  upstream : key ∉ s.proxy.codes.upstream
  unowned : ∀ i, s.codeStage env i ≠ some (key, .owned)

theorem State.CodeSpent.next
    {s s' : State} {label : Label} {key : Digest}
    (hspent : s.CodeSpent env key) (hnext : s.next env label = some s') :
    s'.CodeSpent env key where
  drawn := mem_drawn_next hnext hspent.drawn
  pending := pending_absent_next hnext hspent.drawn hspent.pending
  upstream := codeUpstream_absent_next hnext hspent.drawn hspent.upstream
  unowned := by
    intro j hafter
    rcases codeStage_next hnext with ⟨_, _, _, hstages⟩ |
      ⟨i, step, _, rfl, hstage, hother⟩
    · rw [hstages] at hafter
      exact hspent.unowned j hafter
    · rcases codeStage_before hstage hother hafter with hold |
        ⟨_, hpassed, _⟩ | ⟨_, hremoved, _⟩ | ⟨_, _, _, _, hstored⟩
      · exact hspent.unowned j hold
      · simp at hpassed
      · simp at hremoved
      · exact hspent.upstream hstored

theorem owner_of_markConsumed
    {s : State} {i : ℕ} {conn : Conn} {key : Digest}
    {record : ConsumedRecord} (hconn : s.conns i = some conn)
    (hperforms : Conn.Performs env conn (.markConsumed key record)) :
    s.codeStage env i = some (key, .owned) := by
  cases hperforms with
  | take u pc htaking hsection => cases pc <;> simp [TakePc.section] at hsection
  | codeMarkConsumed request u pair scope =>
      simp [State.codeStage, hconn, Conn.codeStage, CodeTask.stage]

theorem codeSpent_of_mark
    {r : ℕ} {key : Digest} {record : ConsumedRecord}
    (hmark : PerformsAt run r (.markConsumed key record)) :
    (run.state (r + 1)).CodeSpent env key := by
  obtain ⟨i, choice, conn, step, hlabel, hconn, hstep, hop⟩ := hmark
  have hnext := run.step r
  have hpoll := hnext
  rw [hlabel] at hpoll
  obtain ⟨taken, htaken, _, hcommit⟩ := next_poll hpoll hconn
  rw [hstep, Option.some.injEq] at htaken
  subst htaken
  have hperforms := Conn.performs_of_step hstep
  rw [hop] at hperforms
  have howned := owner_of_markConsumed hconn hperforms
  have hcodes := run_codesOwned run r
  have hdrawn := hcodes.drawn i key _ howned
  refine ⟨mem_drawn_next hnext hdrawn,
    pending_absent_next hnext hdrawn (hcodes.removed i key _ howned (by simp)),
    codeUpstream_absent_next hnext hdrawn (hcodes.owned i key howned), ?_⟩
  intro j hafter
  rw [hcommit] at hafter
  by_cases heq : j = i
  · subst heq
    have hstage := Conn.stageStep_of_step hstep
    rw [State.codeStage, State.commit_conns_self, Option.bind_some] at hafter
    rw [hafter, hop] at hstage
    generalize conn.codeStage env = before at hstage
    cases hstage with
    | own _ _ hquiet => simp [StoreOp.consuming] at hquiet
  · rw [State.codeStage, State.commit_conns_of_ne heq] at hafter
    exact heq (hcodes.unique j i key hafter howned)

theorem codeSpent_run
    {r n : ℕ} {key : Digest} {record : ConsumedRecord}
    (hmark : PerformsAt run r (.markConsumed key record)) (hlt : r < n) :
    (run.state n).CodeSpent env key :=
  run.stable (fun _ => True) (fun s => s.CodeSpent env key) (fun _ => trivial)
    (fun _ _ _ _ hgood hnext => hgood.next hnext) hlt (codeSpent_of_mark hmark)

theorem consumed_of_recorded
    {r n : ℕ} {key : Digest} {record : ConsumedRecord}
    (hmark : PerformsAt run r (.markConsumed key record))
    (hroom : (sweepAndCheckCapacity (run.state r).now
      (run.state r).proxy.codes.consumed key).2 = true)
    (hlt : r < n)
    (hlive : (run.state n).now < expiresAfter (run.state r).now codeTtl) :
    (run.state n).proxy.codes.consumed.lookup key =
      some (record, expiresAfter (run.state r).now codeTtl) := by
  induction n, hlt using Nat.le_induction with
  | base =>
      rw [hmark.commit.2.1]
      exact lookup_insertBounded_self hroom
  | succ n hn ih =>
      have hearlier := lt_of_le_of_lt (now_le_next (run.step n)) hlive
      have hbefore := ih hearlier
      rcases proxy_next (run.step n) with ⟨hsame, _⟩ |
        ⟨i, choice, conn, step, hlabel, hconn, hstep, _, hcommit⟩
      · rw [hsame]
        exact hbefore
      · rw [hcommit]
        refine StoreOp.consumed_kept hbefore (by simpa only using hearlier) ?_
        intro record' hop
        have hperforms := Conn.performs_of_step hstep
        rw [hop] at hperforms
        exact (codeSpent_run hmark hn).unowned i
          (owner_of_markConsumed hconn hperforms)

theorem replayed_of_recorded
    {r j a b : ℕ} {key : Digest} {record : ConsumedRecord}
    {request : CodeRequest} {outcome : CodeOutcome}
    (hmark : PerformsAt run r (.markConsumed key record))
    (hroom : (sweepAndCheckCapacity (run.state r).now
      (run.state r).proxy.codes.consumed key).2 = true)
    (hkey : env.digest request.code = key) (hafter : r < a)
    (hredeems : CodeRedeems run j request a b outcome)
    (hlive : (run.state b).now < expiresAfter (run.state r).now codeTtl) :
    outcome = .replayed record := by
  have hnone : ((run.state a).proxy.codes.redeemPending (run.state a).now
      (env.digest request.code)).2 = none := by
    rw [hkey]
    have hlookup :=
      AList.lookup_eq_none.mpr (codeSpent_run hmark hafter).pending
    simp [CodeStore.redeemPending, hlookup]
  cases hredeems with
  | mismatch choice entry hlabel hconn hpending hbindings =>
      rw [hnone] at hpending
      simp at hpending
  | consumed _ hlt choice choice' hlabel hconn hpending hlabel' hconn' =>
      have hread :=
        consumed_of_recorded hmark hroom (hafter.trans hlt) hlive
      rw [hkey, redeemConsumed_of_lookup hread hlive]
      rfl
  | matched _ hlt choice entry hcheck hlabel hconn =>
      rw [hcheck.pending] at hnone
      simp at hnone

/-- A code is redeemed at most once, by a request that presents what its mint
bound and reads it before it expires.  A mismatch changes nothing: the code
stays pending until some redemption passes the check or it expires, and a
redemption that passes returns `Ok` unless another one did so first.  Once the
code is recorded, a redemption that reads the record before it expires is a
replay with that record. -/
theorem code_redeemed_once_by_its_owner (run : ProxyRun env) :
    (∀ i j request request' a b c d set set',
      CodeRedeems run i request a b (.ok set) →
      CodeRedeems run j request' c d (.ok set') →
      env.digest request.code = env.digest request'.code →
      i = j ∧ b = d) ∧
    (∀ i request a b set, CodeRedeems run i request a b (.ok set) →
      ∃ m entry minted, m < a ∧
        PerformsAt run m
          (.mintCode (env.digest request.code) entry minted) ∧
        (run.state a).now < expiresAfter (run.state m).now codeTtl ∧
        request.clientId = entry.clientId ∧
        request.redirectUri = entry.redirectUri ∧
        env.challengeFor request.codeVerifier = entry.codeChallenge) ∧
    (∀ i request a b, CodeRedeems run i request a b .mismatch →
      a = b ∧ (run.state (b + 1)).proxy = (run.state a).proxy) ∧
    (∀ m n key entry set, PerformsAt run m (.mintCode key entry set) →
      (sweepAndCheckCapacity (run.state m).now
        (run.state m).proxy.codes.pending key).2 = true →
      m < n →
      (run.state n).now < expiresAfter (run.state m).now codeTtl →
      (∀ a, a < n → ∀ j request entry', env.digest request.code = key →
        ¬ PassesCheck run a j request entry') →
      (run.state n).proxy.codes.pending.lookup key =
        some (entry, expiresAfter (run.state m).now codeTtl)) ∧
    (∀ i request a c entry outcome, PassesCheck run a i request entry →
      CodeRedeems run i request a c outcome →
      (∃ set, outcome = .ok set) ∨
        ∃ j request' a' b set,
          env.digest request'.code = env.digest request.code ∧ b < c ∧
          CodeRedeems run j request' a' b (.ok set)) ∧
    (∀ r key record, PerformsAt run r (.markConsumed key record) →
      (sweepAndCheckCapacity (run.state r).now
        (run.state r).proxy.codes.consumed key).2 = true →
      ∀ j request a b outcome, env.digest request.code = key → r < a →
        CodeRedeems run j request a b outcome →
        (run.state b).now < expiresAfter (run.state r).now codeTtl →
        outcome = .replayed record) := by
  refine ⟨fun i j request request' a b c d set set' hi hj hsame =>
      redeemed_once hi hj hsame, ?_,
    fun i request a b hredeems => mismatch_changes_nothing hredeems,
    fun m n key entry set hmint hroom hlt hlive hunchecked =>
      pending_until_checked hmint hroom hlt hlive hunchecked,
    fun i request a c entry outcome hcheck hredeems =>
      ok_unless_taken hcheck hredeems,
    fun r key record hmark hroom j request a b outcome hkey hafter hredeems =>
      replayed_of_recorded hmark hroom hkey hafter hredeems⟩
  intro i request a b set hredeems
  obtain ⟨_, _, _, entry, hcheck⟩ := hredeems.takes
  obtain ⟨deadline, hlookup, hlive, _⟩ := redeemPending_eq_some hcheck.pending
  obtain ⟨m, hm, minted, hmint, rfl⟩ := minted_before hlookup
  obtain ⟨hclient, hredirect, hverifier⟩ :=
    bindingsMatch_iff.mp hcheck.bindings
  exact ⟨m, entry, minted, hm, hmint, hlive, hclient.symm, hredirect.symm,
    hverifier⟩

end Redemption

namespace Sample

def codeGrantRequest : CodeRequest where
  code := codePrefix ++ first.code
  redirectUri := redirectUri
  clientId := first.clientId
  codeVerifier := verifier

def mintedPair : MintedPair where
  accessToken := accessTokenPrefix ++ first.access
  accessDigest := env.digest (accessTokenPrefix ++ first.access)
  refreshToken := some (refreshTokenPrefix ++ first.refresh)
  refreshDigest := some (env.digest (refreshTokenPrefix ++ first.refresh))
  ttl := seconds 7200

def mintedRecord : ConsumedRecord where
  mintedTokenDigest := env.digest (accessTokenPrefix ++ first.access)
  mintedRefreshDigest :=
    some (env.digest (refreshTokenPrefix ++ first.refresh))
  upstreamId := first.sessionId

/-- Request 4 presents the code again after request 3 has recorded it; some
time passes between the two sections of its `redeem`. -/
def codeReplay (pause : Duration) : List Label :=
  first.session 0 ++
    [.spawn 4 first.codeRequest, .poll 4 {}, .elapse pause, .poll 4 {}]

theorem promptReplay_enabled :
    Transition.Enabled (State.next env) State.initial (codeReplay 0) =
      true := by
  decide +kernel

theorem lateReplay_enabled :
    Transition.Enabled (State.next env) State.initial
      (codeReplay (seconds 60)) = true := by
  decide +kernel

theorem marks_of_facts
    {run : ProxyRun env} (hlabel : run.label 23 = .poll 3 {})
    (hconn : (run.state 23).conns 3 = some (.codeGrant codeGrantRequest
      (.running (.markConsumed first.sessionId mintedPair "view_issues")))) :
    PerformsAt run 23
      (.markConsumed (env.digest codeGrantRequest.code) mintedRecord) :=
  ⟨3, {}, _, _, hlabel, hconn, rfl, rfl⟩

/-- A redemption that starts before the record expires can read it too late. -/
theorem replay_missed_at_expiry :
    ¬ ∀ (run : ProxyRun env) (r j a b : ℕ) (key : Digest)
        (record : ConsumedRecord) (request : CodeRequest)
        (outcome : CodeOutcome),
      PerformsAt run r (.markConsumed key record) →
      (sweepAndCheckCapacity (run.state r).now
        (run.state r).proxy.codes.consumed key).2 = true →
      env.digest request.code = key → r < a →
      (run.state a).now < expiresAfter (run.state r).now codeTtl →
      CodeRedeems run j request a b outcome →
      outcome = .replayed record := by
  intro hclaim
  have hfacts :
      ((run (codeReplay (seconds 60)) lateReplay_enabled).state 23).conns 3 =
        some (.codeGrant codeGrantRequest (.running
          (.markConsumed first.sessionId mintedPair "view_issues"))) ∧
      (sweepAndCheckCapacity
        ((run (codeReplay (seconds 60)) lateReplay_enabled).state 23).now
        ((run (codeReplay (seconds 60))
          lateReplay_enabled).state 23).proxy.codes.consumed
        (env.digest codeGrantRequest.code)).2 = true ∧
      ((run (codeReplay (seconds 60)) lateReplay_enabled).state 25).now <
        expiresAfter
          ((run (codeReplay (seconds 60)) lateReplay_enabled).state 23).now
          codeTtl := by
    decide +kernel
  have hredeem :
      ((run (codeReplay (seconds 60)) lateReplay_enabled).state 25).conns 4 =
        some (.codeGrant codeGrantRequest (.running .redeemPending)) ∧
      (((run (codeReplay (seconds 60))
        lateReplay_enabled).state 25).proxy.codes.redeemPending
          ((run (codeReplay (seconds 60)) lateReplay_enabled).state 25).now
          (env.digest codeGrantRequest.code)).2 = none ∧
      ((run (codeReplay (seconds 60)) lateReplay_enabled).state 27).conns 4 =
        some (.codeGrant codeGrantRequest (.running .redeemConsumed)) ∧
      consumedAnswer (((run (codeReplay (seconds 60))
        lateReplay_enabled).state 27).proxy.codes.redeemConsumed
          ((run (codeReplay (seconds 60)) lateReplay_enabled).state 27).now
          (env.digest codeGrantRequest.code)) = .invalid := by
    decide +kernel
  obtain ⟨hmark, hroom, hstart⟩ := hfacts
  obtain ⟨hconn, hpending, hconn', hinvalid⟩ := hredeem
  have hredeems := CodeRedeems.consumed 25 27 (by decide) {} {} rfl hconn
    hpending rfl hconn'
  have hreplayed := hclaim (run (codeReplay (seconds 60)) lateReplay_enabled)
    23 4 25 27 _ _ codeGrantRequest _ (marks_of_facts rfl hmark) hroom rfl
    (by decide) hstart hredeems
  rw [hinvalid] at hreplayed
  simp at hreplayed

theorem code_replayed_promptly :
    CodeRedeems (run (codeReplay 0) promptReplay_enabled) 4 codeGrantRequest
      25 27 (.replayed mintedRecord) := by
  have hfacts :
      ((run (codeReplay 0) promptReplay_enabled).state 23).conns 3 =
        some (.codeGrant codeGrantRequest (.running
          (.markConsumed first.sessionId mintedPair "view_issues"))) ∧
      (sweepAndCheckCapacity
        ((run (codeReplay 0) promptReplay_enabled).state 23).now
        ((run (codeReplay 0)
          promptReplay_enabled).state 23).proxy.codes.consumed
        (env.digest codeGrantRequest.code)).2 = true ∧
      ((run (codeReplay 0) promptReplay_enabled).state 27).now <
        expiresAfter
          ((run (codeReplay 0) promptReplay_enabled).state 23).now
          codeTtl := by
    decide +kernel
  have hredeem :
      ((run (codeReplay 0) promptReplay_enabled).state 25).conns 4 =
        some (.codeGrant codeGrantRequest (.running .redeemPending)) ∧
      (((run (codeReplay 0)
        promptReplay_enabled).state 25).proxy.codes.redeemPending
          ((run (codeReplay 0) promptReplay_enabled).state 25).now
          (env.digest codeGrantRequest.code)).2 = none ∧
      ((run (codeReplay 0) promptReplay_enabled).state 27).conns 4 =
        some (.codeGrant codeGrantRequest (.running .redeemConsumed)) := by
    decide +kernel
  obtain ⟨hmark, hroom, hlive⟩ := hfacts
  obtain ⟨hconn, hpending, hconn'⟩ := hredeem
  have hredeems := CodeRedeems.consumed 25 27 (by decide) {} {} rfl hconn
    hpending rfl hconn'
  have honce := code_redeemed_once_by_its_owner
    (run (codeReplay 0) promptReplay_enabled)
  have hreplayed := honce.2.2.2.2.2 23 _ _ (marks_of_facts rfl hmark) hroom 4
    codeGrantRequest 25 27 _ rfl (by decide) hredeems hlive
  rw [hreplayed] at hredeems
  exact hredeems

end Sample

end RuprogressMcp
