import RuprogressMcp.ProxyWriters

/-!
# Eviction of client registrations

The registry makes room at capacity by dropping idle registrations, and spares
the clients of a live set that was read from the token stores before the
registry lock was taken.  A token minted after the snapshot is not in the set;
its client was touched by the grant that minted it, and grants and
registrations that are quick compared with the idle time leave no gap between
the two protections.
-/

namespace RuprogressMcp

/-! ## The registry under one section -/

namespace ClientRegistry

variable {registry : ClientRegistry} {now : Instant}
  {redirectUris : List String} {clientName : Option String}
  {live : List String} {drawn : Option String} {clientId : String}

/-- The registrations that are left after the sweep of `register`. -/
def swept (registry : ClientRegistry) (now : Instant) (live : List String) :
    ClientRegistry :=
  if maxClients ≤ registry.len then
    registry.retain fun id entry =>
      decide (id ∈ live) || decide (now - entry.lastSeen < clientIdleTtl)
  else registry

theorem lookup_swept_iff
    {entry : ClientEntry} :
    (registry.swept now live).lookup clientId = some entry ↔
      registry.lookup clientId = some entry ∧
        (maxClients ≤ registry.len →
          clientId ∈ live ∨ now - entry.lastSeen < clientIdleTtl) := by
  unfold swept
  split
  next hfull =>
    rw [Table.lookup_retain_eq_some]
    simp [hfull]
  next hroom => simp [hroom]

theorem len_swept_le (registry : ClientRegistry) (now : Instant)
    (live : List String) : (registry.swept now live).len ≤ registry.len := by
  unfold swept
  split
  next => exact Table.len_retain_le _ registry
  next => exact le_rfl

theorem register_cases (registry : ClientRegistry) (now : Instant)
    (redirectUris : List String) (clientName : Option String)
    (live : List String) (drawn : Option String) :
    (registry.register now redirectUris clientName live drawn).1 =
        registry.swept now live ∨
      (registry.swept now live).len < maxClients ∧
        ∃ id entry, entry.lastSeen = now ∧
          (registry.register now redirectUris clientName live drawn).1 =
            (registry.swept now live).insert id entry := by
  by_cases hfull : maxClients ≤ (registry.swept now live).len
  · left
    exact congrArg Prod.fst (if_pos hfull)
  · cases drawn with
    | none =>
        left
        exact congrArg Prod.fst (if_neg hfull)
    | some id =>
        refine Or.inr ⟨not_le.mp hfull, id, _, ?_,
          congrArg Prod.fst (if_neg hfull)⟩
        rfl

theorem mem_register
    {entry : ClientEntry} (hentry : registry.lookup clientId = some entry)
    (hspared : maxClients ≤ registry.len →
      clientId ∈ live ∨ now - entry.lastSeen < clientIdleTtl) :
    clientId ∈ (registry.register now redirectUris clientName live drawn).1 := by
  have hswept : clientId ∈ registry.swept now live :=
    Table.mem_of_lookup (lookup_swept_iff.mpr ⟨hentry, hspared⟩)
  rcases register_cases registry now redirectUris clientName live drawn with
    hafter | ⟨_, id, added, _, hafter⟩
  · rwa [hafter]
  · rw [hafter]
    exact (AList.mem_insert _).mpr (Or.inr hswept)

theorem lookup_register
    {entry : ClientEntry}
    (hentry : (registry.register now redirectUris clientName live
      drawn).1.lookup clientId = some entry) :
    registry.lookup clientId = some entry ∨ entry.lastSeen = now := by
  rcases register_cases registry now redirectUris clientName live drawn with
    hafter | ⟨_, id, added, hseen, hafter⟩
  · rw [hafter] at hentry
    exact Or.inl (lookup_swept_iff.mp hentry).1
  · rw [hafter] at hentry
    rcases Table.lookup_insert_iff.mp hentry with ⟨_, rfl⟩ | ⟨_, hold⟩
    · exact Or.inr hseen
    · exact Or.inl (lookup_swept_iff.mp hold).1

theorem len_register_le (hbound : registry.len ≤ maxClients) :
    (registry.register now redirectUris clientName live drawn).1.len ≤
      maxClients := by
  rcases register_cases registry now redirectUris clientName live drawn with
    hafter | ⟨hroom, id, added, _, hafter⟩
  · rw [hafter]
    exact (len_swept_le registry now live).trans hbound
  · rw [hafter]
    exact (Table.len_insert_le _ _ _).trans hroom

theorem lookup_register_self
    {id : String} {registration : ClientRegistration} {entry : ClientEntry}
    (hanswer : (registry.register now redirectUris clientName live
      (some id)).2 = some registration)
    (hentry : (registry.register now redirectUris clientName live
      (some id)).1.lookup id = some entry) : entry.lastSeen = now := by
  by_cases hfull : maxClients ≤ (registry.swept now live).len
  · have hnone : (registry.register now redirectUris clientName live
        (some id)).2 = none := congrArg Prod.snd (if_pos hfull)
    rw [hnone] at hanswer
    cases hanswer
  · have hafter : (registry.register now redirectUris clientName live
        (some id)).1 = _ := congrArg Prod.fst (if_neg hfull)
    rw [hafter, AList.lookup_insert] at hentry
    cases hentry
    rfl

theorem lookup_touch_self
    {entry : ClientEntry}
    (hentry : (registry.touch now clientId).lookup clientId = some entry) :
    entry.lastSeen = now := by
  rcases Table.lookup_modify_iff.mp hentry with ⟨_, stored, _, rfl⟩ | ⟨hne, _⟩
  · rfl
  · exact absurd rfl hne

end ClientRegistry

namespace StoreOp

variable {now : Instant} {proxy : ProxyState} {op : StoreOp}

theorem registry_after
    {clientId : String} {entry : ClientEntry}
    (hentry : (op.apply now proxy).registry.lookup clientId = some entry) :
    proxy.registry.lookup clientId = some entry ∨ entry.lastSeen = now := by
  cases op with
  | registerClient redirectUris clientName live drawn =>
      exact ClientRegistry.lookup_register hentry
  | touchClient touched =>
      rcases Table.lookup_modify_iff.mp hentry with
        ⟨rfl, stored, _, rfl⟩ | ⟨_, hold⟩
      · exact Or.inr rfl
      · exact Or.inl hold
  | _ => exact Or.inl hentry

theorem registry_len_le (hbound : proxy.registry.len ≤ maxClients) :
    (op.apply now proxy).registry.len ≤ maxClients := by
  cases op with
  | registerClient redirectUris clientName live drawn =>
      exact ClientRegistry.len_register_le hbound
  | touchClient touched =>
      exact (Table.len_le_of_subset fun _ hmem => Table.mem_modify.mp hmem).trans
        hbound
  | _ => exact hbound

theorem registry_kept
    {clientId : String} (hmem : clientId ∈ proxy.registry)
    (hop : ∀ redirectUris clientName live drawn,
      op = .registerClient redirectUris clientName live drawn →
      clientId ∈ (proxy.registry.register now redirectUris clientName live
        drawn).1) :
    clientId ∈ (op.apply now proxy).registry := by
  cases op with
  | registerClient redirectUris clientName live drawn =>
      exact hop redirectUris clientName live drawn rfl
  | touchClient touched => exact Table.mem_modify.mpr hmem
  | _ => exact hmem

end StoreOp

/-! ## The client of a grant -/

/-- The client that a grant has touched and for which it may still mint. -/
def CodeTask.touchedClient (request : CodeRequest) : CodeTask → Option String
  | sweep _ => some request.clientId
  | sweepTokens _ _ _ _ _ => some request.clientId
  | sweepRefresh _ _ _ _ _ => some request.clientId
  | readTtl _ => some request.clientId
  | readDeadline _ _ => some request.clientId
  | insert _ _ _ => some request.clientId
  | mintAccess _ _ _ _ => some request.clientId
  | mintRefresh _ _ _ _ => some request.clientId
  | _ => none

def RefreshTask.touchedClient : RefreshTask → Option String
  | readRefresh clientId _ => some clientId
  | readScopes clientId _ _ => some clientId
  | upstreamRefresh clientId _ _ _ => some clientId
  | readTtl clientId _ _ => some clientId
  | replace clientId _ _ _ => some clientId
  | mintAccess clientId _ _ _ _ => some clientId
  | mintRefresh clientId _ _ _ _ => some clientId
  | _ => none

namespace Conn

def touchedClient : Conn → Option String
  | codeGrant request (.running task) => task.touchedClient request
  | refreshGrant _ (.running task) => task.touchedClient
  | _ => none

variable {env : Env} {now : Instant} {choice : Choice} {proxy : ProxyState}
  {conn : Conn} {step : Step} {clientId : String}

theorem touchedClient_start (request : Request) :
    (Conn.start env request).touchedClient = none := by
  cases request <;> simp only [Conn.start]
  all_goals try split
  all_goals rfl

theorem touchedClient_cancel
    {cancelled : Conn} (hcancel : conn.cancel = some cancelled) :
    cancelled.touchedClient = none := by
  unfold Conn.cancel at hcancel
  split at hcancel
  case h_2 request task =>
    cases task
    all_goals simp only [RefreshTask.cancel, Option.map_some, Option.map_none,
      Option.some.injEq, reduceCtorEq] at hcancel
    all_goals
      subst hcancel
      rfl
  all_goals simp only [Option.some.injEq, reduceCtorEq] at hcancel
  all_goals
    subst hcancel
    rfl

theorem codeTask_touchedClient_step
    {request : CodeRequest} {task task' : CodeTask}
    (hphase : (task.step env now choice proxy request).phase = .running task')
    (htouched : task'.touchedClient request = some clientId) :
    task.touchedClient request = some clientId ∨
      (task.step env now choice proxy request).op = .touchClient clientId := by
  cases task
  case touch set =>
    simp only [CodeTask.step, Phase.running.injEq] at hphase
    subst hphase
    simp only [CodeTask.touchedClient, Option.some.injEq] at htouched
    right
    rw [← htouched]
    rfl
  all_goals
    simp only [CodeTask.step, CodeTask.sweepNext] at hphase
    repeat' split at hphase
  all_goals simp only [Phase.running.injEq, Phase.failed, reduceCtorEq] at hphase
  all_goals
    subst hphase
    simp_all [CodeTask.touchedClient]

theorem refreshTask_touchedClient_step
    {request : RefreshRequest} {task task' : RefreshTask}
    (hphase : (task.step env now choice proxy request).phase = .running task')
    (htouched : task'.touchedClient = some clientId) :
    task.touchedClient = some clientId ∨
      (task.step env now choice proxy request).op = .touchClient clientId := by
  cases task
  case touch touched upstreamId =>
    simp only [RefreshTask.step, Phase.running.injEq] at hphase
    subst hphase
    simp only [RefreshTask.touchedClient, Option.some.injEq] at htouched
    right
    rw [← htouched]
    rfl
  all_goals
    simp only [RefreshTask.step] at hphase
    repeat' split at hphase
  all_goals simp only [Phase.running.injEq, Phase.failed, reduceCtorEq] at hphase
  all_goals
    subst hphase
    simp_all [RefreshTask.touchedClient]

theorem touchedClient_step
    (hstep : conn.step env now choice proxy = some step)
    (htouched : step.conn.touchedClient = some clientId) :
    conn.touchedClient = some clientId ∨ step.op = .touchClient clientId := by
  cases advance_of_step hstep with
  | codeGrant request task =>
      simp only [Step.lift] at htouched
      cases hphase : (task.step env now choice proxy request).phase with
      | running task' =>
          rw [hphase] at htouched
          exact codeTask_touchedClient_step hphase htouched
      | finished response => simp [hphase, touchedClient] at htouched
  | refreshGrant request task =>
      simp only [Step.lift] at htouched
      cases hphase : (task.step env now choice proxy request).phase with
      | running task' =>
          rw [hphase] at htouched
          exact refreshTask_touchedClient_step hphase htouched
      | finished response => simp [hphase, touchedClient] at htouched
  | _ => simp [Step.lift, touchedClient] at htouched

theorem touchedClient_mintToken
    {key : Digest} {entry : TokenEntry} {ttl : Duration}
    (hperforms : Performs env conn (.mintToken key entry ttl)) :
    conn.touchedClient = some entry.clientId := by
  cases hperforms with
  | take upstreamId pc _ hop => cases pc <;> simp [TakePc.section] at hop
  | _ => rfl

theorem touchedClient_mintRefresh
    {key : Digest} {upstreamId : String}
    (hperforms : Performs env conn (.mintRefresh key clientId upstreamId)) :
    conn.touchedClient = some clientId := by
  cases hperforms with
  | take upstreamId pc _ hop => cases pc <;> simp [TakePc.section] at hop
  | _ => rfl

end Conn

/-! ## Grants, registrations and clients in a run -/

section Runs

variable {env : Env} (run : ProxyRun env)

/-- In step `n` request `i` mints an access or a refresh token. -/
inductive MintsAt (n i : ℕ) : Prop
  | access (key : Digest) (entry : TokenEntry) (ttl : Duration)
      (hsection : SectionOf run n i (.mintToken key entry ttl))
  | refresh (key : Digest) (clientId upstreamId : String)
      (hsection : SectionOf run n i (.mintRefresh key clientId upstreamId))

/-- In step `n` the registration of request `i` reads the clients that hold an
access token, the first of its two snapshots. -/
def SnapshotsAt (n i : ℕ) : Prop :=
  (∃ choice, run.label n = .poll i choice) ∧
    ∃ request, (run.state n).conns i =
      some (.register request (.running .liveTokens))

/-- In step `n` the registration of request `i` finds the registry at capacity
and sweeps it. -/
def SweepsAt (n i : ℕ) : Prop :=
  maxClients ≤ (run.state n).proxy.registry.len ∧
    ∃ redirectUris clientName live drawn, SectionOf run n i
      (.registerClient redirectUris clientName live drawn)

/-- The time from the touch of any grant to a mint of it, and the time from
the first snapshot of any registration to its sweep, stay below the idle time
together. -/
def QuickRun : Prop :=
  ∀ grant touch mint registration snapshot sweep clientId,
    SectionOf run touch grant (.touchClient clientId) →
    MintsAt run mint grant →
    SnapshotsAt run snapshot registration →
    SweepsAt run sweep registration →
    ((run.state mint).now - (run.state touch).now) +
      ((run.state sweep).now - (run.state snapshot).now) < clientIdleTtl

/-- The client registered or was touched less than the idle time ago, or holds
an unexpired access token or an unexpired current refresh token, in flight or
not. -/
inductive InUse (n : ℕ) (clientId : String) : Prop
  | registered (m i : ℕ) (redirectUris : List String)
      (clientName : Option String) (live : List String)
      (registration : ClientRegistration) (hbefore : m < n)
      (hsection : SectionOf run m i
        (.registerClient redirectUris clientName live (some clientId)))
      (hanswer : ((run.state m).proxy.registry.register (run.state m).now
        redirectUris clientName live (some clientId)).2 = some registration)
      (hrecent : (run.state n).now - (run.state m).now < clientIdleTtl)
  | touched (m i : ℕ) (hbefore : m < n)
      (hsection : SectionOf run m i (.touchClient clientId))
      (hrecent : (run.state n).now - (run.state m).now < clientIdleTtl)
  | accessToken (key : Digest) (entry : TokenEntry) (deadline : Instant)
      (hlookup : (run.state n).proxy.tokens.lookup key =
        some (entry, deadline))
      (hclient : entry.clientId = clientId)
      (hlive : (run.state n).now < deadline)
  | refreshToken (key : Digest) (owner : RefreshOwner) (deadline : Instant)
      (hlookup : (run.state n).proxy.refreshTokens.current.lookup key =
        some (owner, deadline))
      (hclient : owner.clientId = clientId)
      (hlive : (run.state n).now < deadline)

variable {run}

/-- A client that a step has seen stays seen at least as late. -/
theorem lastSeen_since
    {m n : ℕ} {clientId : String} {entry : ClientEntry} (hlt : m < n)
    (hseen : ∀ entry,
      (run.state (m + 1)).proxy.registry.lookup clientId = some entry →
      entry.lastSeen = (run.state m).now)
    (hentry : (run.state n).proxy.registry.lookup clientId = some entry) :
    (run.state m).now ≤ entry.lastSeen := by
  induction n, Nat.succ_le_of_lt hlt using Nat.le_induction generalizing entry with
  | base => exact (hseen entry hentry).ge
  | succ n hmn ih =>
      rcases section_of_next run n with hproxy | ⟨j, op, _, hproxy⟩
      · rw [hproxy] at hentry
        exact ih (by omega) hentry
      · rw [hproxy] at hentry
        rcases StoreOp.registry_after hentry with hold | hseen
        · exact ih (by omega) hold
        · rw [hseen]
          exact now_le_run (by omega)

theorem lastSeen_of_touched
    {m n i : ℕ} {clientId : String} {entry : ClientEntry} (hlt : m < n)
    (hsection : SectionOf run m i (.touchClient clientId))
    (hentry : (run.state n).proxy.registry.lookup clientId = some entry) :
    (run.state m).now ≤ entry.lastSeen := by
  refine lastSeen_since hlt ?_ hentry
  intro touched htouched
  rw [hsection.commit.2.2.1] at htouched
  exact ClientRegistry.lookup_touch_self htouched

theorem lastSeen_of_registered
    {m n i : ℕ} {redirectUris : List String} {clientName : Option String}
    {live : List String} {clientId : String} {registration : ClientRegistration}
    {entry : ClientEntry} (hlt : m < n)
    (hsection : SectionOf run m i
      (.registerClient redirectUris clientName live (some clientId)))
    (hanswer : ((run.state m).proxy.registry.register (run.state m).now
      redirectUris clientName live (some clientId)).2 = some registration)
    (hentry : (run.state n).proxy.registry.lookup clientId = some entry) :
    (run.state m).now ≤ entry.lastSeen := by
  refine lastSeen_since hlt ?_ hentry
  intro stored hstored
  rw [hsection.commit.2.2.1] at hstored
  exact ClientRegistry.lookup_register_self hanswer hstored

theorem touched_before
    {n i : ℕ} {conn : Conn} {clientId : String}
    (hconn : (run.state n).conns i = some conn)
    (htouched : conn.touchedClient = some clientId) :
    ∃ m, m < n ∧ SectionOf run m i (.touchClient clientId) := by
  induction n generalizing conn with
  | zero => simp [run.start, State.initial] at hconn
  | succ n ih =>
      have hearlier {before : Conn} (hbefore : (run.state n).conns i = some before)
          (htouched : before.touchedClient = some clientId) :
          ∃ m, m < n + 1 ∧ SectionOf run m i (.touchClient clientId) := by
        obtain ⟨m, hm, hsection⟩ := ih hbefore htouched
        exact ⟨m, by omega, hsection⟩
      rcases conn_before (run.step n) hconn with hold | ⟨request, _, hstart⟩ |
        ⟨choice, before, step, hlabel, hbefore, hpolled, _, _, hafter⟩ |
        ⟨before, _, _, hcancel⟩
      · exact hearlier hold htouched
      · rw [hstart, Conn.touchedClient_start] at htouched
        simp at htouched
      · rw [← hafter] at htouched
        rcases Conn.touchedClient_step hpolled htouched with hold | hop
        · exact hearlier hbefore hold
        · exact ⟨n, by omega, choice, before, step, hlabel, hbefore, hpolled, hop⟩
      · rw [Conn.touchedClient_cancel hcancel] at htouched
        simp at htouched

/-! ## The live set of a registration -/

/-- What a registration has read when it performs its next section. -/
def RegisterHistory (run : ProxyRun env) (n i : ℕ) : Phase RegisterTask → Prop
  | .running (.liveRefresh live) =>
      ∃ p < n, SnapshotsAt run p i ∧
        live = (run.state p).proxy.tokens.liveClientIds (run.state p).now
  | .running (.register live) =>
      ∃ p r, p < r ∧ r < n ∧ SnapshotsAt run p i ∧
        live = (run.state p).proxy.tokens.liveClientIds (run.state p).now ++
          (run.state r).proxy.refreshTokens.liveClientIds (run.state r).now
  | _ => True

theorem RegisterHistory.later
    {n i : ℕ} {phase : Phase RegisterTask}
    (hhistory : RegisterHistory run n i phase) :
    RegisterHistory run (n + 1) i phase := by
  unfold RegisterHistory at hhistory ⊢
  split at hhistory
  next =>
    obtain ⟨p, hp, hread⟩ := hhistory
    exact ⟨p, by omega, hread⟩
  next =>
    obtain ⟨p, r, hpr, hr, hread⟩ := hhistory
    exact ⟨p, r, hpr, by omega, hread⟩
  next => trivial

theorem register_history
    {n i : ℕ} {request : RegisterRequest} {phase : Phase RegisterTask}
    (hconn : (run.state n).conns i = some (.register request phase)) :
    RegisterHistory run n i phase := by
  induction n generalizing phase with
  | zero => simp [run.start, State.initial] at hconn
  | succ n ih =>
      rcases conn_before (run.step n) hconn with hold | ⟨started, _, hstart⟩ |
        ⟨choice, before, step, hlabel, hbefore, hpolled, _, _, hafter⟩ |
        ⟨before, _, _, hcancel⟩
      · exact (ih hold).later
      · cases started <;> simp only [Conn.start] at hstart
        all_goals try split at hstart
        all_goals simp only [Conn.register.injEq, reduceCtorEq] at hstart
        obtain ⟨rfl, rfl⟩ := hstart
        simp only [RegisterTask.start]
        repeat' split
        all_goals trivial
      · cases Conn.advance_of_step hpolled with
        | register request' task =>
            simp only [Conn.Step.lift, Conn.register.injEq] at hafter
            obtain ⟨rfl, rfl⟩ := hafter
            cases task with
            | liveTokens =>
                exact ⟨n, by omega, ⟨⟨choice, hlabel⟩, request', hbefore⟩, rfl⟩
            | liveRefresh live =>
                obtain ⟨p, hp, hsnapshot, rfl⟩ := ih hbefore
                exact ⟨p, n, hp, by omega, hsnapshot, rfl⟩
            | register live => trivial
        | _ => simp [Conn.Step.lift] at hafter
      · unfold Conn.cancel at hcancel
        split at hcancel
        all_goals simp at hcancel

theorem mem_liveClientIds_tokens
    {store : TokenStore} {now deadline : Instant} {key : Digest}
    {entry : TokenEntry} (hlookup : store.lookup key = some (entry, deadline))
    (hlive : now < deadline) : entry.clientId ∈ store.liveClientIds now := by
  refine List.mem_map.mpr ⟨⟨key, entry, deadline⟩, List.mem_filter.mpr ⟨?_, ?_⟩, rfl⟩
  · exact Table.lookup_eq_some_iff_mem_entries.mp hlookup
  · exact decide_eq_true hlive

theorem mem_liveClientIds_refresh
    {store : RefreshStore} {now deadline : Instant} {key : Digest}
    {owner : RefreshOwner}
    (hlookup : store.current.lookup key = some (owner, deadline))
    (hlive : now < deadline) : owner.clientId ∈ store.liveClientIds now := by
  refine List.mem_map.mpr ⟨⟨key, owner, deadline⟩, List.mem_filter.mpr ⟨?_, ?_⟩, rfl⟩
  · exact Table.lookup_eq_some_iff_mem_entries.mp hlookup
  · exact decide_eq_true hlive

/-! ## Tokens minted after a snapshot -/

/-- A grant that touched the client has minted a token for it since step
`p`. -/
def MintedSince (run : ProxyRun env) (p n : ℕ) (clientId : String) : Prop :=
  ∃ touch mint grant, touch < mint ∧ p ≤ mint ∧ mint < n ∧
    SectionOf run touch grant (.touchClient clientId) ∧
    MintsAt run mint grant

theorem token_since
    {p n : ℕ} {key : Digest} {entry : TokenEntry} {deadline : Instant}
    (hle : p ≤ n)
    (hlookup : (run.state n).proxy.tokens.lookup key =
      some (entry, deadline)) :
    (run.state p).proxy.tokens.lookup key = some (entry, deadline) ∨
      MintedSince run p n entry.clientId := by
  by_cases hearlier : (run.state p).proxy.tokens.lookup key =
      some (entry, deadline)
  · exact Or.inl hearlier
  · right
    obtain ⟨k, i, op, hpk, hkn, hsection, hnot, hk⟩ := exists_section run
      (fun proxy => proxy.tokens.lookup key = some (entry, deadline)) hle
      hearlier hlookup
    rcases StoreOp.tokens_after hk with hold | ⟨ttl, rfl, _⟩
    · exact absurd hold hnot
    · obtain ⟨_, _, _, conn, hconn, hperforms⟩ := hsection.commit
      obtain ⟨m, hm, htouch⟩ := touched_before hconn
        (Conn.touchedClient_mintToken hperforms)
      exact ⟨m, k, i, hm, hpk, hkn, htouch, .access key entry ttl hsection⟩

theorem refresh_since
    {p n : ℕ} {key : Digest} {owner : RefreshOwner} {deadline : Instant}
    (hle : p ≤ n)
    (hlookup : (run.state n).proxy.refreshTokens.current.lookup key =
      some (owner, deadline)) :
    (∃ held, held.clientId = owner.clientId ∧
        (run.state p).proxy.refreshTokens.current.lookup key =
          some (held, deadline)) ∨
      MintedSince run p n owner.clientId := by
  by_cases hearlier : ∃ held : RefreshOwner, held.clientId = owner.clientId ∧
      (run.state p).proxy.refreshTokens.current.lookup key =
        some (held, deadline)
  · exact Or.inl hearlier
  · right
    obtain ⟨k, i, op, hpk, hkn, hsection, hnot, held, hclient, hk⟩ :=
      exists_section run
        (fun proxy => ∃ held : RefreshOwner, held.clientId = owner.clientId ∧
          proxy.refreshTokens.current.lookup key = some (held, deadline)) hle
        hearlier ⟨owner, rfl, hlookup⟩
    rcases StoreOp.current_after hk with
      hold | ⟨rfl, _, _⟩ | ⟨_, _, _, hold⟩ | ⟨_, _, hold⟩
    · exact absurd ⟨held, hclient, hold⟩ hnot
    · obtain ⟨_, _, _, conn, hconn, hperforms⟩ := hsection.commit
      obtain ⟨m, hm, htouch⟩ := touched_before hconn
        (Conn.touchedClient_mintRefresh hperforms)
      rw [hclient] at htouch
      exact ⟨m, k, i, hm, hpk, hkn, htouch, .refresh _ _ _ hsection⟩
    · exact absurd ⟨{ held with state := .active }, hclient, hold⟩ hnot
    · exact absurd ⟨{ held with state := .inFlight }, hclient, hold⟩ hnot

theorem recent_of_mintedSince
    {p n i : ℕ} {clientId : String} {entry : ClientEntry}
    (hquick : QuickRun run) (hsnapshot : SnapshotsAt run p i)
    (hsweep : SweepsAt run n i) (hminted : MintedSince run p n clientId)
    (hentry : (run.state n).proxy.registry.lookup clientId = some entry) :
    (run.state n).now - entry.lastSeen < clientIdleTtl := by
  obtain ⟨touch, mint, grant, htouchMint, hpMint, hmintN, htouch, hmints⟩ := hminted
  have hgap := hquick grant touch mint i p n clientId htouch hmints hsnapshot hsweep
  have hseen : (run.state touch).now ≤ entry.lastSeen :=
    lastSeen_of_touched (by omega) htouch hentry
  have hmintLater : (run.state p).now ≤ (run.state mint).now := now_le_run hpMint
  calc (run.state n).now - entry.lastSeen
      ≤ (run.state n).now - (run.state touch).now := Nat.sub_le_sub_left hseen _
    _ ≤ ((run.state n).now - (run.state mint).now) +
        ((run.state mint).now - (run.state touch).now) := tsub_le_tsub_add_tsub
    _ ≤ ((run.state n).now - (run.state p).now) +
        ((run.state mint).now - (run.state touch).now) :=
      Nat.add_le_add_right (Nat.sub_le_sub_left hmintLater _) _
    _ < clientIdleTtl := by rwa [Nat.add_comm]

theorem spared_of_inUse
    {n i : ℕ} {request : RegisterRequest} {live : List String}
    {clientId : String} {entry : ClientEntry} (hquick : QuickRun run)
    (hconn : (run.state n).conns i =
      some (.register request (.running (.register live))))
    (hsweep : SweepsAt run n i)
    (hentry : (run.state n).proxy.registry.lookup clientId = some entry)
    (hinUse : InUse run n clientId) :
    clientId ∈ live ∨ (run.state n).now - entry.lastSeen < clientIdleTtl := by
  obtain ⟨p, r, hpr, hrn, hsnapshot, rfl⟩ := register_history hconn
  cases hinUse with
  | registered m j _ _ _ _ hbefore hsection hanswer hrecent =>
      right
      have hseen := lastSeen_of_registered hbefore hsection hanswer hentry
      exact lt_of_le_of_lt (Nat.sub_le_sub_left hseen _) hrecent
  | touched m j hbefore hsection hrecent =>
      right
      have hseen := lastSeen_of_touched hbefore hsection hentry
      exact lt_of_le_of_lt (Nat.sub_le_sub_left hseen _) hrecent
  | accessToken key token deadline hlookup hclient hlive =>
      subst hclient
      rcases token_since (by omega : p ≤ n) hlookup with hearlier | hminted
      · left
        apply List.mem_append_left
        exact mem_liveClientIds_tokens hearlier
          (lt_of_le_of_lt (now_le_run (by omega)) hlive)
      · exact Or.inr
          (recent_of_mintedSince hquick hsnapshot hsweep hminted hentry)
  | refreshToken key owner deadline hlookup hclient hlive =>
      subst hclient
      rcases refresh_since (by omega : r ≤ n) hlookup with
        ⟨held, hclient, hearlier⟩ | ⟨touch, mint, grant, hlt, hrMint, hmint⟩
      · left
        apply List.mem_append_right
        rw [← hclient]
        exact mem_liveClientIds_refresh hearlier
          (lt_of_le_of_lt (now_le_run (by omega)) hlive)
      · exact Or.inr (recent_of_mintedSince hquick hsnapshot hsweep
          ⟨touch, mint, grant, hlt, by omega, hmint⟩ hentry)

theorem run_registry_len (run : ProxyRun env) (n : ℕ) :
    (run.state n).proxy.registry.len ≤ maxClients := by
  induction n with
  | zero =>
      rw [run.start]
      exact Nat.zero_le _
  | succ n ih =>
      rcases section_of_next run n with hproxy | ⟨i, op, _, hproxy⟩
      · rwa [hproxy]
      · rw [hproxy]
        exact StoreOp.registry_len_le ih

/-- No step of a quick run evicts a client in use, whether it registers a
client, fails to register one or does anything else, and the registry stays
within its capacity. -/
theorem clients_in_use_never_evicted
    (run : ProxyRun env) (hquick : QuickRun run) :
    (∀ n clientId, clientId ∈ (run.state n).proxy.registry →
        InUse run n clientId →
        clientId ∈ (run.state (n + 1)).proxy.registry) ∧
      ∀ n, (run.state n).proxy.registry.len ≤ maxClients := by
  refine ⟨?_, run_registry_len run⟩
  intro n clientId hmem hinUse
  rcases section_of_next run n with hproxy | ⟨i, op, hsection, hproxy⟩
  · rwa [hproxy]
  · rw [hproxy]
    apply StoreOp.registry_kept hmem
    rintro redirectUris clientName live drawn rfl
    obtain ⟨entry, hentry⟩ := Table.mem_iff_lookup.mp hmem
    apply ClientRegistry.mem_register hentry
    intro hfull
    obtain ⟨_, _, _, conn, hconn, hperforms⟩ := hsection.commit
    cases hperforms with
    | register request =>
        exact spared_of_inUse hquick hconn ⟨hfull, _, _, _, _, hsection⟩ hentry
          hinUse
    | take upstreamId pc _ hop => cases pc <;> simp [TakePc.section] at hop

end Runs

/-! ## A registry at capacity -/

namespace Sample

def registerRequest : RegisterRequest where
  redirectUris := [redirectUri]
  clientName := none
  grantTypes := none
  responseTypes := none
  tokenEndpointAuthMethod := none

theorem start_registerRequest :
    RegisterTask.start env registerRequest = .running .liveTokens := by
  decide +kernel

/-- Request `i` registers a client under the drawn identifier. -/
def registering (i : ℕ) (draw : String) : List Label :=
  [.spawn i (.register registerRequest), .poll i {}, .poll i {},
    .poll i { draw := some draw }]

def registered (s : State) (i : ℕ) (draw : String) : State :=
  let registration : ClientRegistration :=
    { clientId := draw
      redirectUris := registerRequest.redirectUris
      clientName := registerRequest.clientName }
  { s with
    proxy :=
      { s.proxy with
        registry := s.proxy.registry.insert draw
          { registration, lastSeen := s.now } }
    conns := Function.update s.conns i
      (some (.register registerRequest
        (.finished (some (.registered registration)))))
    drawnIds := draw :: s.drawnIds }

theorem registering_enabled
    {s : State} {i : ℕ} {draw : String} (hfree : s.conns i = none)
    (hfresh : draw ∉ s.drawnIds) :
    Transition.Enabled (State.next env) s (registering i draw) = true := by
  simp [registering, Transition.Enabled, State.next, hfree, Conn.start,
    start_registerRequest, State.setConn, Conn.step, Conn.Step.lift,
    RegisterTask.step, State.Fresh, State.commit, StoreOp.mintedDigest,
    StoreOp.mintedId, StoreOp.apply, hfresh]

theorem registering_execute
    {s : State} {i : ℕ} {draw : String} (hfree : s.conns i = none)
    (hfresh : draw ∉ s.drawnIds) (hroom : s.proxy.registry.len < maxClients) :
    Transition.execute (State.next env) s (registering i draw) =
      registered s i draw := by
  simp [registering, Transition.execute, State.next, hfree, Conn.start,
    start_registerRequest, State.setConn, Conn.step, Conn.Step.lift,
    RegisterTask.step, State.Fresh, State.commit, StoreOp.mintedDigest,
    StoreOp.mintedId, StoreOp.apply, hfresh, ClientRegistry.register,
    not_le.mpr hroom, registered]

/-- A session of the first client, followed by `k` more registrations. -/
def filling : ℕ → List Label
  | 0 => first.session 0
  | k + 1 => filling k ++ registering (4 + k) (drawnId k)

structure Filled (k : ℕ) (s : State) : Prop where
  now : s.now = 0
  free : ∀ i, 4 + k ≤ i → s.conns i = none
  drawn : ∀ id ∈ s.drawnIds, id ∈ [first.sessionId, first.clientId] ∨
    ∃ m < k, id = drawnId m
  keys : ∀ id ∈ s.proxy.registry, id ∈ s.drawnIds
  len : s.proxy.registry.len = k + 1
  client : first.clientId ∈ s.proxy.registry
  token : s.proxy.tokens.lookup (env.digest (accessTokenPrefix ++ first.access)) =
    some ({ upstreamId := first.sessionId, clientId := first.clientId },
      expiresAfter 0 (seconds 7200))

theorem Filled.fresh
    {k : ℕ} {s : State} (hfilled : Filled k s) : drawnId k ∉ s.drawnIds := by
  intro hmem
  have hletter : 'a' ∉ (drawnId k).toList := by
    intro hletter
    exact absurd (RustText.isDigit_of_mem_toString hletter) (by decide)
  rcases hfilled.drawn _ hmem with hfirst | ⟨m, hm, heq⟩
  · simp only [List.mem_cons, List.not_mem_nil, or_false] at hfirst
    rcases hfirst with heq | heq
    all_goals
      rw [heq] at hletter
      exact hletter (by decide)
  · have := drawnId_injective heq
    omega

theorem session_filled :
    Filled 0 (Transition.execute (State.next env) State.initial (filling 0)) where
  now := by decide +kernel
  free := by
    intro i hi
    have henabled : Transition.Enabled (State.next env) State.initial
        (filling 0) = true := by decide +kernel
    have hrun : ((run (filling 0) henabled).state (filling 0).length).conns i =
        none :=
      run_unspawned (by decide +kernel) (show 4 ≤ i from hi) _
    simpa [run, Transition.Run.ofLabels] using hrun
  drawn := by
    intro id hid
    left
    have hids : (Transition.execute (State.next env) State.initial
        (filling 0)).drawnIds = [first.sessionId, first.clientId] := by
      decide +kernel
    rwa [hids] at hid
  keys := by
    intro id hid
    have hkeys : (Transition.execute (State.next env) State.initial
        (filling 0)).proxy.registry.keys = [first.clientId] := by
      decide +kernel
    rw [AList.mem_keys, hkeys, List.mem_singleton] at hid
    subst hid
    decide +kernel
  len := by decide +kernel
  client := by decide +kernel
  token := by decide +kernel

theorem Filled.next
    {k : ℕ} {s : State} (hfilled : Filled k s) :
    Filled (k + 1) (registered s (4 + k) (drawnId k)) where
  now := hfilled.now
  free := by
    intro i hi
    have hne : i ≠ 4 + k := by omega
    exact (Function.update_of_ne hne ..).trans (hfilled.free i (by omega))
  drawn := by
    intro id hid
    rcases List.mem_cons.mp hid with rfl | hold
    · exact Or.inr ⟨k, by omega, rfl⟩
    · rcases hfilled.drawn id hold with hfirst | ⟨m, hm, heq⟩
      · exact Or.inl hfirst
      · exact Or.inr ⟨m, by omega, heq⟩
  keys := by
    intro id hid
    rcases (AList.mem_insert _).mp hid with rfl | hold
    · exact List.mem_cons_self
    · exact List.mem_cons_of_mem _ (hfilled.keys id hold)
  len := by
    have hnew : drawnId k ∉ s.proxy.registry :=
      fun hmem => hfilled.fresh (hfilled.keys _ hmem)
    have hlen := hfilled.len
    rw [Table.len] at hlen ⊢
    simp only [registered]
    rw [AList.entries_insert_of_notMem hnew, List.length_cons, hlen]
  client := (AList.mem_insert _).mpr (Or.inr hfilled.client)
  token := hfilled.token

theorem filling_filled
    {k : ℕ} (hk : k < maxClients) :
    Transition.Enabled (State.next env) State.initial (filling k) = true ∧
      Filled k
        (Transition.execute (State.next env) State.initial (filling k)) := by
  induction k with
  | zero => exact ⟨by decide +kernel, session_filled⟩
  | succ k ih =>
      obtain ⟨henabled, hfilled⟩ := ih (by omega)
      have hfree := hfilled.free (4 + k) le_rfl
      have hroom : (Transition.execute (State.next env) State.initial
          (filling k)).proxy.registry.len < maxClients := by
        rw [hfilled.len]
        exact hk
      constructor
      · exact Transition.enabled_append henabled
          (registering_enabled hfree hfilled.fresh)
      · rw [filling, Transition.execute_append,
          registering_execute hfree hfilled.fresh hroom]
        exact hfilled.next

/-- A registration that takes ten minutes between its two snapshots. -/
def arriving (i : ℕ) : List Label :=
  [.spawn i (.register registerRequest), .poll i {}, .elapse (seconds 600),
    .poll i {}]

/-- The state in which the registration is about to take the registry lock. -/
def arrived (s : State) (i : ℕ) : State :=
  let later : State := { s with now := s.now + seconds 600 }
  later.setConn i (.register registerRequest (.running (.register
    (s.proxy.tokens.liveClientIds s.now ++
      s.proxy.refreshTokens.liveClientIds (s.now + seconds 600)))))

theorem arriving_enabled
    {s : State} {i : ℕ} (hfree : s.conns i = none) :
    Transition.Enabled (State.next env) s (arriving i) = true := by
  simp [arriving, Transition.Enabled, State.next, hfree, Conn.start,
    start_registerRequest, State.setConn, Conn.step, Conn.Step.lift,
    RegisterTask.step, State.Fresh, State.commit, StoreOp.mintedDigest,
    StoreOp.mintedId, StoreOp.apply]

theorem arriving_execute
    {s : State} {i : ℕ} (hfree : s.conns i = none) :
    Transition.execute (State.next env) s (arriving i) = arrived s i := by
  simp [arriving, Transition.execute, State.next, hfree, Conn.start,
    start_registerRequest, State.setConn, Conn.step, Conn.Step.lift,
    RegisterTask.step, State.Fresh, State.commit, StoreOp.mintedDigest,
    StoreOp.mintedId, StoreOp.apply, arrived]

section Crowded

variable (k : ℕ)

/-- The first client has a session and `k` more are registered when one more
registration arrives. -/
def crowded : List Label := filling k ++ arriving (4 + k)

def crowdedState : State :=
  arrived (Transition.execute (State.next env) State.initial (filling k)) (4 + k)

variable {k} (hk : k < maxClients)

include hk

theorem crowded_execute :
    Transition.Enabled (State.next env) State.initial (crowded k) = true ∧
      Transition.execute (State.next env) State.initial (crowded k) =
        crowdedState k := by
  obtain ⟨henabled, hfilled⟩ := filling_filled hk
  have hfree := hfilled.free (4 + k) le_rfl
  constructor
  · exact Transition.enabled_append henabled (arriving_enabled hfree)
  · rw [crowded, Transition.execute_append, arriving_execute hfree, crowdedState]

theorem crowded_enabled :
    Transition.Enabled (State.next env) State.initial
      (crowded k ++ [.poll (4 + k) { draw := some (drawnId k) }]) = true := by
  obtain ⟨_, hfilled⟩ := filling_filled hk
  refine Transition.enabled_append (crowded_execute hk).1 ?_
  rw [(crowded_execute hk).2]
  simp [crowdedState, arrived, Transition.Enabled, State.next, State.setConn,
    Conn.step, Conn.Step.lift, RegisterTask.step, State.Fresh,
    StoreOp.mintedDigest, StoreOp.mintedId, hfilled.fresh]

omit hk in
/-- The run in which that registration takes the registry lock. -/
def crowdedRun (hk : k < maxClients) : ProxyRun env :=
  run (crowded k ++ [.poll (4 + k) { draw := some (drawnId k) }])
    (crowded_enabled hk)

theorem crowdedRun_state :
    (crowdedRun hk).state (crowded k).length = crowdedState k := by
  simp only [crowdedRun, run, Transition.Run.ofLabels, List.take_left]
  exact (crowded_execute hk).2

theorem crowdedRun_section :
    ∃ live, SectionOf (crowdedRun hk) (crowded k).length (4 + k)
      (.registerClient registerRequest.redirectUris registerRequest.clientName
        live (some (drawnId k))) := by
  have hlabel : (crowdedRun hk).label (crowded k).length =
      .poll (4 + k) { draw := some (drawnId k) } := by
    simp [crowdedRun, run, Transition.Run.ofLabels]
  obtain ⟨live, hconn⟩ : ∃ live,
      ((crowdedRun hk).state (crowded k).length).conns (4 + k) =
        some (.register registerRequest (.running (.register live))) := by
    rw [crowdedRun_state hk]
    exact ⟨_, State.setConn_conns_self ..⟩
  exact ⟨live, _, _, _, hlabel, hconn, rfl, rfl⟩

theorem crowdedRun_now (n : ℕ) :
    ((crowdedRun hk).state n).now ≤ seconds 600 := by
  have hsweep : ((crowdedRun hk).state ((crowded k).length + 1)).now =
      seconds 600 := by
    obtain ⟨live, hsection⟩ := crowdedRun_section hk
    rw [hsection.commit.2.1, crowdedRun_state hk]
    exact (congrArg (· + seconds 600) (filling_filled hk).2.now).trans
      (Nat.zero_add _)
  rcases le_total n ((crowded k).length + 1) with hle | hle
  · exact (now_le_run hle).trans hsweep.le
  · have hsame : (crowdedRun hk).state n =
        (crowdedRun hk).state ((crowded k).length + 1) := by
      simp only [crowdedRun, run, Transition.Run.ofLabels]
      rw [List.take_of_length_le (by simpa using hle),
        List.take_of_length_le (by simp)]
    rw [hsame, hsweep]

theorem crowdedRun_quick : QuickRun (crowdedRun hk) := by
  intro grant touch mint registration snapshot sweep clientId _ _ _ _
  calc ((crowdedRun hk).state mint).now - ((crowdedRun hk).state touch).now +
        (((crowdedRun hk).state sweep).now -
          ((crowdedRun hk).state snapshot).now)
      ≤ seconds 600 + seconds 600 :=
        Nat.add_le_add ((Nat.sub_le _ _).trans (crowdedRun_now hk mint))
          ((Nat.sub_le _ _).trans (crowdedRun_now hk sweep))
    _ < clientIdleTtl := by decide

theorem crowdedRun_sweeps (hfull : maxClients ≤ k + 1) :
    SweepsAt (crowdedRun hk) (crowded k).length (4 + k) := by
  obtain ⟨live, hsection⟩ := crowdedRun_section hk
  refine ⟨?_, _, _, live, _, hsection⟩
  rw [crowdedRun_state hk]
  exact hfull.trans (filling_filled hk).2.len.ge

theorem crowdedRun_inUse :
    first.clientId ∈
        ((crowdedRun hk).state (crowded k).length).proxy.registry ∧
      InUse (crowdedRun hk) (crowded k).length first.clientId := by
  obtain ⟨_, hfilled⟩ := filling_filled hk
  have htoken : ((crowdedRun hk).state (crowded k).length).proxy.tokens.lookup
      (env.digest (accessTokenPrefix ++ first.access)) =
        some ({ upstreamId := first.sessionId, clientId := first.clientId },
          expiresAfter 0 (seconds 7200)) := by
    rw [crowdedRun_state hk]
    exact hfilled.token
  constructor
  · rw [crowdedRun_state hk]
    exact hfilled.client
  · exact .accessToken _ _ _ htoken rfl
      (lt_of_le_of_lt (crowdedRun_now hk _) (by decide +kernel))

end Crowded

theorem client_in_use_kept_at_capacity :
    QuickRun (crowdedRun (show 999 < maxClients by decide)) ∧
      SweepsAt (crowdedRun (show 999 < maxClients by decide))
        (crowded 999).length (4 + 999) ∧
      first.clientId ∈ ((crowdedRun (show 999 < maxClients by decide)).state
        ((crowded 999).length + 1)).proxy.registry := by
  obtain ⟨hmem, hinUse⟩ := crowdedRun_inUse (show 999 < maxClients by decide)
  refine ⟨crowdedRun_quick _, crowdedRun_sweeps _ (by decide), ?_⟩
  exact (clients_in_use_never_evicted _ (crowdedRun_quick _)).1 _ _ hmem hinUse

end Sample

end RuprogressMcp
