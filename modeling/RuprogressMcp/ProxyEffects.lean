import RuprogressMcp.ProxySystem

/-!
# Where an entry of a store comes from

For each map of the proxy, an entry that is present after a critical section
was there before, unless the section is one of the few that write to that
map.  Everything that the later invariants need to know about the effect of a
section is stated here once.
-/

namespace RuprogressMcp

namespace StoreOp

variable {now : Instant} {proxy : ProxyState} {op : StoreOp}

theorem tokens_after
    {key : Digest} {entry : TokenEntry × Instant}
    (hentry : (op.apply now proxy).tokens.lookup key = some entry) :
    proxy.tokens.lookup key = some entry ∨
      ∃ ttl, op = .mintToken key entry.1 ttl ∧
        (proxy.tokens.mint now key entry.1 ttl).2 = true := by
  cases op with
  | mintToken minted token ttl =>
      rcases lookup_insertBounded hentry with ⟨rfl, rfl, hroom⟩ | ⟨hold, _⟩
      · exact Or.inr ⟨ttl, rfl, hroom⟩
      · exact Or.inl hold
  | resolveToken presented =>
      left
      simp only [apply, TokenStore.resolve] at hentry
      split at hentry
      · split at hentry
        · exact (Table.lookup_erase_iff.mp hentry).2
        · exact hentry
      · exact hentry
  | removeToken presented => exact Or.inl (Table.lookup_erase_iff.mp hentry).2
  | removeTokensByUpstream upstreamId =>
      exact Or.inl (Table.lookup_retain_eq_some.mp hentry).1
  | _ => exact Or.inl hentry

theorem upstreamTokens_after
    {id : String} {entry : UpstreamTokenSet × Instant}
    (hentry : (op.apply now proxy).upstreamTokens.lookup id = some entry) :
    proxy.upstreamTokens.lookup id = some entry ∨
      op = .insertUpstream id entry.1 entry.2 ∨
      (op = .replaceUpstream id entry.1 ∧ id ∈ proxy.upstreamTokens ∧
        entry.2 = UpstreamStore.sessionDeadline now entry.1) := by
  cases op with
  | insertUpstream inserted set deadline =>
      rcases lookup_insertBounded hentry with ⟨rfl, rfl, _⟩ | ⟨hold, _⟩
      · exact Or.inr (Or.inl rfl)
      · exact Or.inl hold
  | takeUpstream taken => exact Or.inl (Table.lookup_erase_iff.mp hentry).2
  | replaceUpstream replaced set =>
      simp only [apply, UpstreamStore.replace] at hentry
      split at hentry
      next stored hlive =>
        rcases Table.lookup_insert_iff.mp hentry with ⟨rfl, rfl⟩ | ⟨_, hold⟩
        · refine Or.inr (Or.inr ⟨rfl, ?_, rfl⟩)
          unfold UpstreamStore.live at hlive
          split at hlive
          next hstored => exact Table.mem_of_lookup hstored
          next => simp at hlive
        · exact Or.inl hold
      next => exact Or.inl hentry
  | sweepUpstream => exact Or.inl (Table.lookup_sweep_iff.mp hentry).1
  | _ => exact Or.inl hentry

theorem current_after
    {key : Digest} {owner : RefreshOwner} {deadline : Instant}
    (hentry : (op.apply now proxy).refreshTokens.current.lookup key =
      some (owner, deadline)) :
    proxy.refreshTokens.current.lookup key = some (owner, deadline) ∨
      (op = .mintRefresh key owner.clientId owner.upstreamId ∧
        owner.state = .active ∧
        (proxy.refreshTokens.mint now key owner.clientId
          owner.upstreamId).2 = true) ∨
      (op = .redeemCurrent key ∧ owner.state = .inFlight ∧ now < deadline ∧
        proxy.refreshTokens.current.lookup key =
          some ({ owner with state := .active }, deadline)) ∨
      (op = .dropGuard key ∧ owner.state = .active ∧
        proxy.refreshTokens.current.lookup key =
          some ({ owner with state := .inFlight }, deadline)) := by
  cases op with
  | mintRefresh minted clientId upstreamId =>
      rcases lookup_insertBounded hentry with ⟨rfl, heq, hroom⟩ | ⟨hold, _⟩
      · cases heq
        exact Or.inr (Or.inl ⟨rfl, rfl, hroom⟩)
      · exact Or.inl hold
  | redeemCurrent presented =>
      simp only [apply, RefreshStore.redeemCurrent] at hentry
      split at hentry
      next stored expiresAt hstored =>
        split at hentry
        next => exact Or.inl (Table.lookup_erase_iff.mp hentry).2
        next hlive =>
          split at hentry
          next => exact Or.inl hentry
          next hactive =>
            rcases Table.lookup_insert_iff.mp hentry with
              ⟨rfl, heq⟩ | ⟨_, hold⟩
            · cases heq
              refine Or.inr (Or.inr (Or.inl ⟨rfl, rfl, not_le.mp hlive, ?_⟩))
              rw [hstored, ← hactive]
            · exact Or.inl hold
      next => exact Or.inl hentry
  | removeCurrent removed => exact Or.inl (Table.lookup_erase_iff.mp hentry).2
  | removeRefreshByUpstream upstreamId =>
      exact Or.inl (Table.lookup_retain_eq_some.mp hentry).1
  | dropGuard dropped =>
      rcases Table.lookup_modify_iff.mp hentry with
        ⟨rfl, stored, hstored, heq⟩ | ⟨_, hold⟩
      · split at heq
        next hinFlight =>
          cases heq
          refine Or.inr (Or.inr (Or.inr ⟨rfl, rfl, ?_⟩))
          rw [hstored, ← hinFlight]
        next =>
          subst heq
          exact Or.inl hstored
      · exact Or.inl hold
  | _ => exact Or.inl hentry

theorem retired_after
    {key : Digest} {entry : String × Instant}
    (hentry : (op.apply now proxy).refreshTokens.retired.lookup key =
      some entry) :
    proxy.refreshTokens.retired.lookup key = some entry ∨
      (op = .insertRetired key entry.1 ∧
        entry.2 = expiresAfter now retiredRefreshTtl) := by
  cases op with
  | insertRetired retired upstreamId =>
      rcases lookup_insertBounded hentry with ⟨hkey, hvalue, _⟩ | ⟨hold, _⟩
      · rw [hkey, hvalue]
        exact Or.inr ⟨by simp only, by simp only⟩
      · exact Or.inl hold
  | redeemCurrent presented =>
      left
      simp only [apply, RefreshStore.redeemCurrent] at hentry
      split at hentry
      · split at hentry
        · exact hentry
        · split at hentry <;> exact hentry
      · exact hentry
  | _ => exact Or.inl hentry

theorem retired_kept
    {key : Digest} {entry : String × Instant}
    (hentry : proxy.refreshTokens.retired.lookup key = some entry)
    (hlive : now < entry.2) (hother : ∀ u, op ≠ .insertRetired key u) :
    (op.apply now proxy).refreshTokens.retired.lookup key = some entry := by
  cases op with
  | insertRetired retired upstreamId =>
      have hne : key ≠ retired := by
        rintro rfl
        exact hother upstreamId rfl
      exact lookup_insertBounded_of_ne hne hentry hlive
  | redeemCurrent presented =>
      simp only [apply, RefreshStore.redeemCurrent]
      split
      · split
        · exact hentry
        · split <;> exact hentry
      · exact hentry
  | _ => exact hentry

theorem pending_after
    {key : Digest} {entry : PendingCode × Instant}
    (hentry : (op.apply now proxy).codes.pending.lookup key = some entry) :
    proxy.codes.pending.lookup key = some entry ∨
      ∃ set, op = .mintCode key entry.1 set ∧
        entry.2 = expiresAfter now codeTtl ∧
        (proxy.codes.mint now key entry.1 set).2 = true := by
  cases op with
  | mintCode minted code set =>
      simp only [apply, CodeStore.mint] at hentry
      split at hentry
      next hroom =>
        rcases lookup_insertBounded hentry with ⟨hkey, hvalue, _⟩ | ⟨hold, _⟩
        · rw [hkey, hvalue]
          exact Or.inr ⟨set, by simp only, by simp only,
            by simp [CodeStore.mint, hroom]⟩
        · exact Or.inl hold
      next =>
        rcases lookup_insertBounded hentry with ⟨rfl, rfl, hroom⟩ | ⟨hold, _⟩
        · contradiction
        · exact Or.inl hold
  | redeemPending presented =>
      left
      simp only [apply, CodeStore.redeemPending] at hentry
      split at hentry
      · split at hentry
        · exact (Table.lookup_erase_iff.mp hentry).2
        · exact hentry
      · exact hentry
  | removePending removed => exact Or.inl (Table.lookup_erase_iff.mp hentry).2
  | _ => exact Or.inl hentry

theorem codeUpstream_after
    {key : Digest} {set : UpstreamTokenSet}
    (hentry : (op.apply now proxy).codes.upstream.lookup key = some set) :
    proxy.codes.upstream.lookup key = some set ∨
      ∃ entry, op = .mintCode key entry set ∧
        (proxy.codes.mint now key entry set).2 = true := by
  cases op with
  | mintCode minted code minting =>
      simp only [apply, CodeStore.mint] at hentry
      split at hentry
      next hroom =>
        rcases Table.lookup_insert_iff.mp hentry with ⟨rfl, rfl⟩ | ⟨_, hold⟩
        · exact Or.inr ⟨code, rfl, by simp [CodeStore.mint, hroom]⟩
        · exact Or.inl hold
      next => exact Or.inl hentry
  | redeemPending presented =>
      left
      simp only [apply, CodeStore.redeemPending] at hentry
      split at hentry
      · split at hentry <;> exact hentry
      · exact hentry
  | removeCodeUpstream removed =>
      exact Or.inl (Table.lookup_erase_iff.mp hentry).2
  | _ => exact Or.inl hentry

theorem codeUpstream_kept
    {key : Digest} (hstored : key ∈ proxy.codes.upstream)
    (hother : op ≠ .removeCodeUpstream key) :
    key ∈ (op.apply now proxy).codes.upstream := by
  cases op with
  | mintCode minted code minting =>
      simp only [apply, CodeStore.mint]
      split
      · exact (AList.mem_insert _).mpr (Or.inr hstored)
      · exact hstored
  | redeemPending presented =>
      simp only [apply, CodeStore.redeemPending]
      split
      · split <;> exact hstored
      · exact hstored
  | removeCodeUpstream removed =>
      have hne : key ≠ removed := by
        rintro rfl
        exact hother rfl
      exact AList.mem_erase.mpr ⟨hne, hstored⟩
  | _ => exact hstored

theorem pending_kept
    {key : Digest} {entry : PendingCode × Instant}
    (hentry : proxy.codes.pending.lookup key = some entry)
    (hlive : now < entry.2) (hremove : op ≠ .removePending key)
    (hmint : op.mintedDigest ≠ some key) :
    (op.apply now proxy).codes.pending.lookup key = some entry := by
  cases op with
  | mintCode minted code set =>
      have hne : key ≠ minted := by
        rintro rfl
        exact hmint rfl
      have hkept : ∀ value deadline,
          (insertBounded now proxy.codes.pending minted value
            deadline).1.lookup key = some entry :=
        fun _ _ => lookup_insertBounded_of_ne hne hentry hlive
      simp only [apply, CodeStore.mint]
      split <;> exact hkept _ _
  | redeemPending presented =>
      simp only [apply, CodeStore.redeemPending]
      split
      next found deadline hfound =>
        split
        next hexpired =>
          have hne : key ≠ presented := by
            rintro rfl
            rw [hfound, Option.some.injEq] at hentry
            rw [← hentry] at hlive
            exact absurd hexpired (not_le.mpr hlive)
          exact Table.lookup_erase_iff.mpr ⟨hne, hentry⟩
        next => exact hentry
      next => exact hentry
  | removePending removed =>
      have hne : key ≠ removed := by
        rintro rfl
        exact hremove rfl
      exact Table.lookup_erase_iff.mpr ⟨hne, hentry⟩
  | _ => exact hentry

theorem consumed_kept
    {key : Digest} {entry : ConsumedRecord × Instant}
    (hentry : proxy.codes.consumed.lookup key = some entry)
    (hlive : now < entry.2) (hother : ∀ record, op ≠ .markConsumed key record) :
    (op.apply now proxy).codes.consumed.lookup key = some entry := by
  cases op with
  | markConsumed marked record =>
      have hne : key ≠ marked := by
        rintro rfl
        exact hother record rfl
      exact lookup_insertBounded_of_ne hne hentry hlive
  | mintCode minted code set =>
      simp only [apply, CodeStore.mint]
      split <;> exact hentry
  | redeemPending presented =>
      simp only [apply, CodeStore.redeemPending]
      split
      · split <;> exact hentry
      · exact hentry
  | _ => exact hentry

theorem transactions_after
    {key : Digest} {entry : Transaction × Instant}
    (hentry : (op.apply now proxy).transactions.lookup key = some entry) :
    proxy.transactions.lookup key = some entry ∨
      (op = .createTransaction key entry.1 ∧
        (proxy.transactions.create now key entry.1).2 = true) := by
  cases op with
  | createTransaction created transaction =>
      rcases lookup_insertBounded hentry with ⟨rfl, rfl, hroom⟩ | ⟨hold, _⟩
      · exact Or.inr ⟨rfl, hroom⟩
      · exact Or.inl hold
  | takeTransaction taken => exact Or.inl (Table.lookup_erase_iff.mp hentry).2
  | _ => exact Or.inl hentry

end StoreOp

/-! ## Drawn keys -/

/-- Every key of a store that is filled by minting was drawn by the process,
and every session identifier in the stores too. -/
structure State.Drawn (s : State) : Prop where
  tokens : ∀ key ∈ s.proxy.tokens, key ∈ s.drawn
  current : ∀ key ∈ s.proxy.refreshTokens.current, key ∈ s.drawn
  pending : ∀ key ∈ s.proxy.codes.pending, key ∈ s.drawn
  codeUpstream : ∀ key ∈ s.proxy.codes.upstream, key ∈ s.drawn
  transactions : ∀ key ∈ s.proxy.transactions, key ∈ s.drawn
  sessions : ∀ id ∈ s.proxy.upstreamTokens, id ∈ s.drawnIds

theorem State.Drawn.initial : State.initial.Drawn := by
  constructor <;> intro key hkey <;> exact absurd hkey (AList.notMem_empty key)

theorem mem_drawn_commit
    {s : State} {i : ℕ} {step : Conn.Step} {key : Digest}
    (hkey : key ∈ s.drawn) : key ∈ (s.commit i step).drawn :=
  List.mem_append_right _ hkey

theorem mem_drawnIds_commit
    {s : State} {i : ℕ} {step : Conn.Step} {id : String}
    (hid : id ∈ s.drawnIds) : id ∈ (s.commit i step).drawnIds :=
  List.mem_append_right _ hid

theorem mintedDigest_mem_commit
    {s : State} {i : ℕ} {step : Conn.Step} {key : Digest}
    (hkey : step.op.mintedDigest = some key) :
    key ∈ (s.commit i step).drawn := by
  apply List.mem_append_left
  simp [hkey]

theorem mintedId_mem_commit
    {s : State} {i : ℕ} {step : Conn.Step} {id : String}
    (hid : step.op.mintedId = some id) :
    id ∈ (s.commit i step).drawnIds := by
  apply List.mem_append_left
  simp [hid]

theorem State.Drawn.commit
    {s : State} (hdrawn : s.Drawn) (i : ℕ) (step : Conn.Step) :
    (s.commit i step).Drawn where
  tokens := by
    intro key hkey
    obtain ⟨entry, hentry⟩ := Table.mem_iff_lookup.mp hkey
    rcases StoreOp.tokens_after hentry with hold | ⟨ttl, hop, _⟩
    · exact mem_drawn_commit (hdrawn.tokens key (Table.mem_of_lookup hold))
    · exact mintedDigest_mem_commit (by rw [hop]; rfl)
  current := by
    intro key hkey
    obtain ⟨⟨owner, deadline⟩, hentry⟩ := Table.mem_iff_lookup.mp hkey
    have hold {entry} (hlookup : s.proxy.refreshTokens.current.lookup key =
        some entry) : key ∈ (s.commit i step).drawn :=
      mem_drawn_commit (hdrawn.current key (Table.mem_of_lookup hlookup))
    rcases StoreOp.current_after hentry with
      hlookup | ⟨hop, _⟩ | ⟨_, _, _, hlookup⟩ | ⟨_, _, hlookup⟩
    · exact hold hlookup
    · exact mintedDigest_mem_commit (by rw [hop]; rfl)
    · exact hold hlookup
    · exact hold hlookup
  pending := by
    intro key hkey
    obtain ⟨entry, hentry⟩ := Table.mem_iff_lookup.mp hkey
    rcases StoreOp.pending_after hentry with hold | ⟨set, hop, _⟩
    · exact mem_drawn_commit (hdrawn.pending key (Table.mem_of_lookup hold))
    · exact mintedDigest_mem_commit (by rw [hop]; rfl)
  codeUpstream := by
    intro key hkey
    obtain ⟨set, hentry⟩ := Table.mem_iff_lookup.mp hkey
    rcases StoreOp.codeUpstream_after hentry with hold | ⟨entry, hop, _⟩
    · exact mem_drawn_commit
        (hdrawn.codeUpstream key (Table.mem_of_lookup hold))
    · exact mintedDigest_mem_commit (by rw [hop]; rfl)
  transactions := by
    intro key hkey
    obtain ⟨entry, hentry⟩ := Table.mem_iff_lookup.mp hkey
    rcases StoreOp.transactions_after hentry with hold | ⟨hop, _⟩
    · exact mem_drawn_commit
        (hdrawn.transactions key (Table.mem_of_lookup hold))
    · exact mintedDigest_mem_commit (by rw [hop]; rfl)
  sessions := by
    intro id hid
    obtain ⟨entry, hentry⟩ := Table.mem_iff_lookup.mp hid
    rcases StoreOp.upstreamTokens_after hentry with hold | hop | ⟨_, hmem, _⟩
    · exact mem_drawnIds_commit
        (hdrawn.sessions id (Table.mem_of_lookup hold))
    · exact mintedId_mem_commit (by rw [hop]; rfl)
    · exact mem_drawnIds_commit (hdrawn.sessions id hmem)

theorem proxy_next
    {env : Env} {s s' : State} {label : Label}
    (hnext : s.next env label = some s') :
    (s'.proxy = s.proxy ∧ s'.drawn = s.drawn ∧ s'.drawnIds = s.drawnIds) ∨
      ∃ i choice conn step, label = .poll i choice ∧
        s.conns i = some conn ∧
        conn.step env s.now choice s.proxy = some step ∧
        s.Fresh step.op ∧ s' = s.commit i step := by
  cases stepKind_of_next hnext with
  | elapse duration => exact Or.inl ⟨rfl, rfl, rfl⟩
  | spawn i request hfree => exact Or.inl ⟨rfl, rfl, rfl⟩
  | poll i choice conn step hconn hstep hfresh =>
      exact Or.inr ⟨i, choice, conn, step, rfl, hconn, hstep, hfresh, rfl⟩
  | cancel i conn cancelled hconn hcancel => exact Or.inl ⟨rfl, rfl, rfl⟩

theorem mem_drawn_next
    {env : Env} {s s' : State} {label : Label} {key : Digest}
    (hnext : s.next env label = some s') (hkey : key ∈ s.drawn) :
    key ∈ s'.drawn := by
  rcases proxy_next hnext with ⟨_, hdrawn, _⟩ |
    ⟨i, choice, conn, step, _, _, _, _, rfl⟩
  · rwa [hdrawn]
  · exact mem_drawn_commit hkey

theorem mem_drawnIds_next
    {env : Env} {s s' : State} {label : Label} {id : String}
    (hnext : s.next env label = some s') (hid : id ∈ s.drawnIds) :
    id ∈ s'.drawnIds := by
  rcases proxy_next hnext with ⟨_, _, hdrawn⟩ |
    ⟨i, choice, conn, step, _, _, _, _, rfl⟩
  · rwa [hdrawn]
  · exact mem_drawnIds_commit hid

theorem mem_drawn_run
    {env : Env} (run : ProxyRun env) {key : Digest} {m n : ℕ} (hle : m ≤ n)
    (hkey : key ∈ (run.state m).drawn) : key ∈ (run.state n).drawn :=
  run.stable (fun _ => True) (fun s => key ∈ s.drawn) (fun _ => trivial)
    (fun _ _ _ _ hkey hnext => mem_drawn_next hnext hkey) hle hkey

theorem mem_drawnIds_run
    {env : Env} (run : ProxyRun env) {id : String} {m n : ℕ} (hle : m ≤ n)
    (hid : id ∈ (run.state m).drawnIds) : id ∈ (run.state n).drawnIds :=
  run.stable (fun _ => True) (fun s => id ∈ s.drawnIds) (fun _ => trivial)
    (fun _ _ _ _ hid hnext => mem_drawnIds_next hnext hid) hle hid

theorem State.Drawn.next
    {env : Env} {s s' : State} {label : Label} (hdrawn : s.Drawn)
    (hnext : s.next env label = some s') : s'.Drawn := by
  rcases proxy_next hnext with ⟨hproxy, hkeys, hids⟩ |
    ⟨i, choice, conn, step, _, _, _, _, rfl⟩
  · constructor
    all_goals rw [hproxy]
    · rw [hkeys]; exact hdrawn.tokens
    · rw [hkeys]; exact hdrawn.current
    · rw [hkeys]; exact hdrawn.pending
    · rw [hkeys]; exact hdrawn.codeUpstream
    · rw [hkeys]; exact hdrawn.transactions
    · rw [hids]; exact hdrawn.sessions
  · exact hdrawn.commit i step

theorem run_drawn {env : Env} (run : ProxyRun env) :
    ∀ n, (run.state n).Drawn :=
  run.invariant State.Drawn State.Drawn.initial
    fun _ _ _ hdrawn hnext => hdrawn.next hnext

/-! ## Absent drawn keys stay absent -/

theorem State.Fresh.ne_of_minted
    {s : State} {op : StoreOp} (hfresh : s.Fresh op) {key minted : Digest}
    (hminted : op.mintedDigest = some minted) (hkey : key ∈ s.drawn) :
    key ≠ minted := by
  rintro rfl
  exact hfresh.1 key hminted hkey

theorem State.Fresh.ne_of_mintedId
    {s : State} {op : StoreOp} (hfresh : s.Fresh op) {id minted : String}
    (hminted : op.mintedId = some minted) (hid : id ∈ s.drawnIds) :
    id ≠ minted := by
  rintro rfl
  exact hfresh.2 id hminted hid

theorem tokens_before
    {env : Env} {s s' : State} {label : Label} {key : Digest}
    {entry : TokenEntry × Instant}
    (hnext : s.next env label = some s') (hkey : key ∈ s.drawn)
    (hentry : s'.proxy.tokens.lookup key = some entry) :
    s.proxy.tokens.lookup key = some entry := by
  rcases proxy_next hnext with ⟨hproxy, _⟩ |
    ⟨i, choice, conn, step, _, _, _, hfresh, rfl⟩
  · rwa [hproxy] at hentry
  · rcases StoreOp.tokens_after hentry with hold | ⟨ttl, hop, _⟩
    · exact hold
    · exact absurd rfl (hfresh.ne_of_minted (by rw [hop]; rfl) hkey)

/-- What is absent and not brought in by a section that draws afresh stays
absent; `held` is the presence of a key in one of the maps. -/
theorem absent_next
    {env : Env} {s s' : State} {label : Label} {held : ProxyState → Prop}
    (hnext : s.next env label = some s') (habsent : ¬ held s.proxy)
    (hbrought : ∀ op, s.Fresh op → held (op.apply s.now s.proxy) →
      held s.proxy) : ¬ held s'.proxy := by
  intro hheld
  rcases proxy_next hnext with ⟨hproxy, _⟩ |
    ⟨i, choice, conn, step, _, _, _, hfresh, rfl⟩
  · exact habsent (hproxy ▸ hheld)
  · exact habsent (hbrought step.op hfresh hheld)

theorem pending_absent_next
    {env : Env} {s s' : State} {label : Label} {key : Digest}
    (hnext : s.next env label = some s') (hdrawn : key ∈ s.drawn)
    (habsent : key ∉ s.proxy.codes.pending) :
    key ∉ s'.proxy.codes.pending := by
  refine @absent_next env s s' label (fun proxy => key ∈ proxy.codes.pending)
    hnext habsent fun op hfresh hmem => ?_
  obtain ⟨entry, hentry⟩ := Table.mem_iff_lookup.mp hmem
  rcases StoreOp.pending_after hentry with hold | ⟨set, hop, _⟩
  · exact Table.mem_of_lookup hold
  · exact absurd rfl (hfresh.ne_of_minted (by rw [hop]; rfl) hdrawn)

theorem codeUpstream_absent_next
    {env : Env} {s s' : State} {label : Label} {key : Digest}
    (hnext : s.next env label = some s') (hdrawn : key ∈ s.drawn)
    (habsent : key ∉ s.proxy.codes.upstream) :
    key ∉ s'.proxy.codes.upstream := by
  refine @absent_next env s s' label (fun proxy => key ∈ proxy.codes.upstream)
    hnext habsent fun op hfresh hmem => ?_
  obtain ⟨set, hentry⟩ := Table.mem_iff_lookup.mp hmem
  rcases StoreOp.codeUpstream_after hentry with hold | ⟨entry, hop, _⟩
  · exact Table.mem_of_lookup hold
  · exact absurd rfl (hfresh.ne_of_minted (by rw [hop]; rfl) hdrawn)

theorem session_absent_next
    {env : Env} {s s' : State} {label : Label} {u : String}
    (hnext : s.next env label = some s') (hdrawn : u ∈ s.drawnIds)
    (habsent : u ∉ s.proxy.upstreamTokens) :
    u ∉ s'.proxy.upstreamTokens := by
  refine @absent_next env s s' label (fun proxy => u ∈ proxy.upstreamTokens)
    hnext habsent fun op hfresh hmem => ?_
  obtain ⟨entry, hentry⟩ := Table.mem_iff_lookup.mp hmem
  rcases StoreOp.upstreamTokens_after hentry with hold | hop | ⟨_, hpresent, _⟩
  · exact Table.mem_of_lookup hold
  · exact absurd rfl (hfresh.ne_of_mintedId (by rw [hop]; rfl) hdrawn)
  · exact hpresent

theorem session_absent_run
    {env : Env} (run : ProxyRun env) {u : String} {m n : ℕ} (hle : m ≤ n)
    (hdrawn : u ∈ (run.state m).drawnIds)
    (habsent : u ∉ (run.state m).proxy.upstreamTokens) :
    u ∉ (run.state n).proxy.upstreamTokens := by
  have hboth :
      u ∈ (run.state n).drawnIds ∧ u ∉ (run.state n).proxy.upstreamTokens :=
    run.stable State.Drawn
      (fun s => u ∈ s.drawnIds ∧ u ∉ s.proxy.upstreamTokens) (run_drawn run)
      (fun _ _ _ _ hgood hnext => ⟨mem_drawnIds_next hnext hgood.1,
        session_absent_next hnext hgood.1 hgood.2⟩)
      hle ⟨hdrawn, habsent⟩
  exact hboth.2

end RuprogressMcp
