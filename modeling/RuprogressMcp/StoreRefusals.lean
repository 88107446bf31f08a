import RuprogressMcp.CodeStoreBounds

/-!
# Full stores

The bounded maps of all the stores together, under any sequence of critical
sections and any passing of time.  Seven maps hold entries with a deadline:
one sweep and one capacity check serve them all, but each has its own values
and its own removals.  The facts about one map are stated for a map before
and after a section, with the keys that the section removes or rewrites as
parameters, and are used at each of the maps.
-/

namespace RuprogressMcp

/-! ## One map under one section -/

/-- Between the two maps nothing grows past the capacity, and a live entry
stays unless it is removed and stays as it is unless it is rewritten. -/
structure Keeps {K V : Type} [DecidableEq K] (now : Instant)
    (removed : K → V → Prop) (rewritten : K → Prop)
    (before after : Table K (V × Instant)) : Prop where
  bounded : before.len ≤ maxEntries → after.len ≤ maxEntries
  stays : ∀ key value deadline,
    before.lookup key = some (value, deadline) → now < deadline →
    ¬ removed key value → key ∈ after
  same : ∀ key value deadline,
    before.lookup key = some (value, deadline) → now < deadline →
    ¬ removed key value → ¬ rewritten key →
    after.lookup key = some (value, deadline)

namespace Keeps

variable {K V : Type} [DecidableEq K] {now : Instant}
  {removed : K → V → Prop} {rewritten : K → Prop}

theorem refl (map : Table K (V × Instant)) :
    Keeps now removed rewritten map map where
  bounded := id
  stays _ _ _ hlookup _ _ := Table.mem_of_lookup hlookup
  same _ _ _ hlookup _ _ _ := hlookup

/-- A live entry that is not removed stays as it is. -/
theorem of_unchanged
    {before after : Table K (V × Instant)}
    (hbounded : before.len ≤ maxEntries → after.len ≤ maxEntries)
    (hunchanged : ∀ key value deadline,
      before.lookup key = some (value, deadline) → now < deadline →
      ¬ removed key value → after.lookup key = some (value, deadline)) :
    Keeps now removed rewritten before after where
  bounded := hbounded
  stays key value deadline hlookup hlive hkept :=
    Table.mem_of_lookup (hunchanged key value deadline hlookup hlive hkept)
  same key value deadline hlookup hlive hkept _ :=
    hunchanged key value deadline hlookup hlive hkept

theorem mono
    {removed' : K → V → Prop} {rewritten' : K → Prop}
    {before after : Table K (V × Instant)}
    (hkeeps : Keeps now removed rewritten before after)
    (hremoved : ∀ key value, removed key value → removed' key value)
    (hrewritten : ∀ key, rewritten key → rewritten' key) :
    Keeps now removed' rewritten' before after where
  bounded := hkeeps.bounded
  stays key value deadline hlookup hlive hkept :=
    hkeeps.stays key value deadline hlookup hlive
      fun h => hkept (hremoved key value h)
  same key value deadline hlookup hlive hkept hsame :=
    hkeeps.same key value deadline hlookup hlive
      (fun h => hkept (hremoved key value h))
      fun h => hsame (hrewritten key h)

theorem erase
    {map : Table K (V × Instant)} {key : K}
    (hremoved : ∀ value deadline,
      map.lookup key = some (value, deadline) → now < deadline →
      removed key value) :
    Keeps now removed rewritten map (map.erase key) := by
  refine of_unchanged (fun hbound => (Table.len_erase_le _ _).trans hbound) ?_
  intro other value deadline hlookup hlive hkept
  refine Table.lookup_erase_iff.mpr ⟨?_, hlookup⟩
  rintro rfl
  exact hkept (hremoved value deadline hlookup hlive)

theorem retain
    {map : Table K (V × Instant)} (keep : K → V × Instant → Bool)
    (hkeep : ∀ key value deadline, now < deadline → ¬ removed key value →
      keep key (value, deadline) = true) :
    Keeps now removed rewritten map (map.retain keep) := by
  refine of_unchanged (fun hbound => (Table.len_retain_le _ _).trans hbound) ?_
  intro key value deadline hlookup hlive hkept
  exact Table.lookup_retain_eq_some.mpr
    ⟨hlookup, hkeep key value deadline hlive hkept⟩

theorem sweep (map : Table K (V × Instant)) :
    Keeps now removed rewritten map (map.sweep now) :=
  retain _ fun _ _ _ hlive _ => decide_eq_true hlive

/-- An entry that is present may be overwritten in place. -/
theorem insert
    {map : Table K (V × Instant)} {key : K} {entry : V × Instant}
    (hmem : key ∈ map) (hrewritten : rewritten key) :
    Keeps now removed rewritten map (AList.insert key entry map) := by
  refine ⟨?_, ?_, ?_⟩
  · intro hbound
    exact (Table.len_insert_of_mem hmem _).trans hbound
  · intro other value deadline hlookup _ _
    exact (AList.mem_insert _).mpr (Or.inr (Table.mem_of_lookup hlookup))
  · intro other value deadline hlookup _ _ hsame
    refine Table.lookup_insert_iff.mpr (Or.inr ⟨?_, hlookup⟩)
    rintro rfl
    exact hsame hrewritten

theorem modify
    {map : Table K (V × Instant)} {key : K}
    {f : V × Instant → V × Instant} (hrewritten : rewritten key) :
    Keeps now removed rewritten map (map.modify key f) := by
  unfold Table.modify
  cases hlookup : map.lookup key with
  | none => exact refl map
  | some entry => exact insert (Table.mem_of_lookup hlookup) hrewritten

/-- The shared insertion keeps every live entry, whether it finds room or
not. -/
theorem insertBounded
    {map : Table K (V × Instant)} {key : K} {value : V} {deadline : Instant}
    (hnew : key ∉ map ∨ rewritten key) :
    Keeps now removed rewritten map
      (insertBounded now map key value deadline).1 := by
  refine ⟨len_insertBounded_le, ?_, ?_⟩
  · intro other found expiresAt hlookup hlive _
    by_cases heq : other = key
    · subst heq
      have hswept : other ∈ map.sweep now :=
        Table.mem_of_lookup (Table.lookup_sweep_iff.mpr ⟨hlookup, hlive⟩)
      have hroom : (sweepAndCheckCapacity now map other).2 = true := by
        simp [sweepAndCheckCapacity, hswept]
      exact Table.mem_of_lookup (lookup_insertBounded_self hroom)
    · exact Table.mem_of_lookup
        (lookup_insertBounded_of_ne heq hlookup hlive)
  · intro other found expiresAt hlookup hlive _ hsame
    refine lookup_insertBounded_of_ne ?_ hlookup hlive
    rintro rfl
    rcases hnew with habsent | hrewritten
    · exact habsent (Table.mem_of_lookup hlookup)
    · exact hsame hrewritten

end Keeps

theorem not_live_of_expired
    {K V : Type} [DecidableEq K] {now expiresAt : Instant}
    {map : Table K (V × Instant)} {key : K} {found : V} {p : V → Prop}
    (hlookup : map.lookup key = some (found, expiresAt))
    (hexpired : expiresAt ≤ now) :
    ∀ value deadline, map.lookup key = some (value, deadline) →
      now < deadline → p value := by
  intro value deadline hentry hlive
  rw [hlookup, Option.some.injEq, Prod.mk.injEq] at hentry
  obtain ⟨_, rfl⟩ := hentry
  exact absurd hlive (not_lt.mpr hexpired)

/-! ## The maps with deadlines -/

inductive StoreMap
  | transactions
  | sessions
  | pending
  | consumed
  | tokens
  | current
  | retired
deriving DecidableEq

namespace StoreMap

def Key : StoreMap → Type
  | sessions => String
  | _ => Digest

def Value : StoreMap → Type
  | transactions => Transaction
  | sessions => UpstreamTokenSet
  | pending => PendingCode
  | consumed => ConsumedRecord
  | tokens => TokenEntry
  | current => RefreshOwner
  | retired => String

instance (map : StoreMap) : DecidableEq map.Key :=
  match map with
  | sessions => inferInstanceAs (DecidableEq String)
  | transactions => inferInstanceAs (DecidableEq Digest)
  | pending => inferInstanceAs (DecidableEq Digest)
  | consumed => inferInstanceAs (DecidableEq Digest)
  | tokens => inferInstanceAs (DecidableEq Digest)
  | current => inferInstanceAs (DecidableEq Digest)
  | retired => inferInstanceAs (DecidableEq Digest)

end StoreMap

def ProxyState.table (proxy : ProxyState) :
    (map : StoreMap) → Table map.Key (map.Value × Instant)
  | .transactions => proxy.transactions
  | .sessions => proxy.upstreamTokens
  | .pending => proxy.codes.pending
  | .consumed => proxy.codes.consumed
  | .tokens => proxy.tokens
  | .current => proxy.refreshTokens.current
  | .retired => proxy.refreshTokens.retired

namespace StoreOp

/-- The section names the entry and removes it: it carries the key of the
entry, or the session that a token belongs to.  `removePending` is the
removing section of `redeem`; `removeCurrent` is that of `retire`, `discard`,
`take` and `delete_by_digest`.  No section removes a consumed code or a
retired token. -/
def Removes (op : StoreOp) : (map : StoreMap) → map.Key → map.Value → Prop
  | .transactions, key, _ => op = takeTransaction key
  | .sessions, id, _ => op = takeUpstream id
  | .pending, key, _ => op = removePending key
  | .consumed, _, _ => False
  | .tokens, key, entry =>
      op = removeToken key ∨ op = removeTokensByUpstream entry.upstreamId
  | .current, key, owner =>
      op = removeCurrent key ∨ op = removeRefreshByUpstream owner.upstreamId
  | .retired, _, _ => False

/-- The section names the entry and changes it in place. -/
def Rewrites (op : StoreOp) : (map : StoreMap) → map.Key → Prop
  | .transactions, _ => False
  | .sessions, id => ∃ set, op = replaceUpstream id set
  | .pending, _ => False
  | .consumed, key => ∃ record, op = markConsumed key record
  | .tokens, _ => False
  | .current, key => op = redeemCurrent key ∨ op = dropGuard key
  | .retired, key => ∃ upstreamId, op = insertRetired key upstreamId

/-- The key that the section mints under is not in use. -/
def isFresh (proxy : ProxyState) : StoreOp → Bool
  | createTransaction key _ => decide (key ∉ proxy.transactions)
  | insertUpstream id _ _ => decide (id ∉ proxy.upstreamTokens)
  | mintCode key _ _ => decide (key ∉ proxy.codes.pending)
  | mintToken key _ _ => decide (key ∉ proxy.tokens)
  | mintRefresh key _ _ => decide (key ∉ proxy.refreshTokens.current)
  | _ => true

variable {now : Instant} {proxy : ProxyState} {op : StoreOp}

theorem keeps_transactions (hfresh : op.isFresh proxy = true) :
    Keeps now (op.Removes .transactions) (op.Rewrites .transactions)
      (proxy.table .transactions) ((op.apply now proxy).table .transactions) := by
  cases op with
  | createTransaction key transaction =>
      have habsent : key ∉ proxy.transactions := of_decide_eq_true hfresh
      exact .insertBounded (Or.inl habsent)
  | takeTransaction key => exact .erase fun _ _ _ _ => rfl
  | _ => exact .refl _

theorem keeps_sessions (hfresh : op.isFresh proxy = true) :
    Keeps now (op.Removes .sessions) (op.Rewrites .sessions)
      (proxy.table .sessions) ((op.apply now proxy).table .sessions) := by
  cases op with
  | insertUpstream id set deadline =>
      have habsent : id ∉ proxy.upstreamTokens := of_decide_eq_true hfresh
      exact .insertBounded (Or.inl habsent)
  | takeUpstream id => exact .erase fun _ _ _ _ => rfl
  | replaceUpstream id set =>
      simp only [apply, UpstreamStore.replace]
      cases hlive : proxy.upstreamTokens.live now id with
      | none => exact .refl _
      | some held =>
          have hmem : id ∈ proxy.upstreamTokens := by
            cases hlookup : proxy.upstreamTokens.lookup id with
            | none => simp [UpstreamStore.live, hlookup] at hlive
            | some entry => exact Table.mem_of_lookup hlookup
          exact .insert hmem ⟨set, rfl⟩
  | sweepUpstream => exact .sweep _
  | _ => exact .refl _

theorem keeps_pending (hfresh : op.isFresh proxy = true) :
    Keeps now (op.Removes .pending) (op.Rewrites .pending)
      (proxy.table .pending) ((op.apply now proxy).table .pending) := by
  cases op with
  | mintCode key entry set =>
      have habsent : key ∉ proxy.codes.pending := of_decide_eq_true hfresh
      simp only [apply, CodeStore.mint]
      split <;> exact .insertBounded (Or.inl habsent)
  | redeemPending key =>
      simp only [apply, CodeStore.redeemPending]
      split
      next entry expiresAt hlookup =>
        split
        next hexpired => exact .erase (not_live_of_expired hlookup hexpired)
        next => exact .refl _
      next => exact .refl _
  | removePending key => exact .erase fun _ _ _ _ => rfl
  | _ => exact .refl _

theorem keeps_consumed :
    Keeps now (op.Removes .consumed) (op.Rewrites .consumed)
      (proxy.table .consumed) ((op.apply now proxy).table .consumed) := by
  cases op with
  | mintCode key entry set =>
      simp only [apply, CodeStore.mint]
      split <;> exact .refl _
  | redeemPending key =>
      simp only [apply, CodeStore.redeemPending]
      split
      next => split <;> exact .refl _
      next => exact .refl _
  | markConsumed key record => exact .insertBounded (Or.inr ⟨record, rfl⟩)
  | _ => exact .refl _

theorem keeps_tokens (hfresh : op.isFresh proxy = true) :
    Keeps now (op.Removes .tokens) (op.Rewrites .tokens)
      (proxy.table .tokens) ((op.apply now proxy).table .tokens) := by
  cases op with
  | mintToken key entry ttl =>
      have habsent : key ∉ proxy.tokens := of_decide_eq_true hfresh
      exact .insertBounded (Or.inl habsent)
  | resolveToken key =>
      simp only [apply, TokenStore.resolve]
      split
      next entry expiresAt hlookup =>
        split
        next hexpired => exact .erase (not_live_of_expired hlookup hexpired)
        next => exact .refl _
      next => exact .refl _
  | removeToken key => exact .erase fun _ _ _ _ => Or.inl rfl
  | removeTokensByUpstream upstreamId =>
      refine .retain (K := Digest)
        (fun _ (entry : TokenEntry × Instant) =>
          decide (entry.1.upstreamId ≠ upstreamId)) ?_
      intro key entry deadline _ hkept
      refine decide_eq_true ?_
      rintro rfl
      exact hkept (Or.inr rfl)
  | _ => exact .refl _

theorem keeps_current (hfresh : op.isFresh proxy = true) :
    Keeps now (op.Removes .current) (op.Rewrites .current)
      (proxy.table .current) ((op.apply now proxy).table .current) := by
  cases op with
  | mintRefresh key clientId upstreamId =>
      have habsent : key ∉ proxy.refreshTokens.current :=
        of_decide_eq_true hfresh
      exact .insertBounded (Or.inl habsent)
  | redeemCurrent key =>
      simp only [apply, RefreshStore.redeemCurrent]
      split
      next owner expiresAt hlookup =>
        split
        next hexpired => exact .erase (not_live_of_expired hlookup hexpired)
        next =>
          split
          next => exact .refl _
          next =>
            have hmem : key ∈ proxy.refreshTokens.current :=
              Table.mem_of_lookup hlookup
            exact .insert hmem (Or.inl rfl)
      next => exact .refl _
  | removeCurrent key => exact .erase fun _ _ _ _ => Or.inl rfl
  | removeRefreshByUpstream upstreamId =>
      refine .retain (K := Digest)
        (fun _ (owner : RefreshOwner × Instant) =>
          decide (owner.1.upstreamId ≠ upstreamId)) ?_
      intro key owner deadline _ hkept
      refine decide_eq_true ?_
      rintro rfl
      exact hkept (Or.inr rfl)
  | dropGuard key => exact .modify (Or.inr rfl)
  | _ => exact .refl _

theorem keeps_retired :
    Keeps now (op.Removes .retired) (op.Rewrites .retired)
      (proxy.table .retired) ((op.apply now proxy).table .retired) := by
  cases op with
  | redeemCurrent key =>
      simp only [apply, RefreshStore.redeemCurrent]
      split
      next =>
        split
        next => exact .refl _
        next => split <;> exact .refl _
      next => exact .refl _
  | insertRetired key upstreamId =>
      exact .insertBounded (Or.inr ⟨upstreamId, rfl⟩)
  | _ => exact .refl _

theorem keeps_apply (hfresh : op.isFresh proxy = true) (map : StoreMap) :
    Keeps now (op.Removes map) (op.Rewrites map)
      (proxy.table map) ((op.apply now proxy).table map) := by
  cases map with
  | transactions => exact keeps_transactions hfresh
  | sessions => exact keeps_sessions hfresh
  | pending => exact keeps_pending hfresh
  | consumed => exact keeps_consumed
  | tokens => exact keeps_tokens hfresh
  | current => exact keeps_current hfresh
  | retired => exact keeps_retired

end StoreOp

/-! ## Insertions and their answers -/

/-- The calls that insert and answer `None` when they do not.  The deadline
of a session is computed before the lock is taken. -/
inductive Insertion
  | createTransaction (transaction : Transaction)
  | insertUpstream (set : UpstreamTokenSet) (deadline : Instant)
  | mintCode (entry : PendingCode) (set : UpstreamTokenSet)
  | mintToken (entry : TokenEntry) (ttl : Duration)
  | mintRefresh (clientId upstreamId : String)

namespace Insertion

/-- The value handed out for a draw of the system generator. -/
def issued (draw : String) : Insertion → String
  | createTransaction _ => draw
  | insertUpstream _ _ => draw
  | mintCode _ _ => codePrefix ++ draw
  | mintToken _ _ => accessTokenPrefix ++ draw
  | mintRefresh _ _ => refreshTokenPrefix ++ draw

def critical (env : Env) (draw : String) (insertion : Insertion) : StoreOp :=
  let issued := insertion.issued draw
  match insertion with
  | createTransaction transaction =>
      .createTransaction (env.digest issued) transaction
  | insertUpstream set deadline => .insertUpstream issued set deadline
  | mintCode entry set => .mintCode (env.digest issued) entry set
  | mintToken entry ttl => .mintToken (env.digest issued) entry ttl
  | mintRefresh clientId upstreamId =>
      .mintRefresh (env.digest issued) clientId upstreamId

def inserted (env : Env) (now : Instant) (proxy : ProxyState) (draw : String)
    (insertion : Insertion) : Bool :=
  let issued := insertion.issued draw
  match insertion with
  | createTransaction transaction =>
      (proxy.transactions.create now (env.digest issued) transaction).2
  | insertUpstream set deadline =>
      (UpstreamStore.insert proxy.upstreamTokens now issued set deadline).2
  | mintCode entry set =>
      (proxy.codes.mint now (env.digest issued) entry set).2
  | mintToken entry ttl =>
      (proxy.tokens.mint now (env.digest issued) entry ttl).2
  | mintRefresh clientId upstreamId =>
      (proxy.refreshTokens.mint now (env.digest issued) clientId upstreamId).2

/-- What the call returns.  Without a draw it returns before it takes the
lock. -/
def answer (env : Env) (now : Instant) (proxy : ProxyState)
    (insertion : Insertion) : Option String → Option String
  | none => none
  | some draw =>
      if insertion.inserted env now proxy draw then
        some (insertion.issued draw)
      else none

theorem not_removes
    {env : Env} {draw : String} {insertion : Insertion} {map : StoreMap}
    {key : map.Key} {value : map.Value} :
    ¬ (insertion.critical env draw).Removes map key value := by
  cases map <;> cases insertion <;> simp [critical, StoreOp.Removes]

theorem not_rewrites
    {env : Env} {draw : String} {insertion : Insertion} {map : StoreMap}
    {key : map.Key} : ¬ (insertion.critical env draw).Rewrites map key := by
  cases map <;> cases insertion <;> simp [critical, StoreOp.Rewrites]

/-- A refused insertion leaves the two maps without deadlines as they are. -/
theorem refused_upstream
    {env : Env} {now : Instant} {proxy : ProxyState} {draw : String}
    {insertion : Insertion}
    (hrefused : insertion.inserted env now proxy draw = false) :
    ((insertion.critical env draw).apply now proxy).registry =
        proxy.registry ∧
      ((insertion.critical env draw).apply now proxy).codes.upstream =
        proxy.codes.upstream := by
  cases insertion with
  | mintCode entry set =>
      refine ⟨rfl, ?_⟩
      simp only [inserted, CodeStore.mint] at hrefused
      simp only [critical, StoreOp.apply, CodeStore.mint]
      split
      next hroom => simp [hroom] at hrefused
      next => rfl
  | _ => exact ⟨rfl, rfl⟩

end Insertion

/-! ## Runs of sections -/

structure StoreState where
  now : Instant
  proxy : ProxyState

def StoreState.initial : StoreState where
  now := 0
  proxy := .new

/-- One event.  The sections of the calls that are under way may come in any
order, so `perform` is any section of any call. -/
inductive StoreLabel
  | elapse (duration : Duration)
  | insert (draw : Option String) (insertion : Insertion)
  | perform (op : StoreOp)

namespace StoreLabel

/-- The section that the event performs, if any. -/
def critical (env : Env) : StoreLabel → Option StoreOp
  | elapse _ => none
  | insert none _ => none
  | insert (some draw) insertion => some (insertion.critical env draw)
  | perform op => some op

def isFresh (env : Env) (s : StoreState) (label : StoreLabel) : Bool :=
  match label.critical env with
  | none => true
  | some op => op.isFresh s.proxy

end StoreLabel

def StoreState.next (env : Env) (s : StoreState) :
    StoreLabel → Option StoreState
  | .elapse duration => some { s with now := s.now + duration }
  | .insert none _ => some s
  | .insert (some draw) insertion =>
      some { s with
        proxy := (insertion.critical env draw).apply s.now s.proxy }
  | .perform op => some { s with proxy := op.apply s.now s.proxy }

abbrev StoreRun (env : Env) :=
  Transition.Run (StoreState.next env) StoreState.initial

/-- An event performs a section at the present instant, or changes nothing
but the time. -/
theorem StoreState.next_cases
    {env : Env} {s s' : StoreState} {label : StoreLabel}
    (hnext : s.next env label = some s') :
    (label.critical env = none ∧ s.now ≤ s'.now ∧ s'.proxy = s.proxy) ∨
      ∃ op, label.critical env = some op ∧
        s' = { s with proxy := op.apply s.now s.proxy } := by
  cases label with
  | elapse duration =>
      simp only [StoreState.next, Option.some.injEq] at hnext
      subst hnext
      exact Or.inl ⟨rfl, Nat.le_add_right _ _, rfl⟩
  | insert draw insertion =>
      cases draw with
      | none =>
          simp only [StoreState.next, Option.some.injEq] at hnext
          subst hnext
          exact Or.inl ⟨rfl, le_rfl, rfl⟩
      | some draw =>
          simp only [StoreState.next, Option.some.injEq] at hnext
          exact Or.inr ⟨insertion.critical env draw, rfl, hnext.symm⟩
  | perform op =>
      simp only [StoreState.next, Option.some.injEq] at hnext
      exact Or.inr ⟨op, rfl, hnext.symm⟩

/-- A section that removes or rewrites an entry is not an insertion. -/
theorem StoreLabel.eq_perform
    {env : Env} {label : StoreLabel} {op : StoreOp}
    (hcritical : label.critical env = some op)
    (hother : ∀ draw insertion, op ≠ Insertion.critical env draw insertion) :
    label = .perform op := by
  cases label with
  | elapse duration => simp [critical] at hcritical
  | insert draw insertion =>
      cases draw with
      | none => simp [critical] at hcritical
      | some draw =>
          simp only [critical, Option.some.injEq] at hcritical
          exact absurd hcritical.symm (hother draw insertion)
  | perform performed =>
      simp only [critical, Option.some.injEq] at hcritical
      rw [hcritical]

/-! ## Every run -/

section

variable {env : Env}

theorem event_keeps
    {s s' : StoreState} {label : StoreLabel}
    (hfresh : label.isFresh env s = true)
    (hnext : s.next env label = some s') (map : StoreMap) :
    Keeps s.now
      (fun key value => ∃ op, label = .perform op ∧ op.Removes map key value)
      (fun key => ∃ op, label = .perform op ∧ op.Rewrites map key)
      (s.proxy.table map) (s'.proxy.table map) := by
  rcases StoreState.next_cases hnext with
    ⟨_, _, hsame⟩ | ⟨op, hcritical, rfl⟩
  · rw [hsame]
    exact .refl _
  · simp only [StoreLabel.isFresh, hcritical] at hfresh
    refine (StoreOp.keeps_apply hfresh map).mono ?_ ?_
    · intro key value hremoves
      refine ⟨op, StoreLabel.eq_perform hcritical ?_, hremoves⟩
      rintro draw insertion rfl
      exact Insertion.not_removes hremoves
    · intro key hrewrites
      refine ⟨op, StoreLabel.eq_perform hcritical ?_, hrewrites⟩
      rintro draw insertion rfl
      exact Insertion.not_rewrites hrewrites

theorem now_le_of_next
    {s s' : StoreState} {label : StoreLabel}
    (hnext : s.next env label = some s') : s.now ≤ s'.now := by
  rcases StoreState.next_cases hnext with ⟨_, hle, _⟩ | ⟨_, _, rfl⟩
  · exact hle
  · exact le_rfl

variable {run : StoreRun env}

theorem tables_bounded
    (hfresh : ∀ n, (run.label n).isFresh env (run.state n) = true)
    (map : StoreMap) (n : ℕ) :
    ((run.state n).proxy.table map).len ≤ maxEntries := by
  induction n with
  | zero =>
      rw [run.start]
      cases map <;> exact Nat.zero_le _
  | succ n ih => exact (event_keeps (hfresh n) (run.step n) map).bounded ih

/-- Until its deadline an entry is found unchanged, as long as no section
names it. -/
theorem entry_until_named
    (hfresh : ∀ n, (run.label n).isFresh env (run.state n) = true)
    {map : StoreMap} {key : map.Key} {value : map.Value} {deadline : Instant}
    {m n : ℕ} (hle : m ≤ n)
    (hentry : ((run.state m).proxy.table map).lookup key =
      some (value, deadline))
    (hlive : (run.state n).now < deadline)
    (hquiet : ∀ k, m ≤ k → k < n → ∀ op, run.label k = .perform op →
      ¬ (op.Removes map key value ∨ op.Rewrites map key)) :
    ((run.state n).proxy.table map).lookup key = some (value, deadline) := by
  induction n, hle using Nat.le_induction with
  | base => exact hentry
  | succ n hmn ih =>
      have hearlier : (run.state n).now < deadline :=
        (now_le_of_next (run.step n)).trans_lt hlive
      have hbefore := ih hearlier
        fun k hmk hkn => hquiet k hmk (Nat.lt_succ_of_lt hkn)
      have hnamed := hquiet n hmn (Nat.lt_succ_self n)
      refine (event_keeps (hfresh n) (run.step n) map).same key value deadline
        hbefore hearlier ?_ ?_
      · rintro ⟨op, hlabel, hremoves⟩
        exact hnamed op hlabel (Or.inl hremoves)
      · rintro ⟨op, hlabel, hrewrites⟩
        exact hnamed op hlabel (Or.inr hrewrites)

/-- A refused call leaves the live entries of every map, the registrations
and the token sets of the codes as they are. -/
theorem refused_insertion
    {s s' : StoreState} {draw : Option String} {insertion : Insertion}
    (hfresh : (StoreLabel.insert draw insertion).isFresh env s = true)
    (hnext : s.next env (.insert draw insertion) = some s')
    (hanswer : insertion.answer env s.now s.proxy draw = none) :
    (∀ map key value deadline,
        (s.proxy.table map).lookup key = some (value, deadline) →
        s.now < deadline →
        (s'.proxy.table map).lookup key = some (value, deadline)) ∧
      s'.proxy.registry = s.proxy.registry ∧
      s'.proxy.codes.upstream = s.proxy.codes.upstream := by
  refine ⟨?_, ?_⟩
  · intro map key value deadline hlookup hlive
    refine (event_keeps hfresh hnext map).same key value deadline hlookup
      hlive ?_ ?_
    · rintro ⟨op, hlabel, _⟩
      cases hlabel
    · rintro ⟨op, hlabel, _⟩
      cases hlabel
  · cases draw with
    | none =>
        simp only [StoreState.next, Option.some.injEq] at hnext
        subst hnext
        exact ⟨rfl, rfl⟩
    | some draw =>
        simp only [StoreState.next, Option.some.injEq] at hnext
        subst hnext
        apply Insertion.refused_upstream
        simpa [Insertion.answer] using hanswer

/-- A full store refuses and never evicts. -/
theorem full_store_refuses
    (run : StoreRun env)
    (hfresh : ∀ n, (run.label n).isFresh env (run.state n) = true) :
    (∀ n map, ((run.state n).proxy.table map).len ≤ maxEntries) ∧
      (∀ n map key value deadline,
        ((run.state n).proxy.table map).lookup key = some (value, deadline) →
        (run.state n).now < deadline →
        key ∉ (run.state (n + 1)).proxy.table map →
        ∃ op, run.label n = .perform op ∧ op.Removes map key value) ∧
      (∀ m n map key value deadline, m ≤ n →
        ((run.state m).proxy.table map).lookup key = some (value, deadline) →
        (run.state n).now < deadline →
        ((run.state n).proxy.table map).lookup key ≠ some (value, deadline) →
        ∃ k op, m ≤ k ∧ k < n ∧ run.label k = .perform op ∧
          (op.Removes map key value ∨ op.Rewrites map key)) ∧
      (∀ n draw insertion, run.label n = .insert draw insertion →
        insertion.answer env (run.state n).now (run.state n).proxy draw =
          none →
        (∀ map key value deadline,
          ((run.state n).proxy.table map).lookup key =
            some (value, deadline) →
          (run.state n).now < deadline →
          ((run.state (n + 1)).proxy.table map).lookup key =
            some (value, deadline)) ∧
        (run.state (n + 1)).proxy.registry = (run.state n).proxy.registry ∧
        (run.state (n + 1)).proxy.codes.upstream =
          (run.state n).proxy.codes.upstream) := by
  refine ⟨fun n map => tables_bounded hfresh map n, ?_, ?_, ?_⟩
  · intro n map key value deadline hlookup hlive hgone
    by_contra hnone
    exact hgone ((event_keeps (hfresh n) (run.step n) map).stays key value
      deadline hlookup hlive hnone)
  · intro m n map key value deadline hle hlookup hlive hchanged
    by_contra hnone
    refine hchanged (entry_until_named hfresh hle hlookup hlive ?_)
    intro k hmk hkn op hlabel hnamed
    exact hnone ⟨k, op, hmk, hkn, hlabel, hnamed⟩
  · intro n draw insertion hlabel hanswer
    have hfresh' := hfresh n
    have hnext := run.step n
    rw [hlabel] at hfresh' hnext
    exact refused_insertion hfresh' hnext hanswer

end

namespace Sample

/-- Every event of the run stores another session. -/
def sessionInsertion : Insertion := .insertUpstream upstreamSet refreshTtl

def fillingState : ℕ → StoreState
  | 0 => .initial
  | n + 1 =>
      { fillingState n with
        proxy := (sessionInsertion.critical env (drawnId n)).apply
          (fillingState n).now (fillingState n).proxy }

def fillingRun : StoreRun env where
  state := fillingState
  label n := .insert (some (drawnId n)) sessionInsertion
  start := rfl
  step _ := rfl

theorem fillingRun_succ (n : ℕ) :
    (fillingRun.state (n + 1)).proxy.upstreamTokens =
      (insertBounded (fillingRun.state n).now
        (fillingRun.state n).proxy.upstreamTokens (drawnId n) upstreamSet
        refreshTtl).1 := rfl

theorem fillingRun_now (n : ℕ) : (fillingRun.state n).now = 0 := by
  induction n with
  | zero => rfl
  | succ n ih => exact ih

theorem fillingRun_lookup
    {n : ℕ} {id : String} {entry : UpstreamTokenSet × Instant}
    (hlookup : (fillingRun.state n).proxy.upstreamTokens.lookup id =
      some entry) :
    (∃ k < n, id = drawnId k) ∧ entry = (upstreamSet, refreshTtl) := by
  induction n with
  | zero => cases hlookup
  | succ n ih =>
      rw [fillingRun_succ] at hlookup
      rcases lookup_insertBounded hlookup with ⟨rfl, hentry, _⟩ | ⟨hold, _⟩
      · exact ⟨⟨n, Nat.lt_succ_self n, rfl⟩, hentry⟩
      · obtain ⟨⟨k, hk, hid⟩, hentry⟩ := ih hold
        exact ⟨⟨k, Nat.lt_succ_of_lt hk, hid⟩, hentry⟩

theorem fillingRun_absent (n : ℕ) :
    drawnId n ∉ (fillingRun.state n).proxy.upstreamTokens := by
  intro hmem
  obtain ⟨entry, hentry⟩ := Table.mem_iff_lookup.mp hmem
  obtain ⟨⟨k, hk, heq⟩, _⟩ := fillingRun_lookup hentry
  have := drawnId_injective heq
  omega

/-- No time passes, so the sweep drops nothing. -/
theorem fillingRun_sweep (n : ℕ) :
    (fillingRun.state n).proxy.upstreamTokens.sweep (fillingRun.state n).now =
      (fillingRun.state n).proxy.upstreamTokens := by
  apply Table.retain_eq_of_len
  refine (Table.len_retain_le _ _).antisymm (Table.len_le_of_subset ?_)
  intro id hmem
  obtain ⟨entry, hentry⟩ := Table.mem_iff_lookup.mp hmem
  obtain ⟨_, rfl⟩ := fillingRun_lookup hentry
  refine Table.mem_of_lookup (Table.lookup_sweep_iff.mpr ⟨hentry, ?_⟩)
  rw [fillingRun_now]
  decide

theorem fillingRun_len {n : ℕ} (hn : n ≤ maxEntries) :
    (fillingRun.state n).proxy.upstreamTokens.len = n := by
  induction n with
  | zero => rfl
  | succ n ih =>
      have hlen := ih (Nat.le_of_succ_le hn)
      have hroom : n < maxEntries := hn
      rw [fillingRun_succ, insertBounded, sweepAndCheckCapacity,
        fillingRun_sweep]
      simp only [hlen, hroom, decide_true, Bool.true_or, if_true]
      rw [Table.len, AList.entries_insert_of_notMem (fillingRun_absent n),
        List.length_cons]
      exact congrArg Nat.succ hlen

/-- The sessions fill their store; the next one is refused, and all of them
are still there. -/
theorem filled_store_refuses :
    (fillingRun.state maxEntries).proxy.upstreamTokens.len = maxEntries ∧
      sessionInsertion.answer env (fillingRun.state maxEntries).now
        (fillingRun.state maxEntries).proxy (some (drawnId maxEntries)) =
          none ∧
      ∀ id entry, (fillingRun.state maxEntries).proxy.upstreamTokens.lookup
          id = some entry →
        (fillingRun.state (maxEntries + 1)).proxy.upstreamTokens.lookup id =
          some entry := by
  -- behind a variable, so that nothing unfolds the whole run
  obtain ⟨n, hn⟩ : ∃ n, n = maxEntries := ⟨_, rfl⟩
  rw [← hn]
  have hlen : (fillingRun.state n).proxy.upstreamTokens.len = n :=
    fillingRun_len hn.le
  have hrefused : sessionInsertion.answer env (fillingRun.state n).now
      (fillingRun.state n).proxy (some (drawnId n)) = none := by
    have hfull : (sweepAndCheckCapacity (fillingRun.state n).now
        (fillingRun.state n).proxy.upstreamTokens (drawnId n)).2 = false := by
      simp [sweepAndCheckCapacity, fillingRun_sweep, hlen, hn.ge,
        fillingRun_absent n]
    simp [sessionInsertion, Insertion.answer, Insertion.inserted,
      Insertion.issued, UpstreamStore.insert, insertBounded, hfull]
  have hfresh : ∀ k, (fillingRun.label k).isFresh env (fillingRun.state k) =
      true := fun k => decide_eq_true (fillingRun_absent k)
  refine ⟨hlen, hrefused, ?_⟩
  rintro id ⟨set, deadline⟩ hentry
  obtain ⟨_, hset⟩ := fillingRun_lookup hentry
  cases hset
  refine ((full_store_refuses fillingRun hfresh).2.2.2 n _ sessionInsertion rfl
    hrefused).1 .sessions id _ _ hentry ?_
  rw [fillingRun_now]
  decide

end Sample

end RuprogressMcp
