import RuprogressMcp.FiniteTable

/-!
# The `oauth-proxy` stores

The stores of `oauth/proxy/store.rs`.  Each store is one or more bounded maps,
each map behind its own lock, and a method that takes several locks is given
here as its critical sections, one definition for each acquisition.  A section
that changes the store and answers returns the new store first.

Instants are nanoseconds of the monotonic clock.  Keys are the SHA-256 digests
of the values that clients present.
-/

namespace RuprogressMcp

abbrev Instant := ℕ

abbrev Duration := ℕ

abbrev Digest := BitVec 256

def seconds (n : ℕ) : Duration := n * 1000000000

/-- The last instant that the platform clock can represent. -/
def instantMax : Instant := seconds (2 ^ 63) - 1

/-- `Instant::now().checked_add(ttl)`, falling back to the present instant on
overflow. -/
@[irreducible]
def expiresAfter (now : Instant) (ttl : Duration) : Instant :=
  if now + ttl ≤ instantMax then now + ttl else now

def maxClients : ℕ := 1000

def clientIdleTtl : Duration := seconds (60 * 60)

def maxEntries : ℕ := 10000

def transactionTtl : Duration := seconds (10 * 60)

def codeTtl : Duration := seconds 60

def refreshTtl : Duration := seconds (720 * 60 * 60)

def retiredRefreshTtl : Duration := seconds (24 * 60 * 60)

/-- Sweep the expired entries, then report whether `key` may be inserted. -/
def sweepAndCheckCapacity {K V : Type} [DecidableEq K]
    (now : Instant) (map : Table K (V × Instant)) (key : K) :
    Table K (V × Instant) × Bool :=
  let swept := map.sweep now
  (swept, decide (swept.len < maxEntries) || decide (key ∈ swept))

/-- The insertion shared by the bounded maps: sweep, check the capacity, and
insert only when there is room. -/
def insertBounded {K V : Type} [DecidableEq K]
    (now : Instant) (map : Table K (V × Instant)) (key : K)
    (value : V) (deadline : Instant) : Table K (V × Instant) × Bool :=
  let (swept, hasRoom) := sweepAndCheckCapacity now map key
  if hasRoom then (swept.insert key (value, deadline), true)
  else (swept, false)

theorem lookup_insertBounded
    {K V : Type} [DecidableEq K] {now deadline : Instant}
    {map : Table K (V × Instant)} {key other : K} {value : V}
    {entry : V × Instant}
    (hentry : (insertBounded now map key value deadline).1.lookup other =
      some entry) :
    (other = key ∧ entry = (value, deadline) ∧
        (insertBounded now map key value deadline).2 = true) ∨
      (map.lookup other = some entry ∧ now < entry.2) := by
  unfold insertBounded sweepAndCheckCapacity at hentry ⊢
  dsimp only at hentry ⊢
  split at hentry
  · next hroom =>
      rw [Table.lookup_insert_iff] at hentry
      rcases hentry with ⟨hkey, hvalue⟩ | ⟨_, hold⟩
      · left
        exact ⟨hkey, hvalue, by simp [hroom]⟩
      · exact Or.inr (Table.lookup_sweep_iff.mp hold)
  · exact Or.inr (Table.lookup_sweep_iff.mp hentry)

theorem lookup_insertBounded_self
    {K V : Type} [DecidableEq K] {now deadline : Instant}
    {map : Table K (V × Instant)} {key : K} {value : V}
    (hroom : (sweepAndCheckCapacity now map key).2 = true) :
    (insertBounded now map key value deadline).1.lookup key =
      some (value, deadline) := by
  simp only [sweepAndCheckCapacity] at hroom
  simp [insertBounded, sweepAndCheckCapacity, hroom, AList.lookup_insert]

theorem lookup_insertBounded_of_ne
    {K V : Type} [DecidableEq K] {now deadline : Instant}
    {map : Table K (V × Instant)} {key other : K} {value : V}
    {entry : V × Instant} (hne : other ≠ key)
    (hentry : map.lookup other = some entry) (hlive : now < entry.2) :
    (insertBounded now map key value deadline).1.lookup other =
      some entry := by
  have hswept : (map.sweep now).lookup other = some entry :=
    Table.lookup_sweep_iff.mpr ⟨hentry, hlive⟩
  unfold insertBounded sweepAndCheckCapacity
  dsimp only
  split
  · rw [AList.lookup_insert_ne hne]
    exact hswept
  · exact hswept

theorem len_insertBounded_le
    {K V : Type} [DecidableEq K] {now deadline : Instant}
    {map : Table K (V × Instant)} {key : K} {value : V}
    (hbound : map.len ≤ maxEntries) :
    (insertBounded now map key value deadline).1.len ≤ maxEntries := by
  have hswept : (map.sweep now).len ≤ maxEntries :=
    (Table.len_retain_le _ map).trans hbound
  unfold insertBounded sweepAndCheckCapacity
  dsimp only
  split
  next hroom =>
    simp only [Bool.or_eq_true, decide_eq_true_eq] at hroom
    rcases hroom with hlt | hmem
    · exact (Table.len_insert_le _ _ _).trans hlt
    · exact (Table.len_insert_of_mem hmem _).trans hswept
  next => exact hswept

/-! ## Client registrations -/

structure ClientRegistration where
  clientId : String
  redirectUris : List String
  clientName : Option String
deriving DecidableEq

structure ClientEntry where
  registration : ClientRegistration
  lastSeen : Instant
deriving DecidableEq

abbrev ClientRegistry := Table String ClientEntry

namespace ClientRegistry

/-- Register a client under the drawn identifier, absent when the generator
failed.  The sweep of idle registrations runs only at capacity and spares the
clients in `live`. -/
def register (registry : ClientRegistry) (now : Instant)
    (redirectUris : List String) (clientName : Option String)
    (live : List String) (drawn : Option String) :
    ClientRegistry × Option ClientRegistration :=
  let swept :=
    if maxClients ≤ registry.len then
      registry.retain fun id entry =>
        decide (id ∈ live) || decide (now - entry.lastSeen < clientIdleTtl)
    else registry
  if maxClients ≤ swept.len then (swept, none)
  else
    match drawn with
    | none => (swept, none)
    | some clientId =>
        let registration : ClientRegistration :=
          { clientId, redirectUris, clientName }
        (swept.insert clientId { registration, lastSeen := now },
          some registration)

def get (registry : ClientRegistry) (clientId : String) :
    Option ClientRegistration :=
  (registry.lookup clientId).map ClientEntry.registration

def touch (registry : ClientRegistry) (now : Instant) (clientId : String) :
    ClientRegistry :=
  registry.modify clientId fun entry => { entry with lastSeen := now }

end ClientRegistry

/-! ## Authorization transactions -/

structure Transaction where
  clientId : String
  redirectUri : String
  codeChallenge : String
  scopes : List String
  clientState : Option String
  upstreamCodeVerifier : String
deriving DecidableEq

abbrev TransactionStore := Table Digest (Transaction × Instant)

namespace TransactionStore

def create (store : TransactionStore) (now : Instant) (key : Digest)
    (transaction : Transaction) : TransactionStore × Bool :=
  insertBounded now store key transaction (expiresAfter now transactionTtl)

def take (store : TransactionStore) (now : Instant) (key : Digest) :
    TransactionStore × Option Transaction :=
  (store.erase key,
    match store.lookup key with
    | some (transaction, expiresAt) =>
        if now < expiresAt then some transaction else none
    | none => none)

end TransactionStore

/-! ## Upstream sessions -/

structure UpstreamTokenSet where
  access : String
  refresh : Option String
  grantedScopes : List String
  expiresAt : Instant
deriving DecidableEq

abbrev UpstreamStore := Table String (UpstreamTokenSet × Instant)

namespace UpstreamStore

def sessionDeadline (now : Instant) (set : UpstreamTokenSet) : Instant :=
  if set.refresh.isSome then expiresAfter now refreshTtl else set.expiresAt

def insert (store : UpstreamStore) (now : Instant) (id : String)
    (set : UpstreamTokenSet) (deadline : Instant) : UpstreamStore × Bool :=
  insertBounded now store id set deadline

/-- The stored set of a session that has not passed its deadline. -/
def live (store : UpstreamStore) (now : Instant) (id : String) :
    Option UpstreamTokenSet :=
  match store.lookup id with
  | some (set, deadline) => if now < deadline then some set else none
  | none => none

def accessToken (store : UpstreamStore) (now : Instant) (id : String) :
    Option String :=
  (store.live now id).map UpstreamTokenSet.access

def refreshToken (store : UpstreamStore) (now : Instant) (id : String) :
    Option String :=
  (store.live now id).bind UpstreamTokenSet.refresh

def grantedScopes (store : UpstreamStore) (now : Instant) (id : String) :
    Option (List String) :=
  (store.live now id).map UpstreamTokenSet.grantedScopes

def take (store : UpstreamStore) (id : String) :
    UpstreamStore × Option UpstreamTokenSet :=
  (store.erase id, (store.lookup id).map Prod.fst)

/-- Replace the set of a session that is present and not past its deadline;
otherwise the new set is handed back. -/
def replace (store : UpstreamStore) (now : Instant) (id : String)
    (set : UpstreamTokenSet) : UpstreamStore × Except UpstreamTokenSet Unit :=
  match store.live now id with
  | some _ => (AList.insert id (set, sessionDeadline now set) store, .ok ())
  | none => (store, .error set)

def sweepExpired (store : UpstreamStore) (now : Instant) :
    UpstreamStore × List (String × UpstreamTokenSet) :=
  (store.sweep now,
    (store.entries.filter fun entry => decide (entry.2.2 ≤ now)).map
      fun entry => (entry.1, entry.2.1))

end UpstreamStore

/-! ## Authorization codes -/

structure PendingCode where
  clientId : String
  redirectUri : String
  codeChallenge : String
deriving DecidableEq

structure ConsumedRecord where
  mintedTokenDigest : Digest
  mintedRefreshDigest : Option Digest
  upstreamId : String
deriving DecidableEq

structure CodeStore where
  pending : Table Digest (PendingCode × Instant)
  upstream : Table Digest UpstreamTokenSet
  consumed : Table Digest (ConsumedRecord × Instant)

namespace CodeStore

/-- The whole of `mint` runs under the lock of `pending`; the nested lock of
`upstream` inserts under a key that no other request can name yet. -/
def mint (store : CodeStore) (now : Instant) (key : Digest)
    (entry : PendingCode) (set : UpstreamTokenSet) : CodeStore × Bool :=
  let (pending, hasRoom) :=
    insertBounded now store.pending key entry (expiresAfter now codeTtl)
  if hasRoom then
    ({ store with pending, upstream := store.upstream.insert key set }, true)
  else ({ store with pending }, false)

/-- First section of `redeem`: read the pending code, removing it when it has
expired. -/
def redeemPending (store : CodeStore) (now : Instant) (key : Digest) :
    CodeStore × Option PendingCode :=
  match store.pending.lookup key with
  | some (entry, expiresAt) =>
      if expiresAt ≤ now then
        ({ store with pending := store.pending.erase key }, none)
      else (store, some entry)
  | none => (store, none)

/-- Second section of a `redeem` that found no pending code: the record of
an earlier redemption, if it has not expired. -/
def redeemConsumed (store : CodeStore) (now : Instant) (key : Digest) :
    Option ConsumedRecord :=
  match store.consumed.lookup key with
  | some (record, expiresAt) => if now < expiresAt then some record else none
  | none => none

def removePending (store : CodeStore) (key : Digest) : CodeStore :=
  { store with pending := store.pending.erase key }

def removeUpstream (store : CodeStore) (key : Digest) :
    CodeStore × Option UpstreamTokenSet :=
  ({ store with upstream := store.upstream.erase key },
    store.upstream.lookup key)

def markConsumed (store : CodeStore) (now : Instant) (key : Digest)
    (record : ConsumedRecord) : CodeStore :=
  { store with
    consumed :=
      (insertBounded now store.consumed key record
        (expiresAfter now codeTtl)).1 }

end CodeStore

/-! ## Proxy access tokens -/

structure TokenEntry where
  upstreamId : String
  clientId : String
deriving DecidableEq

abbrev TokenStore := Table Digest (TokenEntry × Instant)

namespace TokenStore

def mint (store : TokenStore) (now : Instant) (key : Digest)
    (entry : TokenEntry) (ttl : Duration) : TokenStore × Bool :=
  insertBounded now store key entry (expiresAfter now ttl)

def resolve (store : TokenStore) (now : Instant) (key : Digest) :
    TokenStore × Option TokenEntry :=
  match store.lookup key with
  | some (entry, expiresAt) =>
      if expiresAt ≤ now then (store.erase key, none) else (store, some entry)
  | none => (store, none)

def take (store : TokenStore) (key : Digest) :
    TokenStore × Option TokenEntry :=
  (store.erase key, (store.lookup key).map Prod.fst)

def removeByUpstream (store : TokenStore) (upstreamId : String) :
    TokenStore :=
  store.retain fun _ entry => decide (entry.1.upstreamId ≠ upstreamId)

def liveClientIds (store : TokenStore) (now : Instant) : List String :=
  (store.entries.filter fun entry => decide (now < entry.2.2)).map
    fun entry => entry.2.1.clientId

end TokenStore

/-! ## Proxy refresh tokens -/

inductive RefreshState
  | active
  | inFlight
deriving DecidableEq

structure RefreshOwner where
  clientId : String
  upstreamId : String
  state : RefreshState
deriving DecidableEq

structure RefreshStore where
  current : Table Digest (RefreshOwner × Instant)
  retired : Table Digest (String × Instant)

/-- What the first section of `RefreshStore::redeem` decides. -/
inductive CurrentOutcome
  | absent
  | reused (upstreamId : String)
  | ok (clientId upstreamId : String)
deriving DecidableEq

namespace RefreshStore

def mint (store : RefreshStore) (now : Instant) (key : Digest)
    (clientId upstreamId : String) : RefreshStore × Bool :=
  let (current, hasRoom) :=
    insertBounded now store.current key
      { clientId, upstreamId, state := .active } (expiresAfter now refreshTtl)
  ({ store with current }, hasRoom)

/-- First section of `redeem`: an expired entry is removed, an entry in
flight is a reuse, and an active entry becomes in flight. -/
def redeemCurrent (store : RefreshStore) (now : Instant) (key : Digest) :
    RefreshStore × CurrentOutcome :=
  match store.current.lookup key with
  | some (owner, expiresAt) =>
      if expiresAt ≤ now then
        ({ store with current := store.current.erase key }, .absent)
      else
        match owner.state with
        | .inFlight => (store, .reused owner.upstreamId)
        | .active =>
            ({ store with
                current := store.current.insert key
                  ({ owner with state := .inFlight }, expiresAt) },
              .ok owner.clientId owner.upstreamId)
  | none => (store, .absent)

/-- Second section of a `redeem` that found no current entry: the session of
a retired token, if it is still remembered. -/
def redeemRetired (store : RefreshStore) (now : Instant) (key : Digest) :
    Option String :=
  match store.retired.lookup key with
  | some (upstreamId, expiresAt) =>
      if now < expiresAt then some upstreamId else none
  | none => none

/-- Removal from `current`: the first section of `retire`, and the whole of
`discard` and `delete_by_digest`. -/
def removeCurrent (store : RefreshStore) (key : Digest) : RefreshStore :=
  { store with current := store.current.erase key }

def insertRetired (store : RefreshStore) (now : Instant) (key : Digest)
    (upstreamId : String) : RefreshStore :=
  { store with
    retired :=
      (insertBounded now store.retired key upstreamId
        (expiresAfter now retiredRefreshTtl)).1 }

def take (store : RefreshStore) (key : Digest) :
    RefreshStore × Option (String × String) :=
  (store.removeCurrent key,
    (store.current.lookup key).map fun entry =>
      (entry.1.clientId, entry.1.upstreamId))

def removeByUpstream (store : RefreshStore) (upstreamId : String) :
    RefreshStore :=
  { store with
    current := store.current.retain fun _ entry =>
      decide (entry.1.upstreamId ≠ upstreamId) }

def dropGuard (store : RefreshStore) (key : Digest) : RefreshStore :=
  { store with
    current := store.current.modify key fun entry =>
      if entry.1.state = .inFlight then
        ({ entry.1 with state := .active }, entry.2)
      else entry }

def liveClientIds (store : RefreshStore) (now : Instant) : List String :=
  (store.current.entries.filter fun entry => decide (now < entry.2.2)).map
    fun entry => entry.2.1.clientId

end RefreshStore

/-! ## The bundle and its critical sections -/

structure ProxyState where
  registry : ClientRegistry
  transactions : TransactionStore
  codes : CodeStore
  tokens : TokenStore
  upstreamTokens : UpstreamStore
  refreshTokens : RefreshStore

def ProxyState.new : ProxyState where
  registry := ∅
  transactions := ∅
  codes := { pending := ∅, upstream := ∅, consumed := ∅ }
  tokens := ∅
  upstreamTokens := ∅
  refreshTokens := { current := ∅, retired := ∅ }

/-- One lock-guarded operation on one of the maps.  `observe` stands for the
sections that only read. -/
inductive StoreOp
  | observe
  | registerClient (redirectUris : List String) (clientName : Option String)
      (live : List String) (drawn : Option String)
  | touchClient (clientId : String)
  | createTransaction (key : Digest) (transaction : Transaction)
  | takeTransaction (key : Digest)
  | mintCode (key : Digest) (entry : PendingCode) (set : UpstreamTokenSet)
  | redeemPending (key : Digest)
  | removePending (key : Digest)
  | removeCodeUpstream (key : Digest)
  | markConsumed (key : Digest) (record : ConsumedRecord)
  | mintToken (key : Digest) (entry : TokenEntry) (ttl : Duration)
  | resolveToken (key : Digest)
  | removeToken (key : Digest)
  | removeTokensByUpstream (upstreamId : String)
  | insertUpstream (id : String) (set : UpstreamTokenSet) (deadline : Instant)
  | takeUpstream (id : String)
  | replaceUpstream (id : String) (set : UpstreamTokenSet)
  | sweepUpstream
  | mintRefresh (key : Digest) (clientId upstreamId : String)
  | redeemCurrent (key : Digest)
  | removeCurrent (key : Digest)
  | insertRetired (key : Digest) (upstreamId : String)
  | removeRefreshByUpstream (upstreamId : String)
  | dropGuard (key : Digest)

namespace StoreOp

/-- The effect of a critical section at an instant. -/
def apply (now : Instant) (proxy : ProxyState) : StoreOp → ProxyState
  | observe => proxy
  | registerClient redirectUris clientName live drawn =>
      { proxy with
        registry := (proxy.registry.register now redirectUris clientName
          live drawn).1 }
  | touchClient clientId =>
      { proxy with registry := proxy.registry.touch now clientId }
  | createTransaction key transaction =>
      { proxy with
        transactions := (proxy.transactions.create now key transaction).1 }
  | takeTransaction key =>
      { proxy with transactions := (proxy.transactions.take now key).1 }
  | mintCode key entry set =>
      { proxy with codes := (proxy.codes.mint now key entry set).1 }
  | redeemPending key =>
      { proxy with codes := (proxy.codes.redeemPending now key).1 }
  | removePending key =>
      { proxy with codes := proxy.codes.removePending key }
  | removeCodeUpstream key =>
      { proxy with codes := (proxy.codes.removeUpstream key).1 }
  | markConsumed key record =>
      { proxy with codes := proxy.codes.markConsumed now key record }
  | mintToken key entry ttl =>
      { proxy with tokens := (proxy.tokens.mint now key entry ttl).1 }
  | resolveToken key =>
      { proxy with tokens := (proxy.tokens.resolve now key).1 }
  | removeToken key =>
      { proxy with tokens := (proxy.tokens.take key).1 }
  | removeTokensByUpstream upstreamId =>
      { proxy with tokens := proxy.tokens.removeByUpstream upstreamId }
  | insertUpstream id set deadline =>
      { proxy with
        upstreamTokens :=
          (UpstreamStore.insert proxy.upstreamTokens now id set deadline).1 }
  | takeUpstream id =>
      { proxy with upstreamTokens := (proxy.upstreamTokens.take id).1 }
  | replaceUpstream id set =>
      { proxy with
        upstreamTokens :=
          (UpstreamStore.replace proxy.upstreamTokens now id set).1 }
  | sweepUpstream =>
      { proxy with
        upstreamTokens := (proxy.upstreamTokens.sweepExpired now).1 }
  | mintRefresh key clientId upstreamId =>
      { proxy with
        refreshTokens :=
          (proxy.refreshTokens.mint now key clientId upstreamId).1 }
  | redeemCurrent key =>
      { proxy with
        refreshTokens := (proxy.refreshTokens.redeemCurrent now key).1 }
  | removeCurrent key =>
      { proxy with refreshTokens := proxy.refreshTokens.removeCurrent key }
  | insertRetired key upstreamId =>
      { proxy with
        refreshTokens :=
          proxy.refreshTokens.insertRetired now key upstreamId }
  | removeRefreshByUpstream upstreamId =>
      { proxy with
        refreshTokens := proxy.refreshTokens.removeByUpstream upstreamId }
  | dropGuard key =>
      { proxy with refreshTokens := proxy.refreshTokens.dropGuard key }

/-- The digest that an operation mints under. -/
def mintedDigest : StoreOp → Option Digest
  | createTransaction key _ => some key
  | mintCode key _ _ => some key
  | mintToken key _ _ => some key
  | mintRefresh key _ _ => some key
  | _ => none

/-- The internal identifier that an operation draws. -/
def mintedId : StoreOp → Option String
  | registerClient _ _ _ drawn => drawn
  | insertUpstream id _ _ => some id
  | _ => none

end StoreOp

end RuprogressMcp
