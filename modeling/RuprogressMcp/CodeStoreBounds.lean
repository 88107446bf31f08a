import RuprogressMcp.CodeRedemption

/-!
# The size of the authorization-code store

`CodeStore` alone: its three operations performed one after the other, with
any arguments and with time passing before and inside each of them.  A code
leaves `pending` by a redemption, by the rejection of an expired code or by
the sweep of a mint, but only a redemption removes its token set from
`upstream`.
-/

namespace RuprogressMcp

namespace CodeStore

/-- The sections of `redeem` in one call; `consumed` is read `delay` after
`pending`. -/
def redeem (env : Env) (store : CodeStore) (now : Instant) (delay : Duration)
    (request : CodeRequest) : CodeStore × CodeOutcome :=
  let key := env.digest request.code
  match store.redeemPending now key with
  | (store, none) =>
      (store, consumedAnswer (store.redeemConsumed (now + delay) key))
  | (store, some entry) =>
      if CodeTask.bindingsMatch env entry request then
        let (store, set) := (store.removePending key).removeUpstream key
        (store, takenAnswer set)
      else (store, .mismatch)

/-- A call of the store.  A mint without a draw is a failure of the system
generator. -/
inductive Operation
  | mint (draw : Option String) (entry : PendingCode) (set : UpstreamTokenSet)
  | redeem (request : CodeRequest) (delay : Duration)
  | markConsumed (code : String) (record : ConsumedRecord)

structure State where
  now : Instant
  codes : CodeStore

def State.initial : State where
  now := 0
  codes := { pending := ∅, upstream := ∅, consumed := ∅ }

inductive Label
  | elapse (duration : Duration)
  | perform (operation : Operation)

def State.perform (env : Env) (s : State) : Operation → State
  | .mint none _ _ => s
  | .mint (some draw) entry set =>
      { s with
        codes := (s.codes.mint s.now (env.digest (codePrefix ++ draw)) entry
          set).1 }
  | .redeem request delay =>
      { now := s.now + delay
        codes := (s.codes.redeem env s.now delay request).1 }
  | .markConsumed code record =>
      { s with codes := s.codes.markConsumed s.now (env.digest code) record }

def State.next (env : Env) (s : State) : Label → Option State
  | .elapse duration => some { s with now := s.now + duration }
  | .perform operation => some (s.perform env operation)

abbrev Run (env : Env) := Transition.Run (State.next env) State.initial

/-! ## What a run keeps -/

/-- Every token set belongs to a pending code. -/
def Paired (store : CodeStore) : Prop :=
  ∀ key ∈ store.upstream, key ∈ store.pending

/-- Every pending code has its token set. -/
def Stored (store : CodeStore) : Prop :=
  ∀ key ∈ store.pending, key ∈ store.upstream

/-- The operation drops an expired code: the sweep of a mint finds one, or a
redemption presents one. -/
inductive Drops (env : Env) (s : State) : Operation → Prop
  | mint (draw : String) (entry : PendingCode) (set : UpstreamTokenSet)
      (key : Digest) (code : PendingCode) (deadline : Instant)
      (hlookup : s.codes.pending.lookup key = some (code, deadline))
      (hexpired : deadline ≤ s.now)
      (hother : key ≠ env.digest (codePrefix ++ draw) ∨
        (sweepAndCheckCapacity s.now s.codes.pending
          (env.digest (codePrefix ++ draw))).2 = false) :
      Drops env s (.mint (some draw) entry set)
  | redeem (request : CodeRequest) (delay : Duration) (code : PendingCode)
      (deadline : Instant)
      (hlookup : s.codes.pending.lookup (env.digest request.code) =
        some (code, deadline))
      (hexpired : deadline ≤ s.now) :
      Drops env s (.redeem request delay)

theorem redeem_cases
    (env : Env) (store : CodeStore) (now : Instant) (delay : Duration)
    (request : CodeRequest) :
    (store.redeem env now delay request).1 = store ∨
      (∃ code deadline, store.pending.lookup (env.digest request.code) =
          some (code, deadline) ∧ deadline ≤ now ∧
        (store.redeem env now delay request).1 =
          store.removePending (env.digest request.code)) ∨
      (store.redeem env now delay request).1 =
        ((store.removePending (env.digest request.code)).removeUpstream
          (env.digest request.code)).1 := by
  cases hlookup : store.pending.lookup (env.digest request.code) with
  | none => exact Or.inl (by simp [redeem, redeemPending, hlookup])
  | some found =>
      obtain ⟨code, deadline⟩ := found
      by_cases hexpired : deadline ≤ now
      · refine Or.inr (Or.inl ⟨code, deadline, rfl, hexpired, ?_⟩)
        simp [redeem, redeemPending, hlookup, hexpired, removePending]
      · by_cases hmatch : CodeTask.bindingsMatch env code request = true
        · exact Or.inr (Or.inr
            (by simp [redeem, redeemPending, hlookup, hexpired, hmatch]))
        · exact Or.inl
            (by simp [redeem, redeemPending, hlookup, hexpired, hmatch])

theorem mint_cases
    (store : CodeStore) (now : Instant) (key : Digest) (entry : PendingCode)
    (set : UpstreamTokenSet) :
    ((sweepAndCheckCapacity now store.pending key).2 = true ∧
        (store.mint now key entry set).1 =
          { store with
            pending := (store.pending.sweep now).insert key
              (entry, expiresAfter now codeTtl)
            upstream := store.upstream.insert key set }) ∨
      ((sweepAndCheckCapacity now store.pending key).2 = false ∧
        (store.mint now key entry set).1 =
          { store with pending := store.pending.sweep now }) := by
  cases hroom : (sweepAndCheckCapacity now store.pending key).2 with
  | true =>
      left
      simp only [sweepAndCheckCapacity] at hroom
      simp [mint, insertBounded, sweepAndCheckCapacity, hroom]
  | false =>
      right
      simp only [sweepAndCheckCapacity] at hroom
      simp [mint, insertBounded, sweepAndCheckCapacity, hroom]

theorem Stored.perform
    {env : Env} {s : State} (hstored : s.codes.Stored)
    (operation : Operation) : (s.perform env operation).codes.Stored := by
  cases operation with
  | mint draw entry set =>
      cases draw with
      | none => exact hstored
      | some draw =>
          have hswept : ∀ key ∈ s.codes.pending.sweep s.now,
              key ∈ s.codes.upstream :=
            fun key hkey => hstored key (Table.mem_of_mem_sweep hkey)
          simp only [State.perform]
          rcases mint_cases s.codes s.now (env.digest (codePrefix ++ draw))
            entry set with ⟨_, hmint⟩ | ⟨_, hmint⟩
          · rw [hmint]
            intro key hkey
            rcases (AList.mem_insert _).mp hkey with rfl | hold
            · exact (AList.mem_insert _).mpr (Or.inl rfl)
            · exact (AList.mem_insert _).mpr (Or.inr (hswept key hold))
          · rw [hmint]
            exact hswept
  | redeem request delay =>
      simp only [State.perform]
      rcases redeem_cases env s.codes s.now delay request with
        hsame | ⟨_, _, _, _, hdrop⟩ | htake
      · rwa [hsame]
      · rw [hdrop]
        intro key hkey
        exact hstored key (AList.mem_erase.mp hkey).2
      · rw [htake]
        intro key hkey
        obtain ⟨hne, hold⟩ := AList.mem_erase.mp hkey
        exact AList.mem_erase.mpr ⟨hne, hstored key hold⟩
  | markConsumed code record => exact hstored

theorem bounded_perform
    {env : Env} {s : State} (hbound : s.codes.pending.len ≤ maxEntries)
    (operation : Operation) :
    (s.perform env operation).codes.pending.len ≤ maxEntries := by
  cases operation with
  | mint draw entry set =>
      cases draw with
      | none => exact hbound
      | some draw =>
          have hle : (insertBounded s.now s.codes.pending
              (env.digest (codePrefix ++ draw)) entry
              (expiresAfter s.now codeTtl)).1.len ≤ maxEntries :=
            len_insertBounded_le hbound
          simp only [State.perform, mint]
          split <;> exact hle
  | redeem request delay =>
      simp only [State.perform]
      rcases redeem_cases env s.codes s.now delay request with
        hsame | ⟨_, _, _, _, hdrop⟩ | htake
      · rwa [hsame]
      · rw [hdrop]
        exact (Table.len_erase_le _ _).trans hbound
      · rw [htake]
        exact (Table.len_erase_le _ _).trans hbound
  | markConsumed code record => exact hbound

theorem Paired.perform
    {env : Env} {s : State} {operation : Operation}
    (hpaired : s.codes.Paired) (hkeeps : ¬ Drops env s operation) :
    (s.perform env operation).codes.Paired := by
  cases operation with
  | mint draw entry set =>
      cases draw with
      | none => exact hpaired
      | some draw =>
          have hswept (key : Digest) (hkey : key ∈ s.codes.upstream)
              (hother : key ≠ env.digest (codePrefix ++ draw) ∨
                (sweepAndCheckCapacity s.now s.codes.pending
                  (env.digest (codePrefix ++ draw))).2 = false) :
              key ∈ s.codes.pending.sweep s.now := by
            obtain ⟨⟨code, deadline⟩, hlookup⟩ :=
              Table.mem_iff_lookup.mp (hpaired key hkey)
            refine Table.mem_of_lookup
              (Table.lookup_sweep_iff.mpr ⟨hlookup, ?_⟩)
            by_contra hexpired
            exact hkeeps (.mint draw entry set key code deadline hlookup
              (not_lt.mp hexpired) hother)
          simp only [State.perform]
          rcases mint_cases s.codes s.now (env.digest (codePrefix ++ draw))
            entry set with ⟨_, hmint⟩ | ⟨hfull, hmint⟩
          · rw [hmint]
            intro key hkey
            rw [AList.mem_insert]
            by_cases heq : key = env.digest (codePrefix ++ draw)
            · exact Or.inl heq
            · rcases (AList.mem_insert _).mp hkey with hnew | hold
              · exact Or.inl hnew
              · exact Or.inr (hswept key hold (Or.inl heq))
          · rw [hmint]
            intro key hkey
            exact hswept key hkey (Or.inr hfull)
  | redeem request delay =>
      simp only [State.perform]
      rcases redeem_cases env s.codes s.now delay request with
        hsame | ⟨code, deadline, hlookup, hexpired, _⟩ | htake
      · rwa [hsame]
      · exact absurd (.redeem request delay code deadline hlookup hexpired)
          hkeeps
      · rw [htake]
        intro key hkey
        obtain ⟨hne, hold⟩ := AList.mem_erase.mp hkey
        exact AList.mem_erase.mpr ⟨hne, hpaired key hold⟩
  | markConsumed code record => exact hpaired

theorem Drops.unpairs
    {env : Env} {s : State} {operation : Operation}
    (hstored : s.codes.Stored) (hdrops : Drops env s operation) :
    ¬ (s.perform env operation).codes.Paired := by
  intro hpaired
  cases hdrops with
  | mint draw entry set key code deadline hlookup hexpired hother =>
      have hheld := hstored key (Table.mem_of_lookup hlookup)
      have hswept : key ∉ s.codes.pending.sweep s.now := by
        intro hmem
        obtain ⟨found, hfound⟩ := Table.mem_iff_lookup.mp hmem
        obtain ⟨hsame, hlive⟩ := Table.lookup_sweep_iff.mp hfound
        rw [hlookup, Option.some.injEq] at hsame
        subst hsame
        exact absurd hexpired (not_le.mpr hlive)
      simp only [State.perform] at hpaired
      rcases mint_cases s.codes s.now (env.digest (codePrefix ++ draw)) entry
        set with ⟨hroom, hmint⟩ | ⟨_, hmint⟩
      · rw [hmint] at hpaired
        rcases hother with hne | hfull
        · have hafter := hpaired key ((AList.mem_insert _).mpr (Or.inr hheld))
          rcases (AList.mem_insert _).mp hafter with heq | hmem
          · exact hne heq
          · exact hswept hmem
        · rw [hroom] at hfull
          simp at hfull
      · rw [hmint] at hpaired
        exact hswept (hpaired key hheld)
  | redeem request delay code deadline hlookup hexpired =>
      have hheld := hstored _ (Table.mem_of_lookup hlookup)
      have hdropped : (s.codes.redeem env s.now delay request).1 =
          s.codes.removePending (env.digest request.code) := by
        simp [CodeStore.redeem, CodeStore.redeemPending, hlookup, hexpired,
          CodeStore.removePending]
      simp only [State.perform, hdropped] at hpaired
      exact (AList.mem_erase.mp (hpaired _ hheld)).1 rfl

/-! ## Every run -/

variable {env : Env}

theorem run_stored (run : Run env) (n : ℕ) : (run.state n).codes.Stored := by
  refine run.invariant (fun s => s.codes.Stored) ?_ ?_ n
  · exact fun key hkey => absurd hkey (AList.notMem_empty key)
  · intro s label s' hstored hnext
    cases label with
    | elapse duration =>
        simp only [State.next, Option.some.injEq] at hnext
        subst hnext
        exact hstored
    | perform operation =>
        simp only [State.next, Option.some.injEq] at hnext
        subst hnext
        exact hstored.perform operation

theorem run_bounded (run : Run env) (n : ℕ) :
    (run.state n).codes.pending.len ≤ maxEntries := by
  refine run.invariant (fun s => s.codes.pending.len ≤ maxEntries) ?_ ?_ n
  · exact Nat.zero_le _
  · intro s label s' hbound hnext
    cases label with
    | elapse duration =>
        simp only [State.next, Option.some.injEq] at hnext
        subst hnext
        exact hbound
    | perform operation =>
        simp only [State.next, Option.some.injEq] at hnext
        subst hnext
        exact bounded_perform hbound operation

theorem run_paired
    (run : Run env)
    (hkeeps : ∀ n operation, run.label n = .perform operation →
      ¬ Drops env (run.state n) operation) (n : ℕ) :
    (run.state n).codes.Paired := by
  induction n with
  | zero =>
      rw [run.start]
      exact fun key hkey => absurd hkey (AList.notMem_empty key)
  | succ n ih =>
      have hnext := run.step n
      cases hlabel : run.label n with
      | elapse duration =>
          rw [hlabel] at hnext
          simp only [State.next, Option.some.injEq] at hnext
          rw [← hnext]
          exact ih
      | perform operation =>
          rw [hlabel] at hnext
          simp only [State.next, Option.some.injEq] at hnext
          rw [← hnext]
          exact ih.perform (hkeeps n operation hlabel)

/-- The store holds the token sets of pending codes only, and so no more than
its capacity, exactly when no operation drops an expired code. -/
theorem code_store_tight_iff (run : Run env) :
    (∀ n, (∀ key ∈ (run.state n).codes.upstream,
        key ∈ (run.state n).codes.pending) ∧
      (run.state n).codes.upstream.len ≤ maxEntries ∧
      ∀ m ≤ n, ∀ key code deadline,
        (run.state m).codes.pending.lookup key = some (code, deadline) →
        deadline ≤ (run.state n).now → key ∉ (run.state n).codes.pending →
        key ∉ (run.state n).codes.upstream) ↔
      ∀ n operation, run.label n = .perform operation →
        ¬ Drops env (run.state n) operation := by
  constructor
  · intro htight n operation hlabel hdrops
    have hnext := run.step n
    rw [hlabel] at hnext
    simp only [State.next, Option.some.injEq] at hnext
    apply hdrops.unpairs (run_stored run n)
    rw [hnext]
    exact (htight (n + 1)).1
  · intro hkeeps n
    have hpaired := run_paired run hkeeps n
    refine ⟨hpaired, ?_, ?_⟩
    · exact (Table.len_le_of_subset hpaired).trans (run_bounded run n)
    · intro m _ key code deadline _ _ hgone hheld
      exact hgone (hpaired key hheld)

end CodeStore

namespace Sample

def mintOf (flow : Flow) : CodeStore.Operation :=
  .mint (some flow.code)
    { clientId := flow.clientId, redirectUri, codeChallenge := challenge }
    (flow.answer.toSet 0 env.scopes)

def codeStoreRun (labels : List CodeStore.Label) : CodeStore.Run env :=
  .ofLabels (CodeStore.State.next env) CodeStore.State.initial labels
    (.elapse 0) (fun _ => rfl) (by
      generalize CodeStore.State.initial = s
      induction labels generalizing s with
      | nil => rfl
      | cons label labels ih => cases label <;> exact ih _)

/-- The second mint sweeps the first code, and its token set stays. -/
theorem expired_code_keeps_its_set :
    ¬ ∀ (run : CodeStore.Run env) (n : ℕ),
      ∀ key ∈ (run.state n).codes.upstream,
        key ∈ (run.state n).codes.pending := by
  intro hclaim
  have hleft :
      env.digest (codePrefix ++ first.code) ∈
        ((codeStoreRun [.perform (mintOf first), .elapse codeTtl,
          .perform (mintOf second)]).state 3).codes.upstream ∧
      env.digest (codePrefix ++ first.code) ∉
        ((codeStoreRun [.perform (mintOf first), .elapse codeTtl,
          .perform (mintOf second)]).state 3).codes.pending := by
    decide +kernel
  exact hleft.2 (hclaim _ 3 _ hleft.1)

end Sample

end RuprogressMcp
