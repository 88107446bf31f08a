import RuprogressMcp.RateRetries
import Mathlib.Algebra.Order.Floor.Div

/-!
# How many buckets the limiter keeps

A shard that is full when a new key comes loses its pristine buckets, or its
oldest bucket when it has no pristine one, before the new bucket goes in.  So
a shard never holds more than its share of `max_keys`, and at least one.
-/

namespace RateLimit

variable {K : Type} [DecidableEq K]

namespace Limiter

/-- The limiter after a list of requests. -/
def reached (hasher : K → UInt64) (order : VisitOrder K)
    (rps burst maxKeys : ℕ) (requests : List (K × ℕ)) : Limiter K :=
  Mealy.final answer (new hasher order rps burst maxKeys) requests

/-- The bucket that one of the shards holds for a key. -/
def bucketAt (limiter : Limiter K) (i : ℕ) (key : K) : Option Bucket :=
  limiter.shards[i]?.bind fun buckets => buckets.lookup key

def len (limiter : Limiter K) : ℕ :=
  (limiter.shards.map Table.len).sum

/-! ## The number of shards -/

theorem shardCount_le (maxKeys : ℕ) : shardCount maxKeys ≤ maxShards := by
  unfold shardCount
  have hpositive : 1 ≤ max 1 (min maxShards (maxKeys / minKeysPerShard)) :=
    le_max_left _ _
  have hbounded : max 1 (min maxShards (maxKeys / minKeysPerShard)) ≤
      maxShards := max_le (by decide) (min_le_left _ _)
  generalize max 1 (min maxShards (maxKeys / minKeysPerShard)) = count at *
  unfold maxShards at *
  interval_cases count <;> decide +kernel

theorem shardCount_eq_one_of_zero : shardCount 0 = 1 := by
  decide +kernel

/-! ## One shard -/

section Shard

variable {limiter : Limiter K} {buckets : Table K Bucket} {now : ℕ}

theorem evictOldest_cases (order : VisitOrder K) (buckets : Table K Bucket) :
    (buckets.len = 0 ∧ evictOldest order buckets = buckets) ∨
      ∃ key bucket, buckets.lookup key = some bucket ∧
        evictOldest order buckets = buckets.erase key ∧
        ∀ other found, buckets.lookup other = some found →
          bucket.updatedAt ≤ found.updatedAt := by
  have hperm := order.visit_perm buckets
  unfold evictOldest
  split
  next oldest holdest =>
    right
    have hmem : oldest ∈ buckets.entries :=
      hperm.subset (List.argmin_mem holdest)
    refine ⟨oldest.1, oldest.2,
      Table.lookup_eq_some_iff_mem_entries.mpr hmem, rfl, ?_⟩
    intro other found hfound
    have hvisited : ⟨other, found⟩ ∈ order.visit buckets :=
      hperm.symm.subset (Table.lookup_eq_some_iff_mem_entries.mp hfound)
    have hle := List.le_of_mem_argmin hvisited holdest
    exact hle
  next hnone =>
    left
    have hempty : order.visit buckets = [] := List.argmin_eq_none.mp hnone
    refine ⟨?_, rfl⟩
    rw [Table.len, ← hperm.length_eq, hempty, List.length_nil]

/-- The three ways in which a shard gets ready for a new key. -/
theorem makeRoom_cases
    (limiter : Limiter K) (now : ℕ) (buckets : Table K Bucket) :
    (buckets.len < limiter.perShardMaxKeys ∧
        limiter.makeRoom now buckets = buckets) ∨
      ((limiter.sweepPristine now buckets).len < buckets.len ∧
        limiter.makeRoom now buckets = limiter.sweepPristine now buckets) ∨
      (limiter.perShardMaxKeys ≤ buckets.len ∧
        limiter.sweepPristine now buckets = buckets ∧
        limiter.makeRoom now buckets = evictOldest limiter.order buckets) := by
  have hswept : (limiter.sweepPristine now buckets).len ≤ buckets.len :=
    Table.len_retain_le _ _
  unfold makeRoom
  split
  next hfull =>
    simp only
    split
    next hlen =>
      have hsame := Table.retain_eq_of_len hlen
      exact Or.inr (Or.inr ⟨hfull, hsame, congrArg _ hsame⟩)
    next hlen =>
      exact Or.inr (Or.inl ⟨lt_of_le_of_ne hswept hlen, rfl⟩)
  next hroom => exact Or.inl ⟨not_le.mp hroom, rfl⟩

theorem len_makeRoom_lt
    (hlen : buckets.len ≤ max 1 limiter.perShardMaxKeys) :
    (limiter.makeRoom now buckets).len < max 1 limiter.perShardMaxKeys := by
  rcases limiter.makeRoom_cases now buckets with
    ⟨hroom, heq⟩ | ⟨hswept, heq⟩ | ⟨hfull, -, heq⟩
  · rw [heq]
    exact lt_max_of_lt_right hroom
  · rw [heq]
    exact lt_of_lt_of_le hswept hlen
  · rw [heq]
    rcases evictOldest_cases limiter.order buckets with
      ⟨hempty, hnone⟩ | ⟨key, bucket, hlookup, hone, -⟩
    · rw [hnone, hempty]
      exact lt_max_of_lt_left Nat.zero_lt_one
    · rw [hone]
      have herased := Table.len_erase_of_mem (Table.mem_of_lookup hlookup)
      omega

/-- A bucket with tokens missing that makes room is the oldest one of a full
shard without pristine buckets, and makes room alone. -/
theorem lost_in_makeRoom
    {other : K} {bucket : Bucket} (hlookup : buckets.lookup other = some bucket)
    (hdirty : bucket.isPristine now limiter.refillPerSec limiter.capacity =
      false)
    (hlost : (limiter.makeRoom now buckets).lookup other = none) :
    limiter.perShardMaxKeys ≤ buckets.len ∧
      (∀ third found, buckets.lookup third = some found →
        found.isPristine now limiter.refillPerSec limiter.capacity = false ∧
          bucket.updatedAt ≤ found.updatedAt) ∧
      ∀ third, third ≠ other →
        (limiter.makeRoom now buckets).lookup third = buckets.lookup third := by
  rcases limiter.makeRoom_cases now buckets with
    ⟨-, heq⟩ | ⟨-, heq⟩ | ⟨hfull, hunswept, heq⟩
  · rw [heq, hlookup] at hlost
    cases hlost
  · have hkept : (limiter.sweepPristine now buckets).lookup other =
        some bucket :=
      Table.lookup_retain_eq_some.mpr ⟨hlookup, by rw [hdirty]; rfl⟩
    rw [heq, hkept] at hlost
    cases hlost
  · rcases evictOldest_cases limiter.order buckets with
      ⟨-, hnone⟩ | ⟨oldest, evicted, hevicted, hone, holdest⟩
    · rw [heq, hnone, hlookup] at hlost
      cases hlost
    · rw [heq, hone] at hlost ⊢
      have hsame : other = oldest := by
        by_contra hne
        rw [AList.lookup_erase_ne hne, hlookup] at hlost
        cases hlost
      subst oldest
      cases hlookup.symm.trans hevicted
      refine ⟨hfull, ?_, fun third hne => AList.lookup_erase_ne hne⟩
      intro third found hfound
      refine ⟨?_, holdest third found hfound⟩
      rw [← hunswept] at hfound
      simpa using (Table.lookup_retain_eq_some.mp hfound).2

end Shard

/-! ## The limiter -/

section Check

variable {limiter : Limiter K} {key other : K} {i now : ℕ}

theorem shards_check (limiter : Limiter K) (key : K) (now : ℕ) :
    (limiter.check key now).2.shards = limiter.shards.set (limiter.index key)
      ((limiter.readied key now).insert key
        ((limiter.current key now).take now
          limiter.refillPerSec limiter.capacity).2) := by
  rw [check_eq]
  rfl

omit [DecidableEq K] in
theorem getElem?_index (limiter : Limiter K) (key : K) :
    limiter.shards[limiter.index key]? = some (limiter.shard key) :=
  List.getElem?_eq_getElem (limiter.index_lt key)

theorem bucketAt_index (limiter : Limiter K) (key other : K) :
    limiter.bucketAt (limiter.index key) other =
      (limiter.shard key).lookup other := by
  rw [bucketAt, getElem?_index, Option.bind_some]

theorem bucketAt_check_ne (hshard : i ≠ limiter.index key) :
    (limiter.check key now).2.bucketAt i other =
      limiter.bucketAt i other := by
  rw [bucketAt, shards_check, List.getElem?_set_ne (Ne.symm hshard), bucketAt]

theorem bucketAt_check_index (hother : other ≠ key) :
    (limiter.check key now).2.bucketAt (limiter.index key) other =
      (limiter.readied key now).lookup other := by
  rw [bucketAt, shards_check, List.getElem?_set_self (limiter.index_lt key),
    Option.bind_some, AList.lookup_insert_ne hother]

theorem bucketAt_check_self :
    ((limiter.check key now).2.bucketAt (limiter.index key) key).isSome
      = true := by
  rw [bucketAt, shards_check, List.getElem?_set_self (limiter.index_lt key),
    Option.bind_some, AList.lookup_insert]
  rfl

theorem check_keeps_buckets (hfound : (limiter.find key).isSome = true)
    (hheld : (limiter.bucketAt i other).isSome = true) :
    ((limiter.check key now).2.bucketAt i other).isSome = true := by
  by_cases hshard : i = limiter.index key
  · subst hshard
    by_cases hother : other = key
    · subst other
      exact bucketAt_check_self
    · rw [bucketAt_check_index hother, readied, if_pos hfound,
        ← bucketAt_index]
      exact hheld
  · rw [bucketAt_check_ne hshard]
    exact hheld

/-- What a request of a new key takes away, when it takes away more than a
pristine bucket. -/
theorem check_new_loses
    {bucket : Bucket} (hnew : limiter.find key = none)
    (hheld : limiter.bucketAt i other = some bucket)
    (hdirty : bucket.isPristine now limiter.refillPerSec limiter.capacity =
      false)
    (hlost : (limiter.check key now).2.bucketAt i other = none) :
    i = limiter.index key ∧
      limiter.perShardMaxKeys ≤ (limiter.shard key).len ∧
      (∀ third found, limiter.bucketAt i third = some found →
        found.isPristine now limiter.refillPerSec limiter.capacity = false ∧
          bucket.updatedAt ≤ found.updatedAt) ∧
      ∀ j third, (j ≠ i ∨ third ≠ other) →
        (limiter.bucketAt j third).isSome = true →
        ((limiter.check key now).2.bucketAt j third).isSome = true := by
  have hreadied : limiter.readied key now =
      limiter.makeRoom now (limiter.shard key) := by
    rw [readied, hnew]
    rfl
  have hshard : i = limiter.index key := by
    by_contra hne
    rw [bucketAt_check_ne hne, hheld] at hlost
    cases hlost
  subst hshard
  have hother : other ≠ key := by
    rintro rfl
    rw [bucketAt_index, ← find, hnew] at hheld
    cases hheld
  rw [bucketAt_index] at hheld
  rw [bucketAt_check_index hother, hreadied] at hlost
  obtain ⟨hfull, holdest, hrest⟩ := lost_in_makeRoom hheld hdirty hlost
  refine ⟨rfl, hfull, ?_, ?_⟩
  · intro third found hfound
    rw [bucketAt_index] at hfound
    exact holdest third found hfound
  · intro j third hthird hsome
    by_cases hj : j = limiter.index key
    · subst hj
      by_cases hkey : third = key
      · subst third
        exact bucketAt_check_self
      · have hne : third ≠ other := hthird.resolve_left (fun h => h rfl)
        rw [bucketAt_check_index hkey, hreadied, hrest third hne,
          ← bucketAt_index]
        exact hsome
    · rw [bucketAt_check_ne hj]
      exact hsome

end Check

/-! ## Every run -/

/-- The limiter has its number of shards and none has more than its share. -/
structure WithinShare (maxKeys : ℕ) (limiter : Limiter K) : Prop where
  count : limiter.shards.length = shardCount maxKeys
  share : limiter.perShardMaxKeys = maxKeys ⌈/⌉ shardCount maxKeys
  len_le : ∀ buckets ∈ limiter.shards,
    buckets.len ≤ max 1 limiter.perShardMaxKeys

namespace WithinShare

variable {maxKeys : ℕ} {limiter : Limiter K}

omit [DecidableEq K] in
theorem len_shard_le (hwithin : WithinShare maxKeys limiter) (key : K) :
    (limiter.shard key).len ≤ max 1 limiter.perShardMaxKeys :=
  hwithin.len_le _ (List.get_mem _ _)

theorem len_readied_insert_le
    (hwithin : WithinShare maxKeys limiter) (key : K) (now : ℕ)
    (bucket : Bucket) :
    Table.len ((limiter.readied key now).insert key bucket) ≤
      max 1 limiter.perShardMaxKeys := by
  have hshard := hwithin.len_shard_le key
  unfold readied
  split
  next hfound =>
    have hmem : key ∈ limiter.shard key := AList.lookup_isSome.mp hfound
    exact (Table.len_insert_of_mem hmem bucket).trans hshard
  next =>
    have hroom : (limiter.makeRoom now (limiter.shard key)).len <
        max 1 limiter.perShardMaxKeys := len_makeRoom_lt hshard
    exact (Table.len_insert_le key bucket _).trans hroom

theorem answer (hwithin : WithinShare maxKeys limiter) (request : K × ℕ) :
    WithinShare maxKeys (limiter.answer request).2 := by
  obtain ⟨key, now⟩ := request
  have hshards := limiter.shards_check key now
  have hshare : (limiter.check key now).2.perShardMaxKeys =
      limiter.perShardMaxKeys := by
    rw [check_eq]
    rfl
  constructor
  · rw [Limiter.answer, hshards, List.length_set]
    exact hwithin.count
  · exact hshare.trans hwithin.share
  · rw [Limiter.answer, hshards, hshare]
    intro buckets hmem
    rcases List.mem_or_eq_of_mem_set hmem with hold | rfl
    · exact hwithin.len_le buckets hold
    · exact hwithin.len_readied_insert_le key now _

omit [DecidableEq K] in
theorem new
    (hasher : K → UInt64) (order : VisitOrder K) (rps burst maxKeys : ℕ) :
    WithinShare maxKeys (Limiter.new hasher order rps burst maxKeys) where
  count := List.length_replicate
  share := rfl
  len_le := by
    intro buckets hmem
    rw [List.eq_of_mem_replicate hmem]
    exact Nat.zero_le _

theorem reached
    (hasher : K → UInt64) (order : VisitOrder K) (rps burst maxKeys : ℕ)
    (requests : List (K × ℕ)) :
    WithinShare maxKeys
      (Limiter.reached hasher order rps burst maxKeys requests) :=
  Mealy.final_invariant (WithinShare maxKeys)
    (fun _ request hgood => hgood.answer request)
    (new hasher order rps burst maxKeys) requests

omit [DecidableEq K] in
theorem len_lt (hwithin : WithinShare maxKeys limiter) :
    limiter.len < max maxKeys 1 + limiter.shards.length := by
  have hsum : limiter.len ≤
      limiter.shards.length * max 1 limiter.perShardMaxKeys := by
    have hbound := List.sum_le_card_nsmul (limiter.shards.map Table.len)
      (max 1 limiter.perShardMaxKeys)
      (by simpa using hwithin.len_le)
    simpa [Limiter.len] using hbound
  rw [hwithin.share, hwithin.count] at hsum
  rw [hwithin.count]
  have hpositive := shardCount_pos maxKeys
  rcases Nat.eq_zero_or_pos maxKeys with rfl | hmax
  · rw [shardCount_eq_one_of_zero] at hsum ⊢
    exact lt_of_le_of_lt hsum (by decide)
  · have hone : 1 ≤ maxKeys ⌈/⌉ shardCount maxKeys := by
      rw [Nat.ceilDiv_eq_add_pred_div, Nat.one_le_div_iff hpositive]
      omega
    rw [max_eq_right hone, Nat.ceilDiv_eq_add_pred_div] at hsum
    have hshare := Nat.mul_div_le (maxKeys + shardCount maxKeys - 1)
      (shardCount maxKeys)
    omega

end WithinShare

/-- After any requests, with any hash function: the shards are few and each
key has one; no shard holds more than its share of `max_keys`; a request of
a known key drops no bucket, and a request of a new key drops a bucket that
is not pristine only from a full shard without a pristine one, where it
drops one with the smallest `updated_at` and nothing else. -/
theorem reached_memory_bounded
    (hasher : K → UInt64) (order : VisitOrder K) (rps burst maxKeys : ℕ)
    (requests : List (K × ℕ)) (key : K) (now : ℕ) :
    ((reached hasher order rps burst maxKeys requests).shards.length
        ).isPowerOfTwo ∧
    (reached hasher order rps burst maxKeys requests).shards.length ≤ 16 ∧
    (reached hasher order rps burst maxKeys requests).index key <
      (reached hasher order rps burst maxKeys requests).shards.length ∧
    (∀ buckets ∈ (reached hasher order rps burst maxKeys requests).shards,
      buckets.len ≤ max 1 (maxKeys ⌈/⌉
        (reached hasher order rps burst maxKeys requests).shards.length)) ∧
    (reached hasher order rps burst maxKeys requests).len <
      max maxKeys 1 +
        (reached hasher order rps burst maxKeys requests).shards.length ∧
    (((reached hasher order rps burst maxKeys requests).find key).isSome
        = true →
      ∀ i other,
        ((reached hasher order rps burst maxKeys requests).bucketAt i
          other).isSome = true →
        (((reached hasher order rps burst maxKeys requests).check
          key now).2.bucketAt i other).isSome = true) ∧
    ((reached hasher order rps burst maxKeys requests).find key = none →
      ∀ i other bucket,
        (reached hasher order rps burst maxKeys requests).bucketAt i other =
          some bucket →
        bucket.isPristine now rps burst = false →
        ((reached hasher order rps burst maxKeys requests).check
          key now).2.bucketAt i other = none →
        i = (reached hasher order rps burst maxKeys requests).index key ∧
        ((reached hasher order rps burst maxKeys requests).shard key).len =
          max 1 (maxKeys ⌈/⌉
            (reached hasher order rps burst maxKeys requests).shards.length) ∧
        (∀ third found,
          (reached hasher order rps burst maxKeys requests).bucketAt i third =
            some found →
          found.isPristine now rps burst = false ∧
            bucket.updatedAt ≤ found.updatedAt) ∧
        ∀ j third, (j ≠ i ∨ third ≠ other) →
          ((reached hasher order rps burst maxKeys requests).bucketAt j
            third).isSome = true →
          (((reached hasher order rps burst maxKeys requests).check
            key now).2.bucketAt j third).isSome = true) := by
  have hwithin := WithinShare.reached hasher order rps burst maxKeys requests
  have hrates : Solvent rps burst
      (reached hasher order rps burst maxKeys requests) :=
    (Solvent.new hasher order rps burst maxKeys).final requests
  generalize reached hasher order rps burst maxKeys requests = limiter at *
  have hshare : limiter.perShardMaxKeys = maxKeys ⌈/⌉ limiter.shards.length := by
    rw [hwithin.share, hwithin.count]
  refine ⟨?_, ?_, limiter.index_lt key, ?_, hwithin.len_lt, ?_, ?_⟩
  · rw [hwithin.count]
    exact Nat.isPowerOfTwo_nextPowerOfTwo _
  · rw [hwithin.count]
    exact shardCount_le maxKeys
  · rw [← hshare]
    exact hwithin.len_le
  · intro hfound i other hheld
    exact check_keeps_buckets hfound hheld
  · intro hnew i other bucket hheld hdirty hlost
    rw [← hrates.refillPerSec, ← hrates.capacity] at hdirty ⊢
    obtain ⟨rfl, hfull, holdest, hrest⟩ :=
      check_new_loses hnew hheld hdirty hlost
    refine ⟨rfl, le_antisymm ?_ (max_le ?_ ?_), holdest, hrest⟩
    · rw [← hshare]
      exact hwithin.len_shard_le key
    · rw [bucketAt_index] at hheld
      have hmem := Table.lookup_eq_some_iff_mem_entries.mp hheld
      exact List.length_pos_of_mem hmem
    · rw [← hshare]
      exact hfull

end Limiter

namespace Sample

theorem full_shard_evicts_its_oldest :
    ((Limiter.reached UInt64.ofNat visitOrder 1 2 2
        [(0, 5), (1, 4)]).check 2 6).2.bucketAt 0 1 = none ∧
      (((Limiter.reached UInt64.ofNat visitOrder 1 2 2
        [(0, 5), (1, 4)]).check 2 6).2.bucketAt 0 0).isSome = true :=
  ⟨by decide +kernel,
    ((Limiter.reached_memory_bounded UInt64.ofNat visitOrder 1 2 2
      [(0, 5), (1, 4)] 2 6).2.2.2.2.2.2 (by decide +kernel) 0 1
        { tokens := 1, updatedAt := 4, limited := false } (by decide +kernel)
        (by decide +kernel) (by decide +kernel)).2.2.2 0 0
      (Or.inr (by decide)) (by decide +kernel)⟩

end Sample

end RateLimit
