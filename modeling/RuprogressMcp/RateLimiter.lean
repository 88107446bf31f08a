import RuprogressMcp.FiniteTable
import RuprogressMcp.OutputRuns
import Mathlib.Data.List.MinMax
import Mathlib.Tactic

/-!
# The keyed token-bucket rate limiter

This is `ratelimit.rs` with token counts taken as exact rationals.  Instants
are nanoseconds, so that subtraction is the time elapsed, or zero when `now`
lies in the past.  The order in which a hash map visits its entries is a
parameter of the limiter; it decides between equally old buckets only.  The
reference limiter keeps every bucket in one map forever.
-/

namespace RateLimit

inductive Decision where
  | allow (recovered : Bool)
  | deny (retryAfterSecs : ℕ) (newlyLimited : Bool)
deriving DecidableEq, Repr

structure Bucket where
  tokens : ℚ
  updatedAt : ℕ
  limited : Bool
deriving DecidableEq

def u64Max : ℕ := 2 ^ 64 - 1

/-- A number of nanoseconds in seconds. -/
def asSecs (elapsed : ℕ) : ℚ := (elapsed : ℚ) / 10 ^ 9

namespace Bucket

def new (capacity : ℚ) (now : ℕ) : Bucket :=
  { tokens := capacity, updatedAt := now, limited := false }

def refilled (bucket : Bucket) (now : ℕ) (refillPerSec : ℚ) : ℚ :=
  asSecs (now - bucket.updatedAt) * refillPerSec

/-- The seconds until the deficit is refilled; `none` is infinity. -/
def waitSecs (deficit refillPerSec : ℚ) : Option ℚ :=
  if 0 < refillPerSec then some (deficit / refillPerSec) else none

/-- Clamp, round up and cast; the cast saturates. -/
def retryAfterSecs : Option ℚ → ℕ
  | none => u64Max
  | some wait => min ⌈max 1 (min wait u64Max)⌉.toNat u64Max

def take (bucket : Bucket) (now : ℕ) (refillPerSec capacity : ℚ) :
    Decision × Bucket :=
  let tokens := min (bucket.tokens + bucket.refilled now refillPerSec) capacity
  if 1 ≤ tokens then
    (.allow bucket.limited,
      { tokens := tokens - 1, updatedAt := now, limited := false })
  else
    (.deny (retryAfterSecs (waitSecs (1 - tokens) refillPerSec))
        (!bucket.limited),
      { tokens := tokens, updatedAt := now, limited := true })

def isPristine
    (bucket : Bucket) (now : ℕ) (refillPerSec capacity : ℚ) : Bool :=
  !bucket.limited &&
    decide (capacity ≤ bucket.tokens + bucket.refilled now refillPerSec)

end Bucket

/-! ## The sharded limiter -/

def minKeysPerShard : ℕ := 64

def maxShards : ℕ := 16

/-- How a hash map of buckets visits its entries. -/
structure VisitOrder (K : Type) where
  visit : Table K Bucket → List ((_ : K) × Bucket)
  visit_perm : ∀ buckets, (visit buckets).Perm buckets.entries

structure Limiter (K : Type) where
  shards : List (Table K Bucket)
  hasher : K → UInt64
  order : VisitOrder K
  shardMask : UInt64
  capacity : ℚ
  refillPerSec : ℚ
  perShardMaxKeys : ℕ
  shardMask_lt : shardMask.toNat < shards.length

variable {K : Type} [DecidableEq K]

def evictOldest (order : VisitOrder K) (buckets : Table K Bucket) :
    Table K Bucket :=
  match (order.visit buckets).argmin (fun entry => entry.2.updatedAt) with
  | some oldest => buckets.erase oldest.1
  | none => buckets

namespace Limiter

def shardCount (maxKeys : ℕ) : ℕ :=
  (max 1 (min maxShards (maxKeys / minKeysPerShard))).nextPowerOfTwo

omit [DecidableEq K] in
theorem shardMask_bound {count : ℕ} (hcount : 0 < count) :
    (UInt64.ofNat (count - 1)).toNat <
      (List.replicate count (∅ : Table K Bucket)).length := by
  rw [List.length_replicate, UInt64.toNat_ofNat']
  exact lt_of_le_of_lt (Nat.mod_le _ _) (by omega)

theorem shardCount_pos (maxKeys : ℕ) : 0 < shardCount maxKeys :=
  Nat.pos_of_isPowerOfTwo (Nat.isPowerOfTwo_nextPowerOfTwo _)

def new (hasher : K → UInt64) (order : VisitOrder K)
    (rps burst maxKeys : ℕ) : Limiter K where
  shards := List.replicate (shardCount maxKeys) ∅
  hasher := hasher
  order := order
  shardMask := UInt64.ofNat (shardCount maxKeys - 1)
  capacity := burst
  refillPerSec := rps
  perShardMaxKeys := (maxKeys + shardCount maxKeys - 1) / shardCount maxKeys
  shardMask_lt := shardMask_bound (shardCount_pos maxKeys)

def index (limiter : Limiter K) (key : K) : ℕ :=
  (limiter.hasher key &&& limiter.shardMask).toNat

omit [DecidableEq K] in
theorem index_lt (limiter : Limiter K) (key : K) :
    limiter.index key < limiter.shards.length := by
  apply lt_of_le_of_lt _ limiter.shardMask_lt
  rw [index, UInt64.toNat_and]
  exact Nat.and_le_right

def shard (limiter : Limiter K) (key : K) : Table K Bucket :=
  limiter.shards.get ⟨limiter.index key, limiter.index_lt key⟩

def setShard (limiter : Limiter K) (key : K) (buckets : Table K Bucket) :
    Limiter K :=
  { limiter with
    shards := limiter.shards.set (limiter.index key) buckets
    shardMask_lt := by
      rw [List.length_set]
      exact limiter.shardMask_lt }

def sweepPristine (limiter : Limiter K) (now : ℕ) (buckets : Table K Bucket) :
    Table K Bucket :=
  buckets.retain fun _ bucket =>
    !bucket.isPristine now limiter.refillPerSec limiter.capacity

/-- The branch of `check` that calls `evict_oldest`. -/
def EvictsOldest (limiter : Limiter K) (key : K) (now : ℕ) : Prop :=
  (limiter.shard key).lookup key = none ∧
    limiter.perShardMaxKeys ≤ (limiter.shard key).len ∧
    (limiter.sweepPristine now (limiter.shard key)).len =
      (limiter.shard key).len

instance (limiter : Limiter K) (key : K) (now : ℕ) :
    Decidable (limiter.EvictsOldest key now) :=
  inferInstanceAs (Decidable (_ ∧ _ ∧ _))

def makeRoom (limiter : Limiter K) (now : ℕ) (buckets : Table K Bucket) :
    Table K Bucket :=
  if limiter.perShardMaxKeys ≤ buckets.len then
    let kept := limiter.sweepPristine now buckets
    if kept.len = buckets.len then evictOldest limiter.order kept else kept
  else
    buckets

def check (limiter : Limiter K) (key : K) (now : ℕ) :
    Decision × Limiter K :=
  let buckets := limiter.shard key
  match buckets.lookup key with
  | some bucket =>
      let taken := bucket.take now limiter.refillPerSec limiter.capacity
      (taken.1, limiter.setShard key (buckets.insert key taken.2))
  | none =>
      let taken := (Bucket.new limiter.capacity now).take now
        limiter.refillPerSec limiter.capacity
      (taken.1, limiter.setShard key
        ((limiter.makeRoom now buckets).insert key taken.2))

/-- One request of a run: who asks, and when. -/
def answer (limiter : Limiter K) (request : K × ℕ) : Decision × Limiter K :=
  limiter.check request.1 request.2

end Limiter

/-! ## The reference limiter -/

structure ReferenceLimiter (K : Type) where
  buckets : Table K Bucket
  capacity : ℚ
  refillPerSec : ℚ

namespace ReferenceLimiter

def new (rps burst : ℕ) : ReferenceLimiter K :=
  { buckets := ∅, capacity := burst, refillPerSec := rps }

def check (limiter : ReferenceLimiter K) (key : K) (now : ℕ) :
    Decision × ReferenceLimiter K :=
  let bucket :=
    (limiter.buckets.lookup key).getD (Bucket.new limiter.capacity now)
  let taken := bucket.take now limiter.refillPerSec limiter.capacity
  (taken.1,
    { limiter with buckets := limiter.buckets.insert key taken.2 })

def answer (limiter : ReferenceLimiter K) (request : K × ℕ) :
    Decision × ReferenceLimiter K :=
  limiter.check request.1 request.2

end ReferenceLimiter

/-! ## Buckets that a full one can stand for -/

theorem asSecs_nonneg (elapsed : ℕ) : 0 ≤ asSecs elapsed := by
  unfold asSecs
  positivity

theorem asSecs_mono {short long : ℕ} (hle : short ≤ long) :
    asSecs short ≤ asSecs long := by
  unfold asSecs
  gcongr

namespace Bucket

variable {bucket : Bucket} {now later : ℕ} {refillPerSec capacity : ℚ}

theorem refilled_nonneg
    (bucket : Bucket) (now : ℕ) (hrefill : 0 ≤ refillPerSec) :
    0 ≤ bucket.refilled now refillPerSec :=
  mul_nonneg (asSecs_nonneg _) hrefill

theorem refilled_mono
    (bucket : Bucket) (hrefill : 0 ≤ refillPerSec) (hle : now ≤ later) :
    bucket.refilled now refillPerSec ≤ bucket.refilled later refillPerSec :=
  mul_le_mul_of_nonneg_right
    (asSecs_mono (Nat.sub_le_sub_right hle _)) hrefill

theorem isPristine_iff :
    bucket.isPristine now refillPerSec capacity = true ↔
      bucket.limited = false ∧
        capacity ≤ bucket.tokens + bucket.refilled now refillPerSec := by
  simp [isPristine]

theorem isPristine_later (hrefill : 0 ≤ refillPerSec) (hle : now ≤ later)
    (hpristine : bucket.isPristine now refillPerSec capacity = true) :
    bucket.isPristine later refillPerSec capacity = true := by
  obtain ⟨hfree, hfull⟩ := isPristine_iff.mp hpristine
  have hmore := bucket.refilled_mono hrefill hle
  exact isPristine_iff.mpr ⟨hfree, by linarith⟩

theorem take_of_isPristine
    (hpristine : bucket.isPristine now refillPerSec capacity = true) :
    bucket.take now refillPerSec capacity =
      (new capacity now).take now refillPerSec capacity := by
  obtain ⟨hfree, hfull⟩ := isPristine_iff.mp hpristine
  have hold : min (bucket.tokens + bucket.refilled now refillPerSec) capacity =
      capacity := min_eq_right hfull
  have hnew : min ((new capacity now).tokens +
      (new capacity now).refilled now refillPerSec) capacity = capacity := by
    simp [new, refilled, asSecs]
  simp only [take, hold, hnew, hfree]
  rfl

end Bucket

/-! ## What a request does to the buckets -/

namespace Limiter

variable {limiter : Limiter K} {key other : K} {now : ℕ}

/-- The bucket of a key, wherever it is kept. -/
def find (limiter : Limiter K) (key : K) : Option Bucket :=
  (limiter.shard key).lookup key

omit [DecidableEq K] in
theorem shard_setShard (buckets : Table K Bucket) :
    (limiter.setShard key buckets).shard other =
      if limiter.index key = limiter.index other then buckets
      else limiter.shard other := by
  simp only [shard, List.get_eq_getElem, setShard]
  exact List.getElem_set ..

theorem find_setShard_self (buckets : Table K Bucket) :
    (limiter.setShard key buckets).find key = buckets.lookup key := by
  rw [find, shard_setShard, if_pos rfl]

/-- The bucket that a request takes its token from. -/
def current (limiter : Limiter K) (key : K) (now : ℕ) : Bucket :=
  (limiter.find key).getD (Bucket.new limiter.capacity now)

/-- The shard of a key when a request is about to store its bucket. -/
def readied (limiter : Limiter K) (key : K) (now : ℕ) : Table K Bucket :=
  if (limiter.find key).isSome then limiter.shard key
  else limiter.makeRoom now (limiter.shard key)

theorem check_eq (limiter : Limiter K) (key : K) (now : ℕ) :
    limiter.check key now =
      (((limiter.current key now).take now
          limiter.refillPerSec limiter.capacity).1,
        limiter.setShard key ((limiter.readied key now).insert key
          ((limiter.current key now).take now
            limiter.refillPerSec limiter.capacity).2)) := by
  simp only [check, current, readied]
  rw [show limiter.find key = (limiter.shard key).lookup key from rfl]
  cases (limiter.shard key).lookup key <;> rfl

@[simp] theorem check_capacity :
    (limiter.check key now).2.capacity = limiter.capacity := by
  rw [check_eq]
  rfl

@[simp] theorem check_refillPerSec :
    (limiter.check key now).2.refillPerSec = limiter.refillPerSec := by
  rw [check_eq]
  rfl

theorem find_check_self (limiter : Limiter K) (key : K) (now : ℕ) :
    (limiter.check key now).2.find key =
      some ((limiter.current key now).take now
        limiter.refillPerSec limiter.capacity).2 := by
  rw [check_eq, find_setShard_self, AList.lookup_insert]

theorem lookup_sweepPristine {buckets : Table K Bucket} (other : K) :
    (limiter.sweepPristine now buckets).lookup other = buckets.lookup other ∨
      ((limiter.sweepPristine now buckets).lookup other = none ∧
        ∃ bucket, buckets.lookup other = some bucket ∧
          bucket.isPristine now limiter.refillPerSec limiter.capacity
            = true) := by
  cases hswept : (limiter.sweepPristine now buckets).lookup other with
  | some bucket =>
      left
      exact (Table.lookup_retain_eq_some.mp hswept).1.symm
  | none =>
      cases hold : buckets.lookup other with
      | none => exact Or.inl rfl
      | some bucket =>
          right
          refine ⟨rfl, bucket, rfl, ?_⟩
          by_contra hdirty
          have hkept : (limiter.sweepPristine now buckets).lookup other =
              some bucket :=
            Table.lookup_retain_eq_some.mpr ⟨hold, by simpa using hdirty⟩
          simp [hswept] at hkept

theorem lookup_readied
    (hroom : ¬ limiter.EvictsOldest key now) (other : K) :
    (limiter.readied key now).lookup other =
        (limiter.shard key).lookup other ∨
      ((limiter.readied key now).lookup other = none ∧
        ∃ bucket, (limiter.shard key).lookup other = some bucket ∧
          bucket.isPristine now limiter.refillPerSec limiter.capacity
            = true) := by
  unfold readied makeRoom
  split
  next => exact Or.inl rfl
  next habsent =>
    split
    next hfull =>
      have hswept : ¬ (limiter.sweepPristine now (limiter.shard key)).len =
          (limiter.shard key).len := fun hlen =>
        hroom ⟨Option.not_isSome_iff_eq_none.mp habsent, hfull, hlen⟩
      simp only [hswept, if_false]
      exact lookup_sweepPristine other
    next => exact Or.inl rfl

/-- Without an eviction, a request loses no bucket but pristine ones. -/
theorem find_check_other
    (hother : other ≠ key) (hroom : ¬ limiter.EvictsOldest key now) :
    (limiter.check key now).2.find other = limiter.find other ∨
      ((limiter.check key now).2.find other = none ∧
        ∃ bucket, limiter.find other = some bucket ∧
          bucket.isPristine now limiter.refillPerSec limiter.capacity
            = true) := by
  rw [check_eq, find, shard_setShard]
  split
  next hindex =>
    have hshard : limiter.shard key = limiter.shard other := by
      simp only [shard, List.get_eq_getElem, hindex]
    rw [AList.lookup_insert_ne hother, find, ← hshard]
    exact lookup_readied hroom other
  next => exact Or.inl rfl

end Limiter

/-! ## Sharding and sweeping change no decision -/

/-- What a bucket that the limiter has, or lacks, says of the bucket that the
reference keeps. -/
def StandsFor (now : ℕ) (refillPerSec capacity : ℚ) :
    Option Bucket → Option Bucket → Prop
  | some bucket, kept => kept = some bucket
  | none, none => True
  | none, some kept => kept.isPristine now refillPerSec capacity = true

theorem StandsFor.later
    {now later : ℕ} {refillPerSec capacity : ℚ} {found kept : Option Bucket}
    (hstands : StandsFor now refillPerSec capacity found kept)
    (hrefill : 0 ≤ refillPerSec) (hle : now ≤ later) :
    StandsFor later refillPerSec capacity found kept := by
  cases found with
  | some bucket => exact hstands
  | none =>
      cases kept with
      | none => trivial
      | some kept => exact Bucket.isPristine_later hrefill hle hstands

theorem StandsFor.take_eq
    {now : ℕ} {refillPerSec capacity : ℚ} {found kept : Option Bucket}
    (hstands : StandsFor now refillPerSec capacity found kept) :
    (found.getD (Bucket.new capacity now)).take now refillPerSec capacity =
      (kept.getD (Bucket.new capacity now)).take now refillPerSec capacity := by
  cases found with
  | some bucket =>
      cases hstands
      rfl
  | none =>
      cases kept with
      | none => rfl
      | some kept => exact (Bucket.take_of_isPristine hstands).symm

theorem StandsFor.of_lost
    {now : ℕ} {refillPerSec capacity : ℚ}
    {found found' kept : Option Bucket}
    (hstands : StandsFor now refillPerSec capacity found kept)
    (hlost : found' = found ∨ (found' = none ∧
      ∃ bucket, found = some bucket ∧
        bucket.isPristine now refillPerSec capacity = true)) :
    StandsFor now refillPerSec capacity found' kept := by
  obtain rfl | ⟨rfl, bucket, rfl, hpristine⟩ := hlost
  · exact hstands
  · cases hstands
    exact hpristine

/-- The reference has the limiter's rates, and its buckets are those of the
limiter up to pristine ones, as seen at an instant. -/
structure Represents
    (now : ℕ) (limiter : Limiter K) (reference : ReferenceLimiter K) :
    Prop where
  capacity : reference.capacity = limiter.capacity
  refillPerSec : reference.refillPerSec = limiter.refillPerSec
  refill_nonneg : 0 ≤ limiter.refillPerSec
  buckets : ∀ key, StandsFor now limiter.refillPerSec limiter.capacity
    (limiter.find key) (reference.buckets.lookup key)

namespace Represents

variable {now next : ℕ} {limiter : Limiter K}
  {reference : ReferenceLimiter K} {key : K}

theorem later (hrep : Represents now limiter reference) (hle : now ≤ next) :
    Represents next limiter reference where
  capacity := hrep.capacity
  refillPerSec := hrep.refillPerSec
  refill_nonneg := hrep.refill_nonneg
  buckets := fun key => (hrep.buckets key).later hrep.refill_nonneg hle

theorem taken_eq (hrep : Represents now limiter reference) (key : K) :
    ((reference.buckets.lookup key).getD
        (Bucket.new reference.capacity now)).take now
          reference.refillPerSec reference.capacity =
      (limiter.current key now).take now
        limiter.refillPerSec limiter.capacity := by
  rw [hrep.capacity, hrep.refillPerSec, Limiter.current]
  exact (hrep.buckets key).take_eq.symm

theorem decision_eq (hrep : Represents now limiter reference) (key : K) :
    (limiter.check key now).1 = (reference.check key now).1 := by
  rw [Limiter.check_eq]
  exact congrArg Prod.fst (hrep.taken_eq key).symm

theorem check
    (hrep : Represents now limiter reference)
    (hroom : ¬ limiter.EvictsOldest key now) :
    Represents now (limiter.check key now).2 (reference.check key now).2 where
  capacity := hrep.capacity.trans Limiter.check_capacity.symm
  refillPerSec := hrep.refillPerSec.trans Limiter.check_refillPerSec.symm
  refill_nonneg := by
    rw [Limiter.check_refillPerSec]
    exact hrep.refill_nonneg
  buckets := by
    intro other
    rw [Limiter.check_capacity, Limiter.check_refillPerSec,
      show (reference.check key now).2.buckets =
        reference.buckets.insert key _ from rfl, hrep.taken_eq key]
    by_cases hother : other = key
    · subst other
      rw [Limiter.find_check_self, AList.lookup_insert]
      rfl
    · rw [AList.lookup_insert_ne hother]
      exact (hrep.buckets other).of_lost
        (Limiter.find_check_other hother hroom)

end Represents

theorem Limiter.find_new
    (hasher : K → UInt64) (order : VisitOrder K)
    (rps burst maxKeys : ℕ) (key : K) :
    (Limiter.new hasher order rps burst maxKeys).find key = none := by
  have hshard : (Limiter.new hasher order rps burst maxKeys).shard key = ∅ :=
    List.getElem_replicate ..
  rw [Limiter.find, hshard]
  rfl

theorem Limiter.new_represents
    (hasher : K → UInt64) (order : VisitOrder K) (rps burst maxKeys now : ℕ) :
    Represents now (Limiter.new hasher order rps burst maxKeys)
      (ReferenceLimiter.new rps burst) where
  capacity := rfl
  refillPerSec := rfl
  refill_nonneg := Nat.cast_nonneg rps
  buckets := by
    intro key
    rw [Limiter.find_new]
    trivial

/-- With nondecreasing instants and no run of `evict_oldest`, the limiter
decides as the reference that never drops a bucket. -/
theorem decisions_eq_reference
    (hasher : K → UInt64) (order : VisitOrder K) (rps burst maxKeys : ℕ)
    (requests : List (K × ℕ))
    (hsorted : requests.Pairwise fun first second => first.2 ≤ second.2)
    (hroom : Mealy.Along Limiter.answer
      (fun limiter request => ¬ limiter.EvictsOldest request.1 request.2)
      (Limiter.new hasher order rps burst maxKeys) requests) :
    Mealy.outputs Limiter.answer
        (Limiter.new hasher order rps burst maxKeys) requests =
      Mealy.outputs ReferenceLimiter.answer
        (ReferenceLimiter.new rps burst) requests := by
  apply Mealy.outputs_eq_of_simulation (fun limiter reference requests =>
    requests.Pairwise (fun first second => first.2 ≤ second.2) ∧
      Mealy.Along Limiter.answer
        (fun limiter request => ¬ limiter.EvictsOldest request.1 request.2)
        limiter requests ∧
      ∀ request ∈ requests, Represents request.2 limiter reference)
  · rintro limiter reference ⟨key, now⟩ rest ⟨hsorted, ⟨hroom, hrest⟩, hrep⟩
    have hnow : Represents now limiter reference := hrep _ List.mem_cons_self
    obtain ⟨hfirst, hsorted⟩ := List.pairwise_cons.mp hsorted
    refine ⟨hnow.decision_eq key, hsorted, hrest, ?_⟩
    intro request hmem
    exact (hnow.check hroom).later (hfirst request hmem)
  · exact ⟨hsorted, hroom, fun request _ =>
      Limiter.new_represents hasher order rps burst maxKeys request.2⟩

namespace Sample

def visitOrder : VisitOrder ℕ where
  visit := fun buckets => buckets.entries
  visit_perm := fun _ => List.Perm.refl _

/-- A map of one key, whose bucket is swept for the next key. -/
def limiter : Limiter ℕ := Limiter.new UInt64.ofNat visitOrder 1 1 1

def requests : List (ℕ × ℕ) :=
  [(0, 0), (0, 1), (0, 3 * 10 ^ 9), (1, 5 * 10 ^ 9), (0, 7 * 10 ^ 9)]

theorem swept_decisions_eq_reference :
    Mealy.outputs Limiter.answer limiter requests =
      [.allow false, .deny 1 true, .allow true, .allow false, .allow false] ∧
    Mealy.outputs Limiter.answer limiter requests =
      Mealy.outputs ReferenceLimiter.answer
        (ReferenceLimiter.new 1 1) requests :=
  ⟨by decide +kernel,
    decisions_eq_reference UInt64.ofNat visitOrder 1 1 1 requests
      (by decide) (by decide +kernel)⟩

end Sample

end RateLimit
