import RuprogressMcp.RateLimiter

/-!
# How much a token bucket grants

A bucket gains tokens for the time by which its clock readings move forward.
`take` sets `updated_at` to the reading it is given, also when that reading
lies in the past, so a stretch of time that the readings pass over twice is
paid out twice.  The grants of a run are bounded by the total forward
movement, and so by the length of the interval of readings as soon as the
forward moves cover no more than that.
-/

namespace RateLimit

variable {K : Type} [DecidableEq K]

def Decision.isAllow : Decision → Bool
  | .allow _ => true
  | .deny _ _ => false

/-- How many requests of a key a run allows. -/
def grants (key : K) : Limiter K → List (K × ℕ) → ℕ
  | _, [] => 0
  | limiter, request :: rest =>
      (if request.1 = key ∧ (limiter.answer request).1.isAllow = true
        then 1 else 0) +
        grants key (limiter.answer request).2 rest

/-- The clock readings of the requests of a key. -/
def instants (key : K) (requests : List (K × ℕ)) : List ℕ :=
  (requests.filter fun request => request.1 = key).map Prod.snd

/-- No request of the run takes the bucket of the key away. -/
def KeepsBucket (key : K) (limiter : Limiter K) (requests : List (K × ℕ)) :
    Prop :=
  Mealy.Along Limiter.answer
    (fun limiter request => (limiter.find key).isSome = true →
      ((limiter.answer request).2.find key).isSome = true)
    limiter requests

instance (key : K) (limiter : Limiter K) (requests : List (K × ℕ)) :
    Decidable (KeepsBucket key limiter requests) :=
  inferInstanceAs (Decidable (Mealy.Along _ _ _ _))

/-- By how much the readings move forward, seen from the last one. -/
def forwardFrom : ℕ → List ℕ → ℕ
  | _, [] => 0
  | last, now :: rest => (now - last) + forwardFrom now rest

def forwardTime : List ℕ → ℕ
  | [] => 0
  | first :: rest => forwardFrom first rest

theorem asSecs_add (first second : ℕ) :
    asSecs (first + second) = asSecs first + asSecs second := by
  unfold asSecs
  push_cast
  ring

/-! ## One request -/

theorem Bucket.take_balance
    (bucket : Bucket) (now : ℕ) {refillPerSec capacity : ℚ}
    (htokens : 0 ≤ bucket.tokens) (hrefill : 0 ≤ refillPerSec)
    (hcapacity : 0 ≤ capacity) :
    0 ≤ (bucket.take now refillPerSec capacity).2.tokens ∧
      (bucket.take now refillPerSec capacity).2.updatedAt = now ∧
      (if (bucket.take now refillPerSec capacity).1.isAllow = true
          then (1 : ℚ) else 0) +
          (bucket.take now refillPerSec capacity).2.tokens ≤
        bucket.tokens + bucket.refilled now refillPerSec := by
  have hgain := bucket.refilled_nonneg now hrefill
  have hfilled : 0 ≤ min (bucket.tokens +
      bucket.refilled now refillPerSec) capacity :=
    le_min (by linarith) hcapacity
  have hclamp := min_le_left
    (bucket.tokens + bucket.refilled now refillPerSec) capacity
  unfold take
  simp only
  split
  next hone =>
    refine ⟨by simpa using hone, rfl, ?_⟩
    simp only [Decision.isAllow, if_true]
    linarith
  next =>
    refine ⟨hfilled, rfl, ?_⟩
    simp only [Decision.isAllow, Bool.false_eq_true, if_false, zero_add]
    exact hclamp

namespace Limiter

variable {limiter : Limiter K} {key other : K} {now : ℕ}

theorem lookup_evictOldest
    (order : VisitOrder K) (buckets : Table K Bucket) (other : K) :
    (evictOldest order buckets).lookup other = buckets.lookup other ∨
      (evictOldest order buckets).lookup other = none := by
  unfold evictOldest
  split
  next oldest _ =>
    by_cases heq : other = oldest.1
    · subst heq
      exact Or.inr (AList.lookup_erase oldest.1 buckets)
    · exact Or.inl (AList.lookup_erase_ne heq)
  next => exact Or.inl rfl

theorem lookup_makeRoom (buckets : Table K Bucket) (other : K) :
    (limiter.makeRoom now buckets).lookup other = buckets.lookup other ∨
      (limiter.makeRoom now buckets).lookup other = none := by
  have hswept : (limiter.sweepPristine now buckets).lookup other =
        buckets.lookup other ∨
      (limiter.sweepPristine now buckets).lookup other = none :=
    (lookup_sweepPristine other).imp id And.left
  unfold makeRoom
  split
  next =>
    simp only
    split
    next =>
      rcases lookup_evictOldest limiter.order
          (limiter.sweepPristine now buckets) other with hsame | hgone
      · rw [hsame]
        exact hswept
      · exact Or.inr hgone
    next => exact hswept
  next => exact Or.inl rfl

/-- A request of another key leaves a bucket alone or removes it. -/
theorem find_check_other_or_none
    (limiter : Limiter K) (now : ℕ) (hother : other ≠ key) :
    (limiter.check key now).2.find other = limiter.find other ∨
      (limiter.check key now).2.find other = none := by
  rw [check_eq, find, shard_setShard]
  split
  next hindex =>
    have hshard : limiter.shard key = limiter.shard other := by
      simp only [shard, List.get_eq_getElem, hindex]
    rw [AList.lookup_insert_ne hother, find, ← hshard, readied]
    split
    next => exact Or.inl rfl
    next => exact lookup_makeRoom (limiter.shard key) other
  next => exact Or.inl rfl

end Limiter

/-! ## Whole runs -/

section Runs

variable {key : K} {limiter : Limiter K} {requests : List (K × ℕ)}

theorem instants_cons_self (key : K) (now : ℕ) (rest : List (K × ℕ)) :
    instants key ((key, now) :: rest) = now :: instants key rest := by
  simp [instants]

theorem instants_cons_other {other : K} (hother : other ≠ key)
    (now : ℕ) (rest : List (K × ℕ)) :
    instants key ((other, now) :: rest) = instants key rest := by
  simp [instants, hother]

theorem grants_cons_other {other : K} (hother : other ≠ key)
    (now : ℕ) (rest : List (K × ℕ)) :
    grants key limiter ((other, now) :: rest) =
      grants key (limiter.check other now).2 rest := by
  simp [grants, hother, Limiter.answer]

theorem grants_cons_self (now : ℕ) (rest : List (K × ℕ)) :
    (grants key limiter ((key, now) :: rest) : ℚ) =
      (if ((limiter.current key now).take now
          limiter.refillPerSec limiter.capacity).1.isAllow = true
        then 1 else 0) +
        grants key (limiter.check key now).2 rest := by
  simp [grants, Limiter.answer, Limiter.check_eq]

/-- The grants are paid from the tokens of the bucket and from what the
forward moves of the readings refill. -/
theorem grants_le_of_bucket
    {bucket : Bucket} (hfind : limiter.find key = some bucket)
    (htokens : 0 ≤ bucket.tokens) (hrefill : 0 ≤ limiter.refillPerSec)
    (hcapacity : 0 ≤ limiter.capacity)
    (hkept : KeepsBucket key limiter requests) :
    (grants key limiter requests : ℚ) ≤ bucket.tokens +
      limiter.refillPerSec *
        asSecs (forwardFrom bucket.updatedAt (instants key requests)) := by
  induction requests generalizing limiter bucket with
  | nil => simpa [grants, instants, forwardFrom, asSecs] using htokens
  | cons request rest ih =>
      obtain ⟨asker, now⟩ := request
      obtain ⟨hpresent, hkept⟩ := hkept
      by_cases hasker : asker = key
      · subst asker
        obtain ⟨hleft, hupdated, hpaid⟩ :=
          bucket.take_balance now htokens hrefill hcapacity
        have hcurrent : limiter.current key now = bucket := by
          simp [Limiter.current, hfind]
        have hnext := limiter.find_check_self key now
        rw [hcurrent] at hnext
        have hrest := ih hnext hleft (by simpa using hrefill)
          (by simpa using hcapacity) hkept
        rw [Limiter.check_refillPerSec, hupdated] at hrest
        rw [grants_cons_self, hcurrent, instants_cons_self, forwardFrom,
          asSecs_add, mul_add]
        have hgain : bucket.refilled now limiter.refillPerSec =
            limiter.refillPerSec * asSecs (now - bucket.updatedAt) :=
          mul_comm _ _
        linarith
      · have hsame : (limiter.check asker now).2.find key = some bucket := by
          have hstill := hpresent (by simp [hfind])
          rcases limiter.find_check_other_or_none now
              (Ne.symm hasker) with hsame | hgone
          · rw [hsame, hfind]
          · simp [Limiter.answer, hgone] at hstill
        have hrest := ih hsame htokens (by simpa using hrefill)
          (by simpa using hcapacity) hkept
        rw [Limiter.check_refillPerSec] at hrest
        rw [grants_cons_other hasker, instants_cons_other hasker]
        exact hrest

theorem grants_le_of_absent
    (hfind : limiter.find key = none)
    (hrefill : 0 ≤ limiter.refillPerSec) (hcapacity : 0 ≤ limiter.capacity)
    (hkept : KeepsBucket key limiter requests) :
    (grants key limiter requests : ℚ) ≤ limiter.capacity +
      limiter.refillPerSec * asSecs (forwardTime (instants key requests)) := by
  induction requests generalizing limiter with
  | nil => simpa [grants, instants, forwardTime, asSecs] using hcapacity
  | cons request rest ih =>
      obtain ⟨asker, now⟩ := request
      obtain ⟨-, hkept⟩ := hkept
      by_cases hasker : asker = key
      · subst asker
        have hcurrent : limiter.current key now =
            Bucket.new limiter.capacity now := by
          simp [Limiter.current, hfind]
        obtain ⟨hleft, hupdated, hpaid⟩ :=
          (Bucket.new limiter.capacity now).take_balance now
            hcapacity hrefill hcapacity
        have hnext := limiter.find_check_self key now
        rw [hcurrent] at hnext
        have hrest := grants_le_of_bucket hnext hleft (by simpa using hrefill)
          (by simpa using hcapacity) hkept
        rw [Limiter.check_refillPerSec, hupdated] at hrest
        rw [grants_cons_self, hcurrent, instants_cons_self, forwardTime]
        have hgain : (Bucket.new limiter.capacity now).refilled now
            limiter.refillPerSec = 0 := by
          simp [Bucket.refilled, Bucket.new, asSecs]
        rw [hgain] at hpaid
        simp only [Bucket.new] at hpaid hrest ⊢
        linarith
      · have hsame : (limiter.check asker now).2.find key = none := by
          rcases limiter.find_check_other_or_none now
              (Ne.symm hasker) with hsame | hgone
          · rw [hsame, hfind]
          · exact hgone
        have hrest := ih hsame (by simpa using hrefill)
          (by simpa using hcapacity) hkept
        rw [Limiter.check_refillPerSec, Limiter.check_capacity] at hrest
        rw [grants_cons_other hasker, instants_cons_other hasker]
        exact hrest

end Runs

/-! ## Readings that never step back -/

theorem forwardFrom_of_sorted
    {last tmax : ℕ} {nows : List ℕ}
    (hsorted : (last :: nows).Pairwise (· ≤ ·))
    (hwithin : ∀ now ∈ last :: nows, now ≤ tmax) :
    forwardFrom last nows ≤ tmax - last := by
  induction nows generalizing last with
  | nil => exact Nat.zero_le _
  | cons now rest ih =>
      obtain ⟨hlast, hrest⟩ := List.pairwise_cons.mp hsorted
      have hahead := ih hrest fun other hmem =>
        hwithin other (List.mem_cons_of_mem _ hmem)
      have hstep : last ≤ now := hlast now List.mem_cons_self
      have hbound : now ≤ tmax :=
        hwithin now (List.mem_cons_of_mem _ List.mem_cons_self)
      rw [forwardFrom]
      omega

theorem forwardTime_of_sorted
    {tmin tmax : ℕ} {nows : List ℕ} (hsorted : nows.Pairwise (· ≤ ·))
    (hwithin : ∀ now ∈ nows, tmin ≤ now ∧ now ≤ tmax) :
    forwardTime nows ≤ tmax - tmin := by
  cases nows with
  | nil => exact Nat.zero_le _
  | cons first rest =>
      have hahead := forwardFrom_of_sorted hsorted fun now hmem =>
        (hwithin now hmem).2
      have hfirst := (hwithin first List.mem_cons_self).1
      exact hahead.trans (Nat.sub_le_sub_left hfirst tmax)

/-- In a run that keeps the bucket of a key, the grants are within the burst
and the refill of the interval of readings, as long as the readings do not
pass over more time than the interval has. -/
theorem grants_le_of_forwardTime_le
    (hasher : K → UInt64) (order : VisitOrder K) (rps burst maxKeys : ℕ)
    (key : K) (requests : List (K × ℕ)) (tmin tmax : ℕ)
    (hkept : KeepsBucket key
      (Limiter.new hasher order rps burst maxKeys) requests)
    (hforward : forwardTime (instants key requests) ≤ tmax - tmin) :
    (grants key (Limiter.new hasher order rps burst maxKeys) requests : ℚ) ≤
      burst + rps * asSecs (tmax - tmin) := by
  have hrefill : (0 : ℚ) ≤ rps := Nat.cast_nonneg rps
  have hpaid := grants_le_of_absent
    (Limiter.find_new hasher order rps burst maxKeys key)
    hrefill (Nat.cast_nonneg burst) hkept
  calc (grants key (Limiter.new hasher order rps burst maxKeys) requests : ℚ)
      ≤ burst + rps * asSecs (forwardTime (instants key requests)) := hpaid
    _ ≤ burst + rps * asSecs (tmax - tmin) := by
        have hmore := asSecs_mono hforward
        gcongr

namespace Sample

/-- Two readings, one second apart, and back again. -/
def oscillating : List (ℕ × ℕ) :=
  [(0, 0), (0, 10 ^ 9), (0, 0), (0, 10 ^ 9)]

theorem oscillating_grants_exceed :
    KeepsBucket 0 limiter oscillating ∧
      (∀ now ∈ instants 0 oscillating, 0 ≤ now ∧ now ≤ 10 ^ 9) ∧
      (1 : ℚ) + 1 * asSecs (10 ^ 9 - 0) <
        grants 0 limiter oscillating := by
  refine ⟨by decide +kernel, by decide, by decide +kernel⟩

theorem steady_grants_le :
    forwardTime (instants 0 requests) = 7 * 10 ^ 9 ∧
      (grants 0 (Limiter.new UInt64.ofNat visitOrder 1 1 2) requests : ℚ) ≤
        (1 : ℕ) + (1 : ℕ) * asSecs (7 * 10 ^ 9 - 0) :=
  ⟨by decide,
    grants_le_of_forwardTime_le UInt64.ofNat visitOrder 1 1 2 0 requests 0
      (7 * 10 ^ 9) (by decide +kernel) (by decide)⟩

end Sample

end RateLimit
