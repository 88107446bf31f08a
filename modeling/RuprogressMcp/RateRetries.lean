import RuprogressMcp.RateGrants

/-!
# Retrying after a denial

A bucket never owes tokens, so a denied caller lacks at most one, and at a
rate of one token a second or more the wait that `take` announces makes up
for it.  The bucket may be swept or evicted meanwhile; a new one is full.
The `limited` flag of a bucket is what the two transition flags report, and a
bucket without the flag is all that a sweep removes.
-/

namespace RateLimit

variable {K : Type} [DecidableEq K]

/-- What a decision reports to have changed for its key. -/
inductive Change where
  | newlyLimited
  | recovered
deriving DecidableEq, Repr

def Decision.change : Decision → Option Change
  | .allow true => some .recovered
  | .allow false => none
  | .deny _ true => some .newlyLimited
  | .deny _ false => none

def changes (decisions : List Decision) : List Change :=
  decisions.filterMap Decision.change

/-- The decisions on the requests of a key. -/
def keyDecisions (key : K) : Limiter K → List (K × ℕ) → List Decision
  | _, [] => []
  | limiter, request :: rest =>
      if request.1 = key then
        (limiter.answer request).1 ::
          keyDecisions key (limiter.answer request).2 rest
      else
        keyDecisions key (limiter.answer request).2 rest

/-- No run of `evict_oldest` takes the bucket of the key away.  A sweep may. -/
def NeverEvicted (key : K) (limiter : Limiter K) (requests : List (K × ℕ)) :
    Prop :=
  Mealy.Along Limiter.answer
    (fun limiter request => limiter.EvictsOldest request.1 request.2 →
      (limiter.find key).isSome = true →
        ((limiter.answer request).2.find key).isSome = true)
    limiter requests

instance (key : K) (limiter : Limiter K) (requests : List (K × ℕ)) :
    Decidable (NeverEvicted key limiter requests) :=
  inferInstanceAs (Decidable (Mealy.Along _ _ _ _))

/-! ## One bucket -/

namespace Bucket

variable {bucket : Bucket} {now later : ℕ} {refillPerSec capacity : ℚ}

theorem retryAfterSecs_eq_one {wait : ℚ} (hwait : wait ≤ 1) :
    retryAfterSecs (some wait) = 1 := by
  have hclamp : max 1 (min wait u64Max) = 1 :=
    max_eq_left (le_trans (min_le_left _ _) hwait)
  rw [retryAfterSecs, hclamp, Int.ceil_one]
  decide

theorem take_allow
    (henough : 1 ≤ bucket.tokens + bucket.refilled now refillPerSec)
    (hcapacity : 1 ≤ capacity) :
    (bucket.take now refillPerSec capacity).1 = .allow bucket.limited := by
  have hfilled : 1 ≤ min (bucket.tokens + bucket.refilled now refillPerSec)
      capacity := le_min henough hcapacity
  simp only [take, hfilled, if_true]

/-- A denied caller is told to wait for one second, and the bucket then
stands where it stood. -/
theorem take_deny
    {secs : ℕ} {newly : Bool} (htokens : 0 ≤ bucket.tokens)
    (hrefill : 1 ≤ refillPerSec) (hcapacity : 1 ≤ capacity)
    (hdeny : (bucket.take now refillPerSec capacity).1 = .deny secs newly) :
    secs = 1 ∧
      0 ≤ (bucket.take now refillPerSec capacity).2.tokens ∧
      (bucket.take now refillPerSec capacity).2.updatedAt = now := by
  obtain ⟨hleft, hupdated, -⟩ := bucket.take_balance now htokens
    (show 0 ≤ refillPerSec by linarith) (show 0 ≤ capacity by linarith)
  refine ⟨?_, hleft, hupdated⟩
  simp only [take] at hdeny hleft
  split at hdeny
  next => cases hdeny
  next hshort =>
    rw [if_neg hshort] at hleft
    simp only [Decision.deny.injEq] at hdeny
    have hpositive : 0 < refillPerSec := by linarith
    rw [← hdeny.1, waitSecs, if_pos hpositive]
    apply retryAfterSecs_eq_one
    rw [div_le_one hpositive]
    linarith

end Bucket

/-! ## Every bucket of a run -/

/-- The limiter has these rates and none of its buckets owes tokens. -/
structure Solvent (rps burst : ℕ) (limiter : Limiter K) : Prop where
  capacity : limiter.capacity = burst
  refillPerSec : limiter.refillPerSec = rps
  tokens : ∀ key bucket, limiter.find key = some bucket → 0 ≤ bucket.tokens

namespace Solvent

variable {rps burst : ℕ} {limiter : Limiter K}

theorem current (hsolvent : Solvent rps burst limiter) (key : K) (now : ℕ) :
    0 ≤ (limiter.current key now).tokens := by
  unfold Limiter.current
  cases hfind : limiter.find key with
  | some bucket => exact hsolvent.tokens key bucket hfind
  | none =>
      rw [hsolvent.capacity]
      exact Nat.cast_nonneg burst

theorem answer (hsolvent : Solvent rps burst limiter) (request : K × ℕ) :
    Solvent rps burst (limiter.answer request).2 where
  capacity := Limiter.check_capacity.trans hsolvent.capacity
  refillPerSec := Limiter.check_refillPerSec.trans hsolvent.refillPerSec
  tokens := by
    obtain ⟨asker, now⟩ := request
    intro key bucket hfind
    by_cases hasker : key = asker
    · subst asker
      rw [Limiter.answer, limiter.find_check_self key now] at hfind
      cases hfind
      refine ((limiter.current key now).take_balance now
        (hsolvent.current key now) ?_ ?_).1
      · rw [hsolvent.refillPerSec]
        exact Nat.cast_nonneg rps
      · rw [hsolvent.capacity]
        exact Nat.cast_nonneg burst
    · rcases limiter.find_check_other_or_none now hasker with hsame | hgone
      · exact hsolvent.tokens key bucket (hsame ▸ hfind)
      · rw [Limiter.answer, hgone] at hfind
        cases hfind

theorem new
    (hasher : K → UInt64) (order : VisitOrder K) (rps burst maxKeys : ℕ) :
    Solvent rps burst (Limiter.new hasher order rps burst maxKeys) where
  capacity := rfl
  refillPerSec := rfl
  tokens := by
    intro key bucket hfind
    rw [Limiter.find_new] at hfind
    cases hfind

theorem final (hsolvent : Solvent rps burst limiter)
    (requests : List (K × ℕ)) :
    Solvent rps burst (Mealy.final Limiter.answer limiter requests) :=
  Mealy.final_invariant (Solvent rps burst)
    (fun _ request hgood => hgood.answer request) hsolvent requests

end Solvent

/-- Requests of other keys leave a bucket alone or remove it. -/
theorem find_final_of_others
    {key : K} (limiter : Limiter K) {requests : List (K × ℕ)}
    (hothers : ∀ request ∈ requests, request.1 ≠ key) :
    (Mealy.final Limiter.answer limiter requests).find key =
        limiter.find key ∨
      (Mealy.final Limiter.answer limiter requests).find key = none := by
  induction requests generalizing limiter with
  | nil => exact Or.inl rfl
  | cons request rest ih =>
      have hfirst : key ≠ request.1 :=
        (hothers request List.mem_cons_self).symm
      have hrest := ih (limiter.answer request).2
        fun other hmem => hothers other (List.mem_cons_of_mem _ hmem)
      rcases hrest with hsame | hgone
      · rcases limiter.find_check_other_or_none request.2 hfirst with
          hkept | hlost
        · exact Or.inl (hsame.trans hkept)
        · exact Or.inr (hsame.trans hlost)
      · exact Or.inr hgone

/-- The wait that a denial announces is enough. -/
theorem Solvent.allows_after_wait
    {rps burst : ℕ} {limiter : Limiter K} (hsolvent : Solvent rps burst limiter)
    (hrps : 1 ≤ rps) (hburst : rps ≤ burst)
    {key : K} {now later secs : ℕ} {newly : Bool} {between : List (K × ℕ)}
    (hdeny : (limiter.check key now).1 = .deny secs newly)
    (hothers : ∀ request ∈ between, request.1 ≠ key)
    (hwait : now + secs * 10 ^ 9 ≤ later) :
    ∃ recovered,
      ((Mealy.final Limiter.answer (limiter.check key now).2 between).check
        key later).1 = .allow recovered := by
  have hrefill : (1 : ℚ) ≤ limiter.refillPerSec := by
    rw [hsolvent.refillPerSec]
    exact_mod_cast hrps
  have hcapacity : (1 : ℚ) ≤ limiter.capacity := by
    rw [hsolvent.capacity]
    exact_mod_cast hrps.trans hburst
  have hend : Solvent rps burst
      (Mealy.final Limiter.answer (limiter.check key now).2 between) :=
    (hsolvent.answer (key, now)).final between
  rw [Limiter.check_eq] at hdeny
  obtain ⟨rfl, hleft, hupdated⟩ := Bucket.take_deny
    (hsolvent.current key now) hrefill hcapacity hdeny
  rw [Limiter.check_eq]
  refine ⟨_, Bucket.take_allow ?_ ?_⟩
  · rw [Limiter.current]
    rcases find_final_of_others (limiter.check key now).2 hothers with hsame | hgone
    · rw [hsame, limiter.find_check_self key now, Option.getD_some,
        Bucket.refilled, hupdated, hend.refillPerSec, ← hsolvent.refillPerSec]
      have helapsed : 1 ≤ asSecs (later - now) := by
        have hsecond : asSecs (10 ^ 9) = 1 := by norm_num [asSecs]
        rw [← hsecond]
        exact asSecs_mono (by omega)
      have hgain : 1 ≤ asSecs (later - now) * limiter.refillPerSec :=
        one_le_mul_of_one_le_of_one_le helapsed hrefill
      exact le_add_of_nonneg_of_le hleft hgain
    · rw [hgone, Option.getD_none, hend.capacity, ← hsolvent.capacity]
      have hgain := (Bucket.new limiter.capacity later).refilled_nonneg later
        (show (0 : ℚ) ≤ (rps : ℚ) from Nat.cast_nonneg rps)
      rw [hend.refillPerSec]
      exact le_add_of_le_of_nonneg hcapacity hgain
  · rw [hend.capacity, ← hsolvent.capacity]
    exact hcapacity

/-! ## The transition flags -/

/-- The decisions report the moves of a flag, from a given position. -/
def ReportsFlag : Bool → List Decision → Prop
  | _, [] => True
  | limited, .allow recovered :: rest =>
      recovered = limited ∧ ReportsFlag false rest
  | limited, .deny _ newly :: rest =>
      newly = !limited ∧ ReportsFlag true rest

theorem Bucket.reportsFlag_take
    (bucket : Bucket) (now : ℕ) (refillPerSec capacity : ℚ)
    {rest : List Decision}
    (hrest : ReportsFlag (bucket.take now refillPerSec capacity).2.limited
      rest) :
    ReportsFlag bucket.limited
      ((bucket.take now refillPerSec capacity).1 :: rest) := by
  simp only [take] at hrest ⊢
  split at hrest
  next henough =>
    rw [if_pos henough]
    exact ⟨rfl, hrest⟩
  next hshort =>
    rw [if_neg hshort]
    exact ⟨rfl, hrest⟩

/-- The flag of a key; a key without a bucket has none. -/
def Limiter.flag (limiter : Limiter K) (key : K) : Bool :=
  (limiter.find key).any Bucket.limited

theorem Limiter.current_limited
    (limiter : Limiter K) (key : K) (now : ℕ) :
    (limiter.current key now).limited = limiter.flag key := by
  unfold current flag
  cases limiter.find key <;> rfl

/-- A request of another key moves no flag, unless it evicts the bucket. -/
theorem Limiter.flag_check_other
    {limiter : Limiter K} {key asker : K} {now : ℕ} (hasker : key ≠ asker)
    (hkept : limiter.EvictsOldest asker now →
      (limiter.find key).isSome = true →
        ((limiter.check asker now).2.find key).isSome = true) :
    (limiter.check asker now).2.flag key = limiter.flag key := by
  by_cases hroom : limiter.EvictsOldest asker now
  · unfold flag
    rcases limiter.find_check_other_or_none now hasker with hsame | hgone
    · rw [hsame]
    · cases hfind : limiter.find key with
      | none => rw [hgone]
      | some bucket =>
          have hstill := hkept hroom (by rw [hfind]; rfl)
          rw [hgone] at hstill
          cases hstill
  · rcases Limiter.find_check_other hasker hroom with
      hsame | ⟨hgone, bucket, hfind, hpristine⟩
    · rw [flag, hsame, flag]
    · rw [flag, hgone, flag, hfind]
      exact (Bucket.isPristine_iff.mp hpristine).1.symm

theorem reportsFlag_keyDecisions
    {key : K} {limiter : Limiter K} {requests : List (K × ℕ)}
    (hkept : NeverEvicted key limiter requests) :
    ReportsFlag (limiter.flag key) (keyDecisions key limiter requests) := by
  induction requests generalizing limiter with
  | nil => trivial
  | cons request rest ih =>
      obtain ⟨asker, now⟩ := request
      obtain ⟨hfirst, hrest⟩ := hkept
      by_cases hasker : asker = key
      · subst asker
        have hnext := ih hrest
        have hflag : (limiter.check key now).2.flag key =
            ((limiter.current key now).take now
              limiter.refillPerSec limiter.capacity).2.limited := by
          rw [Limiter.flag, limiter.find_check_self key now]
          rfl
        rw [Limiter.answer, hflag] at hnext
        rw [keyDecisions, if_pos rfl, ← limiter.current_limited key now,
          Limiter.answer, show (limiter.check key now).1 = _ from
            congrArg Prod.fst (limiter.check_eq key now)]
        exact Bucket.reportsFlag_take _ _ _ _ hnext
      · rw [keyDecisions, if_neg hasker]
        have hflag := Limiter.flag_check_other (Ne.symm hasker) hfirst
        rw [← hflag]
        exact ih hrest

/-- The change that comes first when the flag stands so. -/
def nextChange : Bool → Change
  | false => .newlyLimited
  | true => .recovered

theorem ReportsFlag.head?_changes
    {limited : Bool} {decisions : List Decision}
    (hreports : ReportsFlag limited decisions) :
    ∀ change ∈ (changes decisions).head?, change = nextChange limited := by
  induction decisions generalizing limited with
  | nil => simp [changes]
  | cons decision rest ih =>
      cases decision with
      | allow recovered =>
          obtain ⟨rfl, hrest⟩ := hreports
          cases recovered with
          | false => exact ih hrest
          | true => simp [changes, Decision.change, nextChange]
      | deny secs newly =>
          obtain ⟨rfl, hrest⟩ := hreports
          cases limited with
          | false => simp [changes, Decision.change, nextChange]
          | true => exact ih hrest

theorem ReportsFlag.changes_alternate
    {limited : Bool} {decisions : List Decision}
    (hreports : ReportsFlag limited decisions) :
    (changes decisions).IsChain (fun earlier later => earlier ≠ later) := by
  induction decisions generalizing limited with
  | nil => exact List.isChain_nil
  | cons decision rest ih =>
      cases decision with
      | allow recovered =>
          obtain ⟨rfl, hrest⟩ := hreports
          cases recovered with
          | false => exact ih hrest
          | true =>
              refine List.isChain_cons.mpr ⟨?_, ih hrest⟩
              intro change hchange
              rw [hrest.head?_changes change hchange]
              decide
      | deny secs newly =>
          obtain ⟨rfl, hrest⟩ := hreports
          cases limited with
          | false =>
              refine List.isChain_cons.mpr ⟨?_, ih hrest⟩
              intro change hchange
              rw [hrest.head?_changes change hchange]
              decide
          | true => exact ih hrest

theorem getLast?_changes_cons
    {decision : Decision} {rest : List Decision} {change : Change}
    (hlast : (changes rest).getLast? = some change) :
    (changes (decision :: rest)).getLast? = some change := by
  have hsplit : changes (decision :: rest) =
      decision.change.toList ++ changes rest := by
    simp only [changes, List.filterMap_cons]
    cases decision.change <;> rfl
  rw [hsplit, List.getLast?_append, hlast, Option.some_or]

/-- A denial comes after the flag was raised, and before it falls again. -/
theorem ReportsFlag.getLast?_changes_of_deny
    {limited : Bool} {before after : List Decision} {secs : ℕ} {newly : Bool}
    (hreports : ReportsFlag limited (before ++ .deny secs newly :: after)) :
    (changes (before ++ [.deny secs newly])).getLast? =
        some .newlyLimited ∨
      (limited = true ∧ changes (before ++ [.deny secs newly]) = []) := by
  induction before generalizing limited with
  | nil =>
      obtain ⟨rfl, -⟩ := hreports
      cases limited with
      | false => exact Or.inl rfl
      | true => exact Or.inr ⟨rfl, rfl⟩
  | cons decision rest ih =>
      cases decision with
      | allow recovered =>
          obtain ⟨-, hrest⟩ := hreports
          rcases ih hrest with hlast | ⟨hflag, -⟩
          · exact Or.inl (getLast?_changes_cons hlast)
          · cases hflag
      | deny first raised =>
          obtain ⟨rfl, hrest⟩ := hreports
          rcases ih hrest with hlast | ⟨-, hnone⟩
          · exact Or.inl (getLast?_changes_cons hlast)
          · cases limited with
            | false =>
                left
                rw [List.cons_append, changes, List.filterMap_cons]
                exact congrArg List.getLast?
                  (congrArg (List.cons Change.newlyLimited) hnone)
            | true => exact Or.inr ⟨rfl, hnone⟩

/-- The wait of a denial is enough whatever happens to other keys, and the
transition flags of a key that is never evicted take turns around its
denials. -/
theorem wait_suffices_and_flags_alternate
    (hasher : K → UInt64) (order : VisitOrder K) (rps burst maxKeys : ℕ)
    (hrps : 1 ≤ rps) (hburst : rps ≤ burst) (key : K) :
    (∀ (before between : List (K × ℕ)) (now later secs : ℕ) (newly : Bool),
      ((Mealy.final Limiter.answer
          (Limiter.new hasher order rps burst maxKeys) before).check
        key now).1 = .deny secs newly →
      (∀ request ∈ between, request.1 ≠ key) →
      now + secs * 10 ^ 9 ≤ later →
      ∃ recovered,
        ((Mealy.final Limiter.answer
            (Limiter.new hasher order rps burst maxKeys)
            (before ++ (key, now) :: between)).check key later).1 =
          .allow recovered) ∧
    ∀ requests : List (K × ℕ),
      NeverEvicted key (Limiter.new hasher order rps burst maxKeys)
        requests →
      ∀ decisions, decisions = keyDecisions key
        (Limiter.new hasher order rps burst maxKeys) requests →
      (changes decisions).IsChain (fun earlier later => earlier ≠ later) ∧
      (∀ change ∈ (changes decisions).head?, change = .newlyLimited) ∧
      ∀ before after secs newly,
        decisions = before ++ .deny secs newly :: after →
        (changes (before ++ [.deny secs newly])).getLast? =
          some .newlyLimited := by
  constructor
  · intro before between now later secs newly hdeny hothers hwait
    have hsolvent :=
      (Solvent.new hasher order rps burst maxKeys).final before
    rw [Mealy.final_append]
    exact hsolvent.allows_after_wait hrps hburst hdeny hothers hwait
  · rintro requests hkept decisions rfl
    have hreports := reportsFlag_keyDecisions hkept
    have hflag : (Limiter.new hasher order rps burst maxKeys).flag key =
        false := by
      rw [Limiter.flag, Limiter.find_new]
      rfl
    rw [hflag] at hreports
    refine ⟨hreports.changes_alternate, hreports.head?_changes, ?_⟩
    intro before after secs newly hsplit
    rw [hsplit] at hreports
    rcases hreports.getLast?_changes_of_deny with hlast | ⟨habsurd, -⟩
    · exact hlast
    · cases habsurd

namespace Sample

theorem denied_key_recovers :
    keyDecisions 0 limiter requests =
        [.allow false, .deny 1 true, .allow true, .allow false] ∧
      (∃ recovered, ((Mealy.final Limiter.answer limiter
        ([(0, 0)] ++ (0, 1) :: [(1, 5 * 10 ^ 8)])).check 0
          (1 + 1 * 10 ^ 9)).1 = .allow recovered) ∧
      (changes (keyDecisions 0 limiter requests)).IsChain
        (fun earlier later => earlier ≠ later) :=
  ⟨by decide +kernel,
    (wait_suffices_and_flags_alternate UInt64.ofNat visitOrder 1 1 1
      (by decide) (by decide) 0).1 [(0, 0)] [(1, 5 * 10 ^ 8)] 1 _ 1 true
        (by decide +kernel) (by decide) le_rfl,
    ((wait_suffices_and_flags_alternate UInt64.ofNat visitOrder 1 1 1
      (by decide) (by decide) 0).2 requests (by decide +kernel) _ rfl).1⟩

end Sample

end RateLimit
