import RuprogressMcp.JsonValue
import RuprogressMcp.TokenVerifier

/-!
# The readiness probe

`/readyz` answers from a probe of the upstream server that it keeps for a
while.  The probe runs with the cache locked, so that requests that come
together share one; with a lifetime of zero the cache is not used and no lock
is taken.  A client may hang up at any moment, which drops its handler and
with it the lock.
-/

namespace RuprogressMcp

namespace Health

/-! ## One probe -/

inductive IntrospectionOutcome where
  | ok
  | misconfigured
  | unreachable
deriving DecidableEq

inductive Readiness where
  | up
  | down
  | notProbed
deriving DecidableEq

inductive ProbeResult where
  | redmine (readiness : Readiness)
  | introspection (outcome : IntrospectionOutcome)
deriving DecidableEq

def ProbeResult.isReady : ProbeResult → Bool
  | redmine readiness => readiness ≠ .down
  | introspection outcome => outcome = .ok

def Readiness.statusCode : Readiness → ℕ
  | up | notProbed => 200
  | down => 503

def ProbeResult.statusCode : ProbeResult → ℕ
  | redmine readiness => readiness.statusCode
  | introspection .ok => 200
  | introspection .misconfigured | introspection .unreachable => 503

def Readiness.label : Readiness → String
  | up => "up"
  | down => "down"
  | notProbed => "not_probed"

def introspectionLabel : IntrospectionOutcome → String
  | .ok => "ok"
  | .misconfigured => "misconfigured"
  | .unreachable => "unreachable"

def ProbeResult.redmineLabel : ProbeResult → String
  | redmine readiness => readiness.label
  | introspection outcome => introspectionLabel outcome

/-- What the server has of its own to probe with. -/
inductive Credential where
  | verifier
  | redmine (usable : Bool)
  | none
deriving DecidableEq

/-- What the upstream server answers a probe, where it answers in time. -/
structure UpstreamAnswer where
  introspect : Option (Except Verifier.ClientError Unit)
  currentUser : Option (Except Unit Unit)

def verifierProbe : Except Verifier.ClientError Unit → IntrospectionOutcome
  | .ok _ => .ok
  | .error error =>
      match Verifier.introspectError error with
      | .misconfigured => .misconfigured
      | .unavailable => .unreachable
      | .invalidToken _ => .ok

def probeIntrospection (answer : UpstreamAnswer) : IntrospectionOutcome :=
  (answer.introspect.map verifierProbe).getD .unreachable

def probeRedmine (credential : Credential) (answer : UpstreamAnswer) : Readiness :=
  match credential with
  | .verifier | .none => .notProbed
  | .redmine false => .down
  | .redmine true =>
      match answer.currentUser with
      | some (.ok _) => .up
      | some (.error _) => .down
      | Option.none => .down

def probe (credential : Credential) (answer : UpstreamAnswer) : ProbeResult :=
  match credential with
  | .verifier => .introspection (probeIntrospection answer)
  | _ => .redmine (probeRedmine credential answer)

structure CachedProbe where
  completed : Instant
  checkedAt : String
  result : ProbeResult
deriving DecidableEq

/-- The status of the answer and its body. -/
def readyz (cached : CachedProbe) : ℕ × JsonObject :=
  let status := if cached.result.isReady then "ready" else "not_ready"
  let body : JsonObject :=
    match cached.result with
    | .redmine _ =>
        [("status", .str status), ("redmine", .str cached.result.redmineLabel),
          ("checked_at", .str cached.checkedAt)]
    | .introspection outcome =>
        [("status", .str status), ("redmine", .str cached.result.redmineLabel),
          ("checks", .obj [("introspection", .str (introspectionLabel outcome))]),
          ("checked_at", .str cached.checkedAt)]
  (cached.result.statusCode, body)

theorem readyz_status_iff (cached : CachedProbe) :
    (readyz cached).1 = 200 ↔
      (readyz cached).2.get "status" = some (.str "ready") := by
  obtain ⟨completed, checkedAt, result⟩ := cached
  rcases result with readiness | outcome
  · cases readiness <;>
      simp [readyz, ProbeResult.statusCode, Readiness.statusCode,
        ProbeResult.isReady, JsonObject.get_cons]
  · cases outcome <;>
      simp [readyz, ProbeResult.statusCode, ProbeResult.isReady,
        JsonObject.get_cons]

/-! ## Requests -/

inductive Task where
  | absent
  | waiting
  | probing (since : Instant)
  | answered (cached : CachedProbe) (at_ : Instant)
  | dropped
deriving DecidableEq

/-- The clock, the cache with the holder of its lock, and the requests; and,
of the past, the completed probes (the latest first), how many were sent, and
how many were given up. -/
structure World (κ : Type) where
  now : Instant
  cache : Option CachedProbe
  holder : Option κ
  tasks : κ → Task
  completed : List CachedProbe
  sent : ℕ
  abandoned : ℕ

inductive Event (κ : Type) where
  | tick (elapsed : Duration)
  | arrive (task : κ)
  | acquire (task : κ)
  | finish (task : κ) (answer : UpstreamAnswer) (checkedAt : String)
  | drop (task : κ)

def World.initial (κ : Type) : World κ where
  now := 0
  cache := none
  holder := none
  tasks := fun _ => .absent
  completed := []
  sent := 0
  abandoned := 0

variable {κ : Type}

/-- The probe that is still good. -/
def World.fresh (ttl : Duration) (world : World κ) : Option CachedProbe :=
  world.cache.filter fun cached => world.now - cached.completed < ttl

theorem World.fresh_eq_some_iff
    {ttl : Duration} {world : World κ} {cached : CachedProbe} :
    world.fresh ttl = some cached ↔
      world.cache = some cached ∧ world.now - cached.completed < ttl := by
  simp [World.fresh, Option.filter_eq_some_iff]

section Steps

variable [DecidableEq κ]

def World.become (world : World κ) (task : κ) (state : Task) : World κ :=
  { world with tasks := Function.update world.tasks task state }

def World.beginProbe (world : World κ) (task : κ) (holder : Option κ) : World κ :=
  { world.become task (.probing world.now) with
    holder := holder
    sent := world.sent + 1 }

def World.complete (world : World κ) (task : κ) (cached : CachedProbe) :
    World κ :=
  { world.become task (.answered cached world.now) with
    completed := cached :: world.completed }

@[simp] theorem World.become_tasks {world : World κ} {task other : κ} {state : Task} :
    (world.become task state).tasks other =
      if other = task then state else world.tasks other := by
  simp [World.become, Function.update_apply]

section Become

variable (world : World κ) (task : κ) (state : Task)

@[simp] theorem World.become_now : (world.become task state).now = world.now := rfl

@[simp] theorem World.become_cache :
    (world.become task state).cache = world.cache := rfl

@[simp] theorem World.become_holder :
    (world.become task state).holder = world.holder := rfl

@[simp] theorem World.become_completed :
    (world.become task state).completed = world.completed := rfl

@[simp] theorem World.become_sent :
    (world.become task state).sent = world.sent := rfl

@[simp] theorem World.become_abandoned :
    (world.become task state).abandoned = world.abandoned := rfl

end Become

/-- One step: time passes, or one request goes on to its next suspension. -/
def next (credential : Credential) (ttl : Duration) (world : World κ) :
    Event κ → Option (World κ)
  | .tick elapsed => some { world with now := world.now + elapsed }
  | .arrive task =>
      if world.tasks task = .absent then
        if ttl = 0 then some (world.beginProbe task none)
        else some (world.become task .waiting)
      else none
  | .acquire task =>
      if world.tasks task = .waiting ∧ world.holder = none then
        match world.fresh ttl with
        | some cached => some (world.become task (.answered cached world.now))
        | none => some (world.beginProbe task (some task))
      else none
  | .finish task answer checkedAt =>
      match world.tasks task with
      | .probing _ =>
          let cached : CachedProbe :=
            ⟨world.now, checkedAt, probe credential answer⟩
          if ttl = 0 then some (world.complete task cached)
          else
            some { world.complete task cached with
              cache := some cached
              holder := none }
      | _ => none
  | .drop task =>
      match world.tasks task with
      | .waiting => some (world.become task .dropped)
      | .probing _ =>
          some { world.become task .dropped with
            holder := if ttl = 0 then world.holder else none
            abandoned := world.abandoned + 1 }
      | _ => none

/-! ## What a step does -/

/-- The effects of the steps, with what each of them finds. -/
inductive Moves (ttl : Duration) (world : World κ) : World κ → Prop
  | tick (elapsed : Duration) :
      Moves ttl world { world with now := world.now + elapsed }
  | wait (task : κ) (hlocking : ttl ≠ 0) (habsent : world.tasks task = .absent) :
      Moves ttl world (world.become task .waiting)
  | leave (task : κ) (hwaiting : world.tasks task = .waiting) :
      Moves ttl world (world.become task .dropped)
  | reuse (task : κ) (cached : CachedProbe)
      (hwaiting : world.tasks task = .waiting)
      (hfresh : world.fresh ttl = some cached) :
      Moves ttl world (world.become task (.answered cached world.now))
  | begin (task : κ) (holder : Option κ)
      (hidle : ∀ since, world.tasks task ≠ .probing since)
      (hlock : ttl = 0 ∧ holder = world.holder ∨
        world.tasks task = .waiting ∧ world.holder = none ∧
          holder = some task ∧ world.fresh ttl = none) :
      Moves ttl world (world.beginProbe task holder)
  | finish (task : κ) (cached : CachedProbe) (since : Instant)
      (hprobing : world.tasks task = .probing since)
      (hcompleted : cached.completed = world.now) :
      Moves ttl world
        { world.complete task cached with
          cache := if ttl = 0 then world.cache else some cached
          holder := if ttl = 0 then world.holder else none }
  | abandon (task : κ) (since : Instant)
      (hprobing : world.tasks task = .probing since) :
      Moves ttl world
        { world.become task .dropped with
          holder := if ttl = 0 then world.holder else none
          abandoned := world.abandoned + 1 }

theorem moves_of_next {credential : Credential} {ttl : Duration}
    {world world' : World κ}
    {event : Event κ} (hholder : ttl = 0 → world.holder = none)
    (hnext : next credential ttl world event = some world') :
    Moves ttl world world' := by
  cases event with
  | tick elapsed =>
      obtain rfl := Option.some.inj hnext
      exact .tick elapsed
  | arrive task =>
      simp only [next] at hnext
      split_ifs at hnext with habsent httl
      · obtain rfl := Option.some.inj hnext
        exact .begin task none (by simp [habsent]) (.inl ⟨httl, (hholder httl).symm⟩)
      · obtain rfl := Option.some.inj hnext
        exact .wait task httl habsent
  | acquire task =>
      simp only [next] at hnext
      split_ifs at hnext with hturn
      cases hfresh : world.fresh ttl with
      | some cached =>
          simp only [hfresh, Option.some.injEq] at hnext
          exact hnext ▸ .reuse task cached hturn.1 hfresh
      | none =>
          simp only [hfresh, Option.some.injEq] at hnext
          exact hnext ▸ .begin task (some task) (by simp [hturn.1])
            (.inr ⟨hturn.1, hturn.2, rfl, hfresh⟩)
  | finish task answer checkedAt =>
      simp only [next] at hnext
      cases hstate : world.tasks task with
      | probing since =>
          simp only [hstate] at hnext
          have hmoves : Moves ttl world _ :=
            .finish task ⟨world.now, checkedAt, probe credential answer⟩ since
              hstate rfl
          split_ifs at hnext with httl
          · obtain rfl := Option.some.inj hnext
            simpa [httl, World.complete, World.become] using hmoves
          · obtain rfl := Option.some.inj hnext
            simpa [httl] using hmoves
      | absent | waiting | answered _ _ | dropped => simp [hstate] at hnext
  | drop task =>
      simp only [next] at hnext
      cases hstate : world.tasks task with
      | probing since =>
          simp only [hstate, Option.some.injEq] at hnext
          exact hnext ▸ .abandon task since hstate
      | waiting =>
          simp only [hstate, Option.some.injEq] at hnext
          exact hnext ▸ .leave task hstate
      | absent | answered _ _ | dropped => simp [hstate] at hnext

end Steps

/-! ## The invariant -/

/-- The lock is held by the request that probes, the cache holds the last
probe, probes lie a lifetime apart, and no answer is older than that. -/
structure Inv (ttl : Duration) (world : World κ) : Prop where
  waiting : ∀ task, world.tasks task = .waiting → ttl ≠ 0
  holder_iff : ∀ task, world.holder = some task ↔
    ttl ≠ 0 ∧ ∃ since, world.tasks task = .probing since
  cache_eq : ttl ≠ 0 → world.cache = world.completed.head?
  spaced : world.completed.Pairwise fun later earlier =>
    earlier.completed + ttl ≤ later.completed
  past : ∀ cached ∈ world.completed, cached.completed ≤ world.now
  probing : ∀ task since, world.tasks task = .probing since →
    since ≤ world.now ∧
      ∀ cached ∈ world.completed, ttl ≠ 0 → cached.completed + ttl ≤ since
  answered : ∀ task cached moment,
    world.tasks task = .answered cached moment →
      cached ∈ world.completed ∧ cached.completed ≤ moment ∧
        (moment = cached.completed ∨ moment < cached.completed + ttl)
  sent : ttl ≠ 0 → world.sent =
    world.completed.length + world.abandoned + world.holder.toList.length

theorem inv_initial (ttl : Duration) : Inv ttl (World.initial κ) := by
  constructor <;> simp [World.initial]

section Facts

variable {ttl : Duration} {world : World κ}

theorem Inv.holder_none (hinv : Inv ttl world) (httl : ttl = 0) :
    world.holder = none := by
  cases hholder : world.holder with
  | none => rfl
  | some task => exact absurd httl ((hinv.holder_iff task).mp hholder).1

theorem Inv.tick (hinv : Inv ttl world) (elapsed : Duration) :
    Inv ttl { world with now := world.now + elapsed } where
  waiting := hinv.waiting
  holder_iff := hinv.holder_iff
  cache_eq := hinv.cache_eq
  spaced := hinv.spaced
  past cached hmem := (hinv.past cached hmem).trans (Nat.le_add_right _ _)
  probing task since hstate :=
    ⟨(hinv.probing task since hstate).1.trans (Nat.le_add_right _ _),
      (hinv.probing task since hstate).2⟩
  answered := hinv.answered
  sent := hinv.sent

/-- While one request probes, under the lock, no other does. -/
theorem Inv.alone (hinv : Inv ttl world) (httl : ttl ≠ 0) {task : κ}
    {since : Instant} (hprobing : world.tasks task = .probing since) {other : κ} {since' : Instant}
    (hother : world.tasks other = .probing since') : other = task := by
  have hfirst := (hinv.holder_iff task).mpr ⟨httl, since, hprobing⟩
  have hsecond := (hinv.holder_iff other).mpr ⟨httl, since', hother⟩
  exact Option.some.inj (hsecond.symm.trans hfirst)

/-- Without a fresh probe all completed ones are a lifetime old. -/
theorem Inv.stale (hinv : Inv ttl world) (httl : ttl ≠ 0)
    (hfresh : world.fresh ttl = none) :
    ∀ cached ∈ world.completed, cached.completed + ttl ≤ world.now := by
  intro cached hmem
  cases hcompleted : world.completed with
  | nil => simp [hcompleted] at hmem
  | cons last earlier =>
      have hcache : world.cache = some last := by
        simp [hinv.cache_eq httl, hcompleted]
      have hlast : last.completed + ttl ≤ world.now := by
        have hnot : ¬ world.now - last.completed < ttl := fun hage =>
          absurd (World.fresh_eq_some_iff.mpr ⟨hcache, hage⟩) (by simp [hfresh])
        have hpast := hinv.past last (by simp [hcompleted])
        lia
      have hspaced := hinv.spaced
      rw [hcompleted] at hmem hspaced
      rcases List.mem_cons.mp hmem with rfl | hearlier
      · exact hlast
      · have hgap := (List.pairwise_cons.mp hspaced).1 cached hearlier
        lia

end Facts

section Preservation

variable [DecidableEq κ] {ttl : Duration} {world : World κ} {task : κ}

/-- A request that is not probing may change its state to another of that
kind, if what it answers is good. -/
theorem Inv.become (hinv : Inv ttl world) {state : Task}
    (hbefore : ∀ since, world.tasks task ≠ .probing since)
    (hafter : ∀ since, state ≠ .probing since)
    (hwaiting : state = .waiting → ttl ≠ 0)
    (hanswer : ∀ cached moment, state = .answered cached moment →
      cached ∈ world.completed ∧ cached.completed ≤ moment ∧
        (moment = cached.completed ∨ moment < cached.completed + ttl)) :
    Inv ttl (world.become task state) where
  waiting other := by
    by_cases hother : other = task
    · simpa [hother] using hwaiting
    · simpa [hother] using hinv.waiting other
  holder_iff other := by
    by_cases hother : other = task
    · have hnot := hinv.holder_iff task
      simp only [hbefore, exists_false, and_false, iff_false] at hnot
      simpa [hother, hafter] using hnot
    · simpa [hother] using hinv.holder_iff other
  cache_eq := hinv.cache_eq
  spaced := hinv.spaced
  past := hinv.past
  probing other since := by
    by_cases hother : other = task
    · simp [hother, hafter]
    · simpa [hother] using hinv.probing other since
  answered other cached moment := by
    by_cases hother : other = task
    · simpa [hother] using hanswer cached moment
    · simpa [hother] using hinv.answered other cached moment
  sent := hinv.sent

theorem Inv.reuse (hinv : Inv ttl world) {cached : CachedProbe}
    (hwaiting : world.tasks task = .waiting)
    (hfresh : world.fresh ttl = some cached) :
    Inv ttl (world.become task (.answered cached world.now)) := by
  obtain ⟨hcache, hage⟩ := World.fresh_eq_some_iff.mp hfresh
  rw [hinv.cache_eq (hinv.waiting task hwaiting)] at hcache
  have hmem : cached ∈ world.completed := List.mem_of_head? hcache
  refine hinv.become (by simp [hwaiting]) (by simp) (by simp) ?_
  intro given moment hstate
  obtain ⟨rfl, rfl⟩ := Task.answered.inj hstate
  exact ⟨hmem, hinv.past _ hmem, .inr (by lia)⟩

theorem Inv.begin (hinv : Inv ttl world) {holder : Option κ}
    (hlock : ttl = 0 ∧ holder = world.holder ∨
      world.tasks task = .waiting ∧ world.holder = none ∧
        holder = some task ∧ world.fresh ttl = none) :
    Inv ttl (world.beginProbe task holder) where
  waiting other := by
    by_cases hother : other = task
    · simp [World.beginProbe, hother]
    · simpa [World.beginProbe, hother] using hinv.waiting other
  holder_iff other := by
    rcases hlock with ⟨httl, rfl⟩ | ⟨hwaiting, hfree, rfl, -⟩
    · simp [World.beginProbe, httl, hinv.holder_none httl]
    · have httl := hinv.waiting task hwaiting
      by_cases hother : other = task
      · simp [World.beginProbe, hother, httl]
      · have hnot := hinv.holder_iff other
        simp only [hfree, reduceCtorEq, false_iff] at hnot
        simpa [World.beginProbe, hother, Ne.symm hother, eq_comm] using hnot
  cache_eq := hinv.cache_eq
  spaced := hinv.spaced
  past := hinv.past
  probing other since := by
    by_cases hother : other = task
    · intro hstate
      obtain rfl : world.now = since := by
        simpa [World.beginProbe, hother] using hstate
      refine ⟨le_rfl, fun cached hmem httl => ?_⟩
      rcases hlock with ⟨hzero, -⟩ | ⟨-, -, -, hfresh⟩
      · exact absurd hzero httl
      · exact hinv.stale httl hfresh cached hmem
    · simpa [World.beginProbe, hother] using hinv.probing other since
  answered other cached moment := by
    by_cases hother : other = task
    · simp [World.beginProbe, hother]
    · simpa [World.beginProbe, hother] using hinv.answered other cached moment
  sent httl := by
    rcases hlock with ⟨hzero, -⟩ | ⟨-, hfree, rfl, -⟩
    · exact absurd hzero httl
    · have hsent := hinv.sent httl
      rw [hfree] at hsent
      simp only [Option.toList_none, List.length_nil] at hsent
      simp [World.beginProbe, World.become, hsent]

theorem Inv.complete (hinv : Inv ttl world) {cached : CachedProbe}
    {since : Instant} (hprobing : world.tasks task = .probing since)
    (hcompleted : cached.completed = world.now) :
    Inv ttl
      { world.complete task cached with
        cache := if ttl = 0 then world.cache else some cached
        holder := if ttl = 0 then world.holder else none } where
  waiting other := by
    by_cases hother : other = task
    · simp [World.complete, hother]
    · simpa [World.complete, hother] using hinv.waiting other
  holder_iff other := by
    by_cases httl : ttl = 0
    · simp [httl, hinv.holder_none httl]
    · by_cases hother : other = task
      · simp [World.complete, hother, httl]
      · have hnot : ∀ since, world.tasks other ≠ .probing since :=
          fun since' hstate => hother (hinv.alone httl hprobing hstate)
        simp [World.complete, hother, httl, hnot]
  cache_eq httl := by simp [World.complete, httl]
  spaced := by
    refine List.pairwise_cons.mpr ⟨fun earlier hearlier => ?_, hinv.spaced⟩
    rw [hcompleted]
    by_cases httl : ttl = 0
    · simpa [httl] using hinv.past earlier hearlier
    · have hprobe := hinv.probing task since hprobing
      exact (hprobe.2 earlier hearlier httl).trans hprobe.1
  past earlier hearlier := by
    rcases List.mem_cons.mp hearlier with rfl | hmem
    · exact hcompleted.le
    · exact hinv.past earlier hmem
  probing other since' := by
    by_cases hother : other = task
    · simp [World.complete, hother]
    · intro hstate
      have hstate' : world.tasks other = .probing since' := by
        simpa [World.complete, hother] using hstate
      refine ⟨(hinv.probing other since' hstate').1, fun earlier _ httl => ?_⟩
      exact absurd (hinv.alone httl hprobing hstate') hother
  answered other given moment := by
    by_cases hother : other = task
    · intro hstate
      obtain ⟨rfl, rfl⟩ : cached = given ∧ world.now = moment := by
        simpa [World.complete, hother] using hstate
      exact ⟨List.mem_cons_self, hcompleted.le, .inl hcompleted.symm⟩
    · intro hstate
      have hgood := hinv.answered other given moment
        (by simpa [World.complete, hother] using hstate)
      exact ⟨List.mem_cons_of_mem _ hgood.1, hgood.2⟩
  sent httl := by
    have hsent := hinv.sent httl
    rw [(hinv.holder_iff task).mpr ⟨httl, since, hprobing⟩] at hsent
    simp only [Option.toList_some, List.length_singleton] at hsent
    simp only [World.complete, World.become_sent, World.become_abandoned, httl,
      if_false, Option.toList_none, List.length_nil, List.length_cons]
    lia

theorem Inv.abandon (hinv : Inv ttl world) {since : Instant}
    (hprobing : world.tasks task = .probing since) :
    Inv ttl
      { world.become task .dropped with
        holder := if ttl = 0 then world.holder else none
        abandoned := world.abandoned + 1 } where
  waiting other := by
    by_cases hother : other = task
    · simp [hother]
    · simpa [hother] using hinv.waiting other
  holder_iff other := by
    by_cases httl : ttl = 0
    · simp [httl, hinv.holder_none httl]
    · by_cases hother : other = task
      · simp [hother, httl]
      · have hnot : ∀ since, world.tasks other ≠ .probing since :=
          fun since' hstate => hother (hinv.alone httl hprobing hstate)
        simp [hother, httl, hnot]
  cache_eq := hinv.cache_eq
  spaced := hinv.spaced
  past := hinv.past
  probing other since' := by
    by_cases hother : other = task
    · simp [hother]
    · simpa [hother] using hinv.probing other since'
  answered other given moment := by
    by_cases hother : other = task
    · simp [hother]
    · simpa [hother] using hinv.answered other given moment
  sent httl := by
    have hsent := hinv.sent httl
    rw [(hinv.holder_iff task).mpr ⟨httl, since, hprobing⟩] at hsent
    simp only [Option.toList_some, List.length_singleton] at hsent
    simp only [World.become_sent, World.become_completed, httl, if_false,
      Option.toList_none, List.length_nil]
    lia

theorem Inv.moves {world' : World κ} (hinv : Inv ttl world)
    (hmoves : Moves ttl world world') : Inv ttl world' := by
  cases hmoves with
  | tick elapsed => exact hinv.tick elapsed
  | wait task hlocking habsent =>
      exact hinv.become (by simp [habsent]) (by simp) (fun _ => hlocking) (by simp)
  | leave task hwaiting =>
      exact hinv.become (by simp [hwaiting]) (by simp) (by simp) (by simp)
  | reuse task cached hwaiting hfresh => exact hinv.reuse hwaiting hfresh
  | begin task holder hidle hlock => exact hinv.begin hlock
  | finish task cached since hprobing hcompleted =>
      exact hinv.complete hprobing hcompleted
  | abandon task since hprobing => exact hinv.abandon hprobing

end Preservation

/-! ## Runs -/

section Runs

variable [DecidableEq κ] {credential : Credential} {ttl : Duration}

theorem inv_run
    (run : Transition.Run (next credential ttl) (World.initial κ)) (n : ℕ) :
    Inv ttl (run.state n) :=
  run.invariant (Inv ttl) (inv_initial ttl)
    (fun _ _ _ hinv hnext => hinv.moves (moves_of_next hinv.holder_none hnext)) n

/-- Probes that lie a lifetime apart are few. -/
theorem length_of_spaced
    {completed : List CachedProbe} {moment : Instant}
    (hspaced : completed.Pairwise fun later earlier =>
      earlier.completed + ttl ≤ later.completed)
    (hpast : ∀ cached ∈ completed, cached.completed + ttl ≤ moment) :
    completed.length * ttl ≤ moment := by
  induction completed generalizing moment with
  | nil => simp
  | cons last earlier ih =>
      obtain ⟨hgap, hrest⟩ := List.pairwise_cons.mp hspaced
      have hlast := hpast last List.mem_cons_self
      have hearlier := ih hrest hgap
      rw [List.length_cons, Nat.add_one_mul]
      exact (Nat.add_le_add_right hearlier ttl).trans hlast

/-- With a lifetime, at most one probe is under way at a time, each begins a
lifetime after every completed one ended, and an answer comes from a probe that ended
less than a lifetime before. -/
theorem single_flight
    (run : Transition.Run (next credential ttl) (World.initial κ))
    (httl : 0 < ttl) (n : ℕ) :
    (∀ first second since since',
      (run.state n).tasks first = .probing since →
        (run.state n).tasks second = .probing since' → first = second) ∧
    (∀ task since, (run.state n).tasks task = .probing since →
      ∀ cached ∈ (run.state n).completed, cached.completed + ttl ≤ since) ∧
    ∀ task cached moment, (run.state n).tasks task = .answered cached moment →
      cached ∈ (run.state n).completed ∧ cached.completed ≤ moment ∧
        moment < cached.completed + ttl := by
  have hinv := inv_run run n
  have hne : ttl ≠ 0 := httl.ne'
  refine ⟨?_, ?_, ?_⟩
  · intro first second since since' hfirst hsecond
    exact hinv.alone hne hsecond hfirst
  · intro task since hprobing cached hmem
    exact (hinv.probing task since hprobing).2 cached hmem hne
  · intro task cached moment hanswered
    obtain ⟨hmem, hle, hage⟩ := hinv.answered task cached moment hanswered
    refine ⟨hmem, hle, ?_⟩
    rcases hage with rfl | hage
    · exact Nat.lt_add_of_pos_right httl
    · exact hage

/-- However many requests come, the probes sent are at most one for each
lifetime, the first one, and those that were given up half way. -/
theorem probes_bounded
    (run : Transition.Run (next credential ttl) (World.initial κ))
    (httl : 0 < ttl) (n : ℕ) :
    (run.state n).sent ≤
      (run.state n).now / ttl + 1 + (run.state n).abandoned := by
  have hinv := inv_run run n
  have hne : ttl ≠ 0 := httl.ne'
  have hsent := hinv.sent hne
  cases hholder : (run.state n).holder with
  | some task =>
      obtain ⟨-, since, hprobing⟩ := (hinv.holder_iff task).mp hholder
      obtain ⟨hsince, hgap⟩ := hinv.probing task since hprobing
      have hfew := length_of_spaced hinv.spaced
        fun cached hmem => (hgap cached hmem hne).trans hsince
      rw [← Nat.le_div_iff_mul_le httl] at hfew
      simp only [hholder, Option.toList_some, List.length_singleton] at hsent
      lia
  | none =>
      have hfew : (run.state n).completed.length ≤ (run.state n).now / ttl + 1 := by
        have hpast : (run.state n).completed.length * ttl ≤
            (run.state n).now + ttl :=
          length_of_spaced hinv.spaced fun cached hmem =>
            Nat.add_le_add_right (hinv.past cached hmem) ttl
        rw [← Nat.le_div_iff_mul_le httl, Nat.add_div_right _ httl] at hpast
        exact hpast
      simp only [hholder, Option.toList_none, List.length_nil] at hsent
      lia

end Runs

namespace Sample

/-- Two requests come, and the first one gets the lock. -/
def requests : List (Event ℕ) := [.arrive 0, .arrive 1, .acquire 0]

def run : Transition.Run (next .verifier (seconds 30)) (World.initial ℕ) :=
  Transition.Run.ofLabels _ _ requests (.tick 0) (fun _ => rfl) rfl

theorem second_request_waits :
    (run.state 3).tasks 0 = .probing 0 ∧
      ∀ since, (run.state 3).tasks 1 ≠ .probing since := by
  have hfirst : (run.state 3).tasks 0 = .probing 0 := rfl
  refine ⟨hfirst, fun since hsecond => ?_⟩
  have hsame := (single_flight run (by decide) 3).1 _ _ _ _ hfirst hsecond
  exact absurd hsame (by decide)

theorem one_probe_sent :
    (run.state 3).sent ≤ (run.state 3).now / seconds 30 + 1 +
      (run.state 3).abandoned :=
  probes_bounded run (by decide) 3

end Sample

end Health

end RuprogressMcp
