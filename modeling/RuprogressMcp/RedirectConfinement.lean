import RuprogressMcp.RedmineApi

/-!
# Where the credential of the client goes

Every attempt of a request may be redirected.  The client follows a redirect
to the origin of its base, at most ten times, and hands any other redirect
back as the answer.  The credential goes with every request of such a chain,
so the chains of all attempts have to stay on the origin of the base, whatever
the servers answer.
-/

namespace RedmineClient

open UrlJoin

/-! ## Origins -/

structure Origin where
  scheme : String
  host : String
  port : ℕ
deriving DecidableEq

/-- `none` is an origin that equals no other. -/
def origin (url : Url) : Option Origin :=
  if isSpecial url.scheme.toList then
    match url.host, url.portOrKnownDefault with
    | some host, some port => some ⟨url.scheme, host, port⟩
    | _, _ => none
  else none

def Origin.asciiSerialization (origin : Origin) : String :=
  if Url.knownDefaultPort origin.scheme = some origin.port then
    origin.scheme ++ "://" ++ origin.host
  else origin.scheme ++ "://" ++ origin.host ++ ":" ++ toString origin.port

def originText (url : Url) : String :=
  match origin url with
  | some origin => origin.asciiSerialization
  | none => "null"

def isTrustedOrigin (base candidate : Url) : Bool :=
  (candidate.scheme = "http" || candidate.scheme = "https") &&
    match origin candidate, origin base with
    | some first, some second => first = second
    | _, _ => false

/-- What a server is known by. -/
structure SameOrigin (base url : Url) : Prop where
  scheme : url.scheme = base.scheme
  host : url.host = base.host
  port : url.portOrKnownDefault = base.portOrKnownDefault

theorem sameOrigin_of_trusted {base candidate : Url}
    (htrusted : isTrustedOrigin base candidate = true) :
    SameOrigin base candidate := by
  rw [isTrustedOrigin, Bool.and_eq_true] at htrusted
  obtain ⟨-, horigins⟩ := htrusted
  split at horigins
  next first second hfirst hsecond =>
    obtain rfl := of_decide_eq_true horigins
    unfold origin at hfirst hsecond
    split_ifs at hfirst hsecond
    split at hfirst
    next host port hhost hport =>
      split at hsecond
      next host' port' hhost' hport' =>
        cases hfirst
        simp only [Option.some.injEq, Origin.mk.injEq] at hsecond
        obtain ⟨hscheme, hhosts, hports⟩ := hsecond
        exact ⟨hscheme.symm, by rw [hhost, hhost', hhosts],
          by rw [hport, hport', hports]⟩
      next => cases hsecond
    next => cases hfirst
  next => cases horigins

theorem isTrustedOrigin_of_sameOrigin {base url : Url} (hbase : IsApiBase base)
    (hsame : SameOrigin base url) : isTrustedOrigin base url = true := by
  obtain ⟨host, hhost⟩ := Option.isSome_iff_exists.mp hbase.host
  have hport : ∃ port, base.portOrKnownDefault = some port := by
    unfold Url.portOrKnownDefault
    cases base.port with
    | some port => exact ⟨port, rfl⟩
    | none =>
        rcases hbase.scheme with hscheme | hscheme
        · exact ⟨80, by rw [hscheme]; rfl⟩
        · exact ⟨443, by rw [hscheme]; rfl⟩
  obtain ⟨port, hport⟩ := hport
  have hspecial : isSpecial base.scheme.toList = true := by
    rcases hbase.scheme with hscheme | hscheme
    · rw [hscheme]
      rfl
    · rw [hscheme]
      rfl
  have horigin : origin url = origin base := by
    rw [origin, origin, hsame.scheme, hsame.host, hsame.port]
  have hsome : origin base = some ⟨base.scheme, host, port⟩ := by
    rw [origin, if_pos hspecial, hhost, hport]
  rw [isTrustedOrigin, horigin, hsome, hsame.scheme]
  rcases hbase.scheme with hscheme | hscheme <;> simp [hscheme]

/-! ## Redirects -/

inductive RedirectAction where
  | follow | stop | error
deriving DecidableEq

/-- The policy that `build` installs.  `previous` are the requests of the
chain so far, the first one included. -/
def redirectPolicy (base next : Url) (previous : List Url) : RedirectAction :=
  if isTrustedOrigin base next then
    if 10 < previous.length then .error else .follow
  else .stop

/-- The servers during one attempt: for the requests of a chain, the reply to
the last of them, and the URL that it redirects to if it is a redirect. -/
structure Network where
  leads : List Url → Option Url
  reply : List Url → Retry.Reply
  redirects : ∀ sent next, leads sent = some next →
    ∃ status header body, reply sent = .response status header body ∧
      300 ≤ status ∧ status < 400

/-- How `reqwest` goes on with a chain of requests under a policy: it asks the
policy about every redirect, and hands back the reply, with the requests that
were sent for it.  The policy's error is neither a timeout nor a failed
connection. -/
inductive Follows (policy : Url → List Url → RedirectAction)
    (network : Network) : List Url → Retry.Reply × List Url → Prop where
  | answer {sent : List Url} (hleads : network.leads sent = none) :
      Follows policy network sent (network.reply sent, sent)
  | follow {sent : List Url} {next : Url} {outcome : Retry.Reply × List Url}
      (hleads : network.leads sent = some next)
      (hpolicy : policy next sent = .follow)
      (hrest : Follows policy network (sent ++ [next]) outcome) :
      Follows policy network sent outcome
  | stop {sent : List Url} {next : Url}
      (hleads : network.leads sent = some next)
      (hpolicy : policy next sent = .stop) :
      Follows policy network sent (network.reply sent, sent)
  | error {sent : List Url} {next : Url}
      (hleads : network.leads sent = some next)
      (hpolicy : policy next sent = .error) :
      Follows policy network sent (.failed false false, sent)

/-- The redirect loop of `reqwest`.  An attempt ends if its policy lets no
chain grow for ever. -/
structure RedirectLoop where
  run : (Url → List Url → RedirectAction) → Network → Url →
    Option (Retry.Reply × List Url)
  follows : ∀ policy network url outcome,
    run policy network url = some outcome →
      Follows policy network [url] outcome
  returns : ∀ policy network url,
    (∀ next sent, 10 < sent.length → policy next sent ≠ .follow) →
      ∃ outcome, run policy network url = some outcome

/-- A chain from a URL that stays on the origin of the base. -/
structure Confined (base url : Url) (sent : List Url) : Prop where
  start : sent.head? = some url
  length : sent.length ≤ 11
  trusted : ∀ hop ∈ sent, isTrustedOrigin base hop = true

theorem redirectPolicy_eq_follow {base next : Url} {sent : List Url} :
    redirectPolicy base next sent = .follow ↔
      isTrustedOrigin base next = true ∧ sent.length ≤ 10 := by
  unfold redirectPolicy
  split_ifs with htrusted hmany
  · exact ⟨nofun, fun ⟨_, hfew⟩ => absurd hmany (by omega)⟩
  · exact ⟨fun _ => ⟨htrusted, by omega⟩, fun _ => rfl⟩
  · exact ⟨nofun, fun ⟨htrusted', _⟩ => absurd htrusted' htrusted⟩

/-- The policy of the client confines a chain, and a redirect that leads
elsewhere is the answer. -/
theorem Follows.confined
    {base url : Url} {network : Network} {sent : List Url}
    {outcome : Retry.Reply × List Url}
    (hfollows : Follows (redirectPolicy base) network sent outcome)
    (hconfined : Confined base url sent) :
    Confined base url outcome.2 ∧ ∀ next,
      network.leads outcome.2 = some next →
      isTrustedOrigin base next = false →
      outcome.1 = network.reply outcome.2 := by
  induction hfollows with
  | answer hleads => exact ⟨hconfined, fun _ _ _ => rfl⟩
  | @follow sent next outcome hleads hpolicy hrest ih =>
      obtain ⟨htrusted, hfew⟩ := redirectPolicy_eq_follow.mp hpolicy
      refine ih ⟨?_, ?_, ?_⟩
      · rw [List.head?_append, hconfined.start]
        rfl
      · rw [List.length_append, List.length_singleton]
        omega
      · rw [List.forall_mem_append]
        exact ⟨hconfined.trusted, List.forall_mem_singleton.mpr htrusted⟩
  | stop hleads hpolicy => exact ⟨hconfined, fun _ _ _ => rfl⟩
  | @error sent next hleads hpolicy =>
      refine ⟨hconfined, fun other hother hforeign => ?_⟩
      rw [hleads, Option.some.injEq] at hother
      rw [redirectPolicy, hother, hforeign] at hpolicy
      cases hpolicy

/-- Every attempt is answered, after a chain that is confined. -/
theorem RedirectLoop.run_confined {base url : Url} (loop : RedirectLoop)
    (network : Network) (htrusted : isTrustedOrigin base url = true) :
    ∃ reply sent,
      loop.run (redirectPolicy base) network url = some (reply, sent) ∧
      Confined base url sent ∧ ∀ next,
        network.leads sent = some next → isTrustedOrigin base next = false →
        reply = network.reply sent := by
  have hbounded : ∀ next sent, 10 < sent.length →
      redirectPolicy base next sent ≠ .follow := by
    intro next sent hmany hfollow
    have hfew := (redirectPolicy_eq_follow.mp hfollow).2
    omega
  obtain ⟨⟨reply, sent⟩, hrun⟩ := loop.returns _ network url hbounded
  have hstart : Confined base url [url] :=
    ⟨rfl, by simp, List.forall_mem_singleton.mpr htrusted⟩
  exact ⟨reply, sent, hrun, (loop.follows _ _ _ _ hrun).confined hstart⟩

/-! ## Whole requests -/

/-- The outside world during one request, attempt by attempt. -/
structure Outside where
  loop : RedirectLoop
  network : ℕ → Network
  took : ℕ → ℕ
  untilDate : ℕ → List Char → Option ℤ
  jitter : ℕ → ℕ
  late : ℕ → ℕ

def Outside.attempt (outside : Outside) (base url : Url) (n : ℕ) :
    Retry.Attempt where
  reply :=
    match outside.loop.run (redirectPolicy base) (outside.network n) url with
    | some (reply, _) => reply
    | none => .failed false false
  took := outside.took n
  untilDate := outside.untilDate n
  jitter := outside.jitter n
  late := outside.late n

/-- The URLs that receive the credential in an attempt. -/
def Outside.sent (outside : Outside) (base url : Url) (n : ℕ) : List Url :=
  match outside.loop.run (redirectPolicy base) (outside.network n) url with
  | some (_, sent) => sent
  | none => []

/-- What `download_attachment` asks for; `parse` is the URL parser. -/
def downloadTarget (parse : String → Except String Url) (base : Url)
    (contentUrl : String) : Except Retry.ClientError Url :=
  match parse contentUrl with
  | .error error =>
      .error (.config ("invalid attachment content_url: " ++ error))
  | .ok url =>
      if url.username ≠ "" ∨ url.password.isSome then
        .error (.foreignOrigin (originText url))
      else if !isTrustedOrigin base url then
        .error (.foreignOrigin (originText url))
      else .ok url

/-- The requests that the client makes. -/
inductive Issues {crate : UrlCrate} (encoder : SegmentEncoder crate.toParser)
    (parse : String → Except String Url) (base : Url) :
    Retry.Method → Url → Prop where
  | call {url : Url} (call : ApiCall)
      (hurl : call.url crate encoder.encodes base = .ok url) :
      Issues encoder parse base call.request.method url
  | download {url : Url} (contentUrl : String)
      (htarget : downloadTarget parse base contentUrl = .ok url) :
      Issues encoder parse base .get url

section Requests

variable {crate : UrlCrate} {encoder : SegmentEncoder crate.toParser}
  {parse : String → Except String Url} {base url : Url}
  {method : Retry.Method}

theorem Issues.trusted (hbase : IsApiBase base)
    (hissues : Issues encoder parse base method url) :
    isTrustedOrigin base url = true := by
  cases hissues with
  | call call hurl =>
      have haddresses := ApiCall.addresses_of_url encoder hbase hurl
      apply isTrustedOrigin_of_sameOrigin hbase
      refine ⟨haddresses.scheme, haddresses.host, ?_⟩
      rw [Url.portOrKnownDefault, Url.portOrKnownDefault, haddresses.port,
        haddresses.scheme]
  | download contentUrl htarget =>
      unfold downloadTarget at htarget
      split at htarget
      next => cases htarget
      next =>
        split_ifs at htarget with huser hforeign
        cases htarget
        simpa using hforeign

/-- A foreign redirect is the client's answer, and no reason to try again. -/
theorem classify_of_foreign
    {client : Retry.Client} {outside : Outside} {n : ℕ} {next : Url}
    (htrusted : isTrustedOrigin base url = true)
    (hleads : (outside.network n).leads (outside.sent base url n) = some next)
    (hforeign : isTrustedOrigin base next = false) :
    ∀ error, client.classify (outside.attempt base url n) = .inr error →
      error.isRetryable = false := by
  obtain ⟨reply, sent, hfollow, -, hstop⟩ :=
    outside.loop.run_confined (outside.network n) htrusted
  have hsent : outside.sent base url n = sent := by
    rw [Outside.sent, hfollow]
  rw [hsent] at hleads
  obtain ⟨status, header, body, hreply, hlow, hhigh⟩ :=
    (outside.network n).redirects sent next hleads
  have hattempt : (outside.attempt base url n).reply =
      .response status header body := by
    rw [Outside.attempt, hfollow]
    exact (hstop next hleads hforeign).trans hreply
  intro error hclassify
  simp only [Retry.Client.classify, hattempt] at hclassify
  split at hclassify
  next => cases hclassify
  next =>
    split at hclassify
    next => cases hclassify
    next =>
      rw [Sum.inr.injEq, Retry.fromStatus, if_neg (by omega),
        if_neg (by omega), if_neg (by omega), if_neg (by omega)] at hclassify
      rw [← hclassify, Retry.ClientError.isRetryable, Retry.isServerError]
      exact decide_eq_false (by omega)

/-- Every attempt but the last has failed in a way that is tried again. -/
theorem retryable_of_retried
    (client : Retry.Client) (method : Retry.Method) (world : ℕ → Retry.Attempt)
    (entry : ℕ) (hu32 : client.policy.maxRetries ≤ Retry.u32Max) :
    ∃ outcome,
      Retry.sendWithRetry client method true world entry
        (client.policy.maxRetries + 1) = some outcome ∧
      ∀ n, n + 1 < outcome.starts.length →
        ∃ error, client.classify (world n) = .inr error ∧
          error.isRetryable = true := by
  apply Loop.run_of_invariant
    (fun loop => Retry.RetryLoop.Kept client method entry loop ∧
      ∀ n < loop.attempt, ∃ error, client.classify (world n) = .inr error ∧
        error.isRetryable = true)
    (fun loop => client.policy.maxRetries - loop.attempt)
  · rintro loop outcome ⟨hkept, hfailed⟩ hbody n hn
    obtain ⟨hstarts, -, -⟩ := Retry.RetryLoop.body_stop hbody
    rw [hstarts, List.length_append, hkept.counted,
      List.length_singleton] at hn
    exact hfailed n (by omega)
  · rintro loop loop' ⟨hkept, hfailed⟩ hbody
    obtain ⟨hkept', hcount⟩ := hkept.next hu32 hbody
    obtain ⟨error, hclassify, hretry, -⟩ := Retry.RetryLoop.body_next hbody
    have hle := hkept'.attempts
    refine ⟨⟨hkept', fun n hn => ?_⟩, by omega⟩
    rw [hcount] at hn
    rcases Nat.lt_succ_iff_lt_or_eq.mp hn with hearlier | rfl
    · exact hfailed n hearlier
    · exact ⟨error, hclassify, (Retry.canRetry_iff.mp hretry).2.1⟩
  · exact ⟨Retry.RetryLoop.Kept.start client method entry,
      fun n hn => absurd hn (Nat.not_lt_zero n)⟩
  · exact Nat.lt_succ_self client.policy.maxRetries

/-- What the requests of a call have in common, over all its attempts. -/
structure KeepsToOrigin (client : Retry.Client) (outside : Outside)
    (base url : Url) (outcome : Retry.RetryOutcome) : Prop where
  attempts : outcome.starts.length ≤ client.policy.maxRetries + 1
  chains : ∀ n < outcome.starts.length,
    (outside.sent base url n).head? = some url ∧
      (outside.sent base url n).length ≤ 11
  origins : ∀ n < outcome.starts.length,
    ∀ hop ∈ outside.sent base url n, SameOrigin base hop
  foreign : ∀ n < outcome.starts.length, ∀ next,
    (outside.network n).leads (outside.sent base url n) = some next →
      ¬ SameOrigin base next → n + 1 = outcome.starts.length

end Requests

/-- Whatever the servers answer, every request of the client carries the
credential to the origin of its base only, and ends with a redirect that leads
elsewhere. -/
theorem credential_keeps_to_origin
    {crate : UrlCrate} (encoder : SegmentEncoder crate.toParser)
    (parse : String → Except String Url) {base url : Url}
    {method : Retry.Method} (hbase : IsApiBase base)
    (hissues : Issues encoder parse base method url)
    (client : Retry.Client) (outside : Outside) (entry : ℕ)
    (hu32 : client.policy.maxRetries ≤ Retry.u32Max) :
    ∃ outcome,
      Retry.sendWithRetry client method true (outside.attempt base url) entry
        (client.policy.maxRetries + 1) = some outcome ∧
      KeepsToOrigin client outside base url outcome := by
  have htrusted := hissues.trusted hbase
  obtain ⟨outcome, hrun, -, hattempts, -⟩ := Retry.sendWithRetry_returns client
    method (outside.attempt base url) entry hu32
  obtain ⟨other, hother, hretried⟩ := retryable_of_retried client method
    (outside.attempt base url) entry hu32
  rw [hrun, Option.some.injEq] at hother
  subst hother
  have hconfined (n : ℕ) : Confined base url (outside.sent base url n) := by
    obtain ⟨reply, sent, hfollow, hsent, -⟩ :=
      outside.loop.run_confined (outside.network n) htrusted
    rw [Outside.sent, hfollow]
    exact hsent
  refine ⟨outcome, hrun, hattempts, ?_, ?_, ?_⟩
  · exact fun n _ => ⟨(hconfined n).start, (hconfined n).length⟩
  · exact fun n _ hop hmem => sameOrigin_of_trusted ((hconfined n).trusted hop hmem)
  · intro n hn next hleads hforeign
    by_contra hmore
    obtain ⟨error, hclassify, hretryable⟩ := hretried n (by omega)
    have huntrusted : isTrustedOrigin base next = false := by
      rw [← Bool.not_eq_true]
      exact fun h => hforeign (sameOrigin_of_trusted h)
    rw [classify_of_foreign htrusted hleads huntrusted error hclassify]
      at hretryable
    cases hretryable

namespace Sample

/-- A server that redirects every request to another one. -/
def foreignNetwork : Network where
  leads := fun _ => some { base with host := some "evil.test" }
  reply := fun _ => .response 302 none (.ok [])
  redirects := fun _ _ _ => ⟨302, none, .ok [], rfl, by decide, by decide⟩

/-- One request of a chain has been answered. -/
def followBody (policy : Url → List Url → RedirectAction) (network : Network)
    (sent : List Url) : (Retry.Reply × List Url) ⊕ List Url :=
  match network.leads sent with
  | none => .inl (network.reply sent, sent)
  | some next =>
      match policy next sent with
      | .follow => .inr (sent ++ [next])
      | .stop => .inl (network.reply sent, sent)
      | .error => .inl (.failed false false, sent)

theorem follows_of_run {policy : Url → List Url → RedirectAction}
    {network : Network} {fuel : ℕ} {sent : List Url}
    {outcome : Retry.Reply × List Url}
    (hrun : Loop.run (followBody policy network) fuel sent = some outcome) :
    Follows policy network sent outcome := by
  induction fuel generalizing sent with
  | zero => cases hrun
  | succ fuel ih =>
      cases hleads : network.leads sent with
      | none =>
          simp only [Loop.run, followBody, hleads, Option.some.injEq] at hrun
          subst hrun
          exact .answer hleads
      | some next =>
          cases hpolicy : policy next sent with
          | follow =>
              simp only [Loop.run, followBody, hleads, hpolicy] at hrun
              exact .follow hleads hpolicy (ih hrun)
          | stop =>
              simp only [Loop.run, followBody, hleads, hpolicy,
                Option.some.injEq] at hrun
              subst hrun
              exact .stop hleads hpolicy
          | error =>
              simp only [Loop.run, followBody, hleads, hpolicy,
                Option.some.injEq] at hrun
              subst hrun
              exact .error hleads hpolicy

theorem run_returns {policy : Url → List Url → RedirectAction}
    (network : Network) (url : Url)
    (hbounded : ∀ next sent, 10 < sent.length → policy next sent ≠ .follow) :
    ∃ outcome, Loop.run (followBody policy network) 11 [url] = some outcome := by
  have hrun : ∃ outcome,
      Loop.run (followBody policy network) 11 [url] = some outcome ∧ True := by
    apply Loop.run_of_invariant (fun sent => sent.length ≤ 11)
      (fun sent => 11 - sent.length)
    · exact fun _ _ _ _ => trivial
    · intro sent longer hshort hbody
      unfold followBody at hbody
      split at hbody
      next => cases hbody
      next next hleads =>
        split at hbody
        next hfollow =>
          have hfew : ¬ 10 < sent.length := fun hmany =>
            hbounded next sent hmany hfollow
          cases hbody
          rw [List.length_append, List.length_singleton]
          omega
        next => cases hbody
        next => cases hbody
    · simp
    · simp
  obtain ⟨outcome, houtcome, -⟩ := hrun
  exact ⟨outcome, houtcome⟩

/-- A redirect loop with room for ten redirects. -/
def loop : RedirectLoop where
  run := fun policy network url => Loop.run (followBody policy network) 11 [url]
  follows := fun _ _ _ _ => follows_of_run
  returns := fun _ network url => run_returns network url

def outside : Outside where
  loop := loop
  network := fun _ => foreignNetwork
  took := fun _ => 1
  untilDate := fun _ _ => none
  jitter := fun _ => 0
  late := fun _ => 0

def client : Retry.Client where
  policy := { maxRetries := 2, base := 200, maxBackoff := 5000 }
  totalTimeout := 30000
  credential := .apiKey "k"
  clockMax := 2 ^ 63

theorem tracker_list_keeps_to_origin :
    ∃ url outcome,
      Retry.sendWithRetry client .get true (outside.attempt base url) 0
        (client.policy.maxRetries + 1) = some outcome ∧
      KeepsToOrigin client outside base url outcome := by
  have hbase : IsApiBase base := ⟨Or.inr rfl, rfl, by decide, by decide⟩
  have hsent : ApiCall.listTrackers.IsSent := by
    intro project title version hpage
    cases hpage
  obtain ⟨url, hurl, -⟩ := ApiCall.addresses_url encoder hbase hsent
  exact ⟨url, credential_keeps_to_origin encoder (fun _ => .error "no URL") hbase
    (.call .listTrackers hurl) client outside 0 (by decide)⟩

end Sample

end RedmineClient
