import RuprogressMcp.CallbackParameters
import RuprogressMcp.CodeReplay
import RuprogressMcp.ProxyRevocation

/-!
# Whose upstream tokens a session holds

A session is opened by a code request, with the tokens that one callback got
for the consent of one user.  From then on its tokens change by refreshes that
send the refresh token of the session itself.  So the upstream token that is
used for a presented token goes back to the consent that the session was
opened for, and the client of that consent is the one the token was minted
for, whatever requests are interleaved.
-/

namespace RuprogressMcp

/-! ## What a request holds -/

/-- The tokens of a redeemed code, until a session is opened with them. -/
def CodeTask.held : CodeTask → Option UpstreamTokenSet
  | touch set => some set
  | sweep set => some set
  | sweepTokens set _ _ _ _ => some set
  | sweepRefresh set _ _ _ _ => some set
  | readTtl set => some set
  | readDeadline set _ => some set
  | insert set _ _ => some set
  | _ => none

namespace RefreshTask

/-- The session and the refresh token that was read from it. -/
def spending : RefreshTask → Option (String × String)
  | readScopes _ upstreamId secret => some (upstreamId, secret)
  | upstreamRefresh _ upstreamId secret _ => some (upstreamId, secret)
  | _ => none

/-- The session and the new tokens that are about to be stored for it. -/
def renewed : RefreshTask → Option (String × UpstreamTokenSet)
  | readTtl _ upstreamId set => some (upstreamId, set)
  | replace _ upstreamId set _ => some (upstreamId, set)
  | _ => none

/-- The client and the session that tokens are minted for. -/
def mintsFor : RefreshTask → Option (String × String)
  | touch clientId upstreamId => some (clientId, upstreamId)
  | readRefresh clientId upstreamId => some (clientId, upstreamId)
  | readScopes clientId upstreamId _ => some (clientId, upstreamId)
  | upstreamRefresh clientId upstreamId _ _ => some (clientId, upstreamId)
  | readTtl clientId upstreamId _ => some (clientId, upstreamId)
  | replace clientId upstreamId _ _ => some (clientId, upstreamId)
  | mintAccess clientId upstreamId _ _ _ => some (clientId, upstreamId)
  | mintRefresh clientId upstreamId _ _ _ => some (clientId, upstreamId)
  | _ => none

end RefreshTask

namespace Conn

/-- The tokens for which a callback is about to store a code. -/
def exchanged : Conn → Option (CallbackQuery × Transaction × UpstreamTokenSet)
  | callback query (.running (.mint transaction set)) => some (query, transaction, set)
  | _ => none

def held : Conn → Option (CodeRequest × UpstreamTokenSet)
  | codeGrant request (.running task) => task.held.map fun set => (request, set)
  | _ => none

/-- The session that a code request has opened. -/
def opened : Conn → Option (CodeRequest × String)
  | codeGrant request (.running task) => task.stored.map fun u => (request, u)
  | _ => none

def spending : Conn → Option (String × String)
  | refreshGrant _ (.running task) => task.spending
  | _ => none

def renewed : Conn → Option (String × UpstreamTokenSet)
  | refreshGrant _ (.running task) => task.renewed
  | _ => none

def mintsFor : Conn → Option (String × String)
  | refreshGrant _ (.running task) => task.mintsFor
  | _ => none

/-- A presented token and what it resolved to. -/
def resolved : Conn → Option (String × TokenEntry)
  | bearer token (.running (.accessToken entry)) => some (token, entry)
  | _ => none

/-- A presented token and the upstream token that is verified in its place. -/
def verifying : Conn → Option (String × String)
  | bearer token (.running (.verify access)) => some (token, access)
  | _ => none

structure Inert (conn : Conn) : Prop where
  exchanged : conn.exchanged = none
  held : conn.held = none
  opened : conn.opened = none
  spending : conn.spending = none
  renewed : conn.renewed = none
  mintsFor : conn.mintsFor = none
  resolved : conn.resolved = none
  verifying : conn.verifying = none

theorem inert_start (env : Env) (request : Request) : (start env request).Inert := by
  cases request <;> simp only [start]
  case callback query =>
    unfold CallbackTask.start
    split <;> exact ⟨rfl, rfl, rfl, rfl, rfl, rfl, rfl, rfl⟩
  case bearer token =>
    split
    · unfold BearerTask.start
      split <;> exact ⟨rfl, rfl, rfl, rfl, rfl, rfl, rfl, rfl⟩
    · exact ⟨rfl, rfl, rfl, rfl, rfl, rfl, rfl, rfl⟩
  all_goals
    repeat' split
  all_goals exact ⟨rfl, rfl, rfl, rfl, rfl, rfl, rfl, rfl⟩

theorem inert_cancel {before conn : Conn} (hcancel : before.cancel = some conn) :
    conn.Inert := by
  unfold cancel at hcancel
  split at hcancel
  case h_2 request task =>
    obtain ⟨phase, hphase, rfl⟩ := Option.map_eq_some_iff.mp hcancel
    rcases RefreshTask.cancel_cases hphase with ⟨-, rfl⟩ | ⟨u, -, rfl⟩ <;>
      exact ⟨rfl, rfl, rfl, rfl, rfl, rfl, rfl, rfl⟩
  case h_5 => cases hcancel
  all_goals
    cases hcancel
    exact ⟨rfl, rfl, rfl, rfl, rfl, rfl, rfl, rfl⟩

/-! ## What one step brings about -/

variable {env : Env} {now : Instant} {choice : Choice} {proxy : ProxyState}
  {before : Conn} {step : Step}

theorem exchanged_step {query : CallbackQuery} {transaction : Transaction}
    {set : UpstreamTokenSet}
    (hstep : before.step env now choice proxy = some step)
    (hview : step.conn.exchanged = some (query, transaction, set)) :
    ∃ code token,
      before = .callback query (.running (.exchange transaction code)) ∧
      choice.answer = some token ∧ set = token.toSet now transaction.scopes := by
  cases Conn.advance_of_step hstep with
  | callback presented task =>
      cases task with
      | take rawState =>
          simp only [Step.lift, CallbackTask.step, CallbackTask.fail] at hview
          repeat' split at hview
          all_goals simp [exchanged] at hview
      | exchange exchanging code =>
          simp only [Step.lift, CallbackTask.step, CallbackTask.fail] at hview
          split at hview
          · simp [exchanged] at hview
          next token hanswer =>
            simp only [exchanged, Option.some.injEq, Prod.mk.injEq] at hview
            obtain ⟨rfl, rfl, rfl⟩ := hview
            exact ⟨code, token, rfl, hanswer, rfl⟩
      | mint minting stored =>
          simp only [Step.lift, CallbackTask.step, CallbackTask.fail] at hview
          repeat' split at hview
          all_goals simp [exchanged] at hview
  | _ => simp [Step.lift, exchanged] at hview

theorem held_step {request : CodeRequest} {set : UpstreamTokenSet}
    (hstep : before.step env now choice proxy = some step)
    (hview : step.conn.held = some (request, set)) :
    before.held = some (request, set) ∨
      (before = .codeGrant request (.running .removeUpstream) ∧
        proxy.codes.upstream.lookup (env.digest request.code) = some set) := by
  cases Conn.advance_of_step hstep with
  | codeGrant presented task =>
      cases task
      case removeUpstream =>
        simp only [Step.lift, CodeTask.step] at hview
        split at hview
        · simp [held, Phase.failed] at hview
        next found hfound =>
          simp only [held, CodeTask.held, Option.map_some, Option.some.injEq,
            Prod.mk.injEq] at hview
          obtain ⟨rfl, rfl⟩ := hview
          exact Or.inr ⟨rfl, hfound⟩
      all_goals
        left
        simp only [Step.lift, CodeTask.step, CodeTask.sweepNext] at hview
        repeat' split at hview
      all_goals simp_all [held, CodeTask.held, Phase.failed]
  | _ => simp [Step.lift, held] at hview

theorem opened_step {request : CodeRequest} {u : String}
    (hstep : before.step env now choice proxy = some step)
    (hview : step.conn.opened = some (request, u)) :
    before.opened = some (request, u) ∨
      ∃ set ttl deadline,
        before = .codeGrant request (.running (.insert set ttl deadline)) ∧
        step.op = .insertUpstream u set deadline := by
  cases Conn.advance_of_step hstep with
  | codeGrant presented task =>
      cases task
      case insert set ttl deadline =>
        right
        simp only [Step.lift, CodeTask.step] at hview ⊢
        cases hdraw : choice.draw with
        | none => simp [hdraw, opened, Phase.failed] at hview
        | some id =>
            simp only [hdraw] at hview ⊢
            split at hview
            · simp only [opened, CodeTask.stored, Option.map_some, Option.some.injEq,
                Prod.mk.injEq] at hview
              obtain ⟨rfl, rfl⟩ := hview
              exact ⟨set, ttl, deadline, rfl, rfl⟩
            · simp [opened, Phase.failed] at hview
      all_goals
        left
        simp only [Step.lift, CodeTask.step, CodeTask.sweepNext] at hview
        repeat' split at hview
      all_goals simp_all [opened, CodeTask.stored, Phase.failed]
  | _ => simp [Step.lift, opened] at hview

theorem spending_step {u secret : String}
    (hstep : before.step env now choice proxy = some step)
    (hview : step.conn.spending = some (u, secret)) :
    before.spending = some (u, secret) ∨
      proxy.upstreamTokens.refreshToken now u = some secret := by
  cases Conn.advance_of_step hstep with
  | refreshGrant request task =>
      cases task
      case readRefresh clientId upstreamId =>
        right
        simp only [Step.lift, RefreshTask.step] at hview
        split at hview
        · simp [spending, RefreshTask.spending] at hview
        next found hfound =>
          simp only [spending, RefreshTask.spending, Option.some.injEq,
            Prod.mk.injEq] at hview
          obtain ⟨rfl, rfl⟩ := hview
          exact hfound
      all_goals
        left
        simp only [Step.lift, RefreshTask.step] at hview
        repeat' split at hview
      all_goals simp_all [spending, RefreshTask.spending, Phase.failed]
  | _ => simp [Step.lift, spending] at hview

theorem renewed_step {u : String} {set : UpstreamTokenSet}
    (hstep : before.step env now choice proxy = some step)
    (hview : step.conn.renewed = some (u, set)) :
    before.renewed = some (u, set) ∨
      ∃ request clientId secret scopes token,
        before = .refreshGrant request
          (.running (.upstreamRefresh clientId u secret scopes)) ∧
        choice.answer = some token ∧ set = token.toSet now scopes := by
  cases Conn.advance_of_step hstep with
  | refreshGrant request task =>
      cases task
      case upstreamRefresh clientId upstreamId secret scopes =>
        right
        simp only [Step.lift, RefreshTask.step] at hview
        split at hview
        · simp [renewed, RefreshTask.renewed] at hview
        next token hanswer =>
          simp only [renewed, RefreshTask.renewed, Option.some.injEq,
            Prod.mk.injEq] at hview
          obtain ⟨rfl, rfl⟩ := hview
          exact ⟨request, clientId, secret, scopes, token, rfl, hanswer, rfl⟩
      all_goals
        left
        simp only [Step.lift, RefreshTask.step] at hview
        repeat' split at hview
      all_goals simp_all [renewed, RefreshTask.renewed, Phase.failed]
  | _ => simp [Step.lift, renewed] at hview

theorem mintsFor_step {clientId u : String}
    (hstep : before.step env now choice proxy = some step)
    (hview : step.conn.mintsFor = some (clientId, u)) :
    before.mintsFor = some (clientId, u) ∨
      ∃ key, (proxy.refreshTokens.redeemCurrent now key).2 = .ok clientId u := by
  cases Conn.advance_of_step hstep with
  | refreshGrant request task =>
      cases task
      case redeemCurrent =>
        right
        simp only [Step.lift, RefreshTask.step] at hview
        split at hview
        · simp [mintsFor, RefreshTask.mintsFor] at hview
        · simp [mintsFor, RefreshTask.mintsFor] at hview
        next owner session hredeemed =>
          split at hview
          · simp only [mintsFor, RefreshTask.mintsFor, Option.some.injEq,
              Prod.mk.injEq] at hview
            obtain ⟨rfl, rfl⟩ := hview
            exact ⟨_, hredeemed⟩
          · simp [mintsFor, RefreshTask.mintsFor] at hview
      all_goals
        left
        simp only [Step.lift, RefreshTask.step] at hview
        repeat' split at hview
      all_goals simp_all [mintsFor, RefreshTask.mintsFor, Phase.failed]
  | _ => simp [Step.lift, mintsFor] at hview

theorem resolved_step {token : String} {entry : TokenEntry}
    (hstep : before.step env now choice proxy = some step)
    (hview : step.conn.resolved = some (token, entry)) :
    ∃ deadline, proxy.tokens.lookup (env.digest token) = some (entry, deadline) := by
  cases Conn.advance_of_step hstep with
  | bearer presented task =>
      cases task with
      | resolve =>
          simp only [Step.lift, BearerTask.step] at hview
          split at hview
          · simp [resolved] at hview
          next found hfound =>
            simp only [resolved, Option.some.injEq, Prod.mk.injEq] at hview
            obtain ⟨rfl, rfl⟩ := hview
            exact resolve_eq_some hfound
      | accessToken found =>
          simp only [Step.lift, BearerTask.step] at hview
          split at hview <;> simp [resolved] at hview
      | verify access => simp [Step.lift, BearerTask.step, resolved] at hview
  | _ => simp [Step.lift, resolved] at hview

theorem verifying_step {token access : String}
    (hstep : before.step env now choice proxy = some step)
    (hview : step.conn.verifying = some (token, access)) :
    ∃ entry, before = .bearer token (.running (.accessToken entry)) ∧
      proxy.upstreamTokens.accessToken now entry.upstreamId = some access := by
  cases Conn.advance_of_step hstep with
  | bearer presented task =>
      cases task with
      | resolve =>
          simp only [Step.lift, BearerTask.step] at hview
          split at hview <;> simp [verifying] at hview
      | accessToken found =>
          simp only [Step.lift, BearerTask.step] at hview
          split at hview
          · simp [verifying] at hview
          next upstream hfound =>
            simp only [verifying, Option.some.injEq, Prod.mk.injEq] at hview
            obtain ⟨rfl, rfl⟩ := hview
            exact ⟨found, rfl, hfound⟩
      | verify found => simp [Step.lift, BearerTask.step, verifying] at hview
  | _ => simp [Step.lift, verifying] at hview

end Conn

/-! ## Where it came from -/

section Runs

variable {env : Env} {run : ProxyRun env}

/-- What a request holds was brought about by one of its own steps. -/
theorem traced
    {α : Type} (view : Conn → Option α) (source : ℕ → ℕ → α → Prop)
    (hinert : ∀ conn : Conn, conn.Inert → view conn = none)
    (hstep : ∀ n i choice before step a, run.label n = .poll i choice →
      (run.state n).conns i = some before →
      before.step env (run.state n).now choice (run.state n).proxy = some step →
      view step.conn = some a → view before = some a ∨ source n i a)
    {n i : ℕ} {conn : Conn} {a : α} (hconn : (run.state n).conns i = some conn)
    (hview : view conn = some a) : ∃ k < n, source k i a := by
  induction n generalizing conn with
  | zero => simp [run.start, State.initial] at hconn
  | succ n ih =>
      have hkept (hearlier : ∃ k < n, source k i a) : ∃ k < n + 1, source k i a := by
        obtain ⟨k, hk, hsource⟩ := hearlier
        exact ⟨k, Nat.lt_succ_of_lt hk, hsource⟩
      rcases conn_before (run.step n) hconn with hold | ⟨request, -, rfl⟩ |
        ⟨choice, before, step, hlabel, hbefore, hpolled, -, -, rfl⟩ |
        ⟨before, -, hbefore, hcancelled⟩
      · exact hkept (ih hold hview)
      · rw [hinert _ (Conn.inert_start env request)] at hview
        cases hview
      · rcases hstep n i choice before step a hlabel hbefore hpolled hview with
          hold | hsource
        · exact hkept (ih hbefore hold)
        · exact ⟨n, Nat.lt_succ_self n, hsource⟩
      · rw [hinert _ (Conn.inert_cancel hcancelled)] at hview
        cases hview

/-- What holds of the stores, and not of the first ones, was brought about by a
request. -/
theorem brought_about
    (good : ProxyState → Prop) (hfirst : ¬good State.initial.proxy) {n : ℕ}
    (hgood : good (run.state n).proxy) :
    ∃ k < n, ∃ i op conn, SectionOf run k i op ∧ (run.state k).conns i = some conn ∧
      Conn.Performs env conn op ∧ ¬good (run.state k).proxy ∧
      good (op.apply (run.state k).now (run.state k).proxy) := by
  obtain ⟨k, i, op, -, hk, hsection, hnot, hafter⟩ :=
    exists_section run good (Nat.zero_le n) (by rwa [run.start]) hgood
  obtain ⟨-, -, -, conn, hconn, hperforms⟩ := hsection.commit
  exact ⟨k, hk, i, op, conn, hsection, hconn, hperforms, hnot, hafter⟩

theorem SectionOf.unique
    {n i j : ℕ} {op op' : StoreOp} (hfirst : SectionOf run n i op)
    (hsecond : SectionOf run n j op') : i = j ∧ op = op' := by
  obtain ⟨choice, conn, step, hlabel, hconn, hstep, rfl⟩ := hfirst
  obtain ⟨choice', conn', step', hlabel', hconn', hstep', rfl⟩ := hsecond
  rw [hlabel, Label.poll.injEq] at hlabel'
  obtain ⟨rfl, rfl⟩ := hlabel'
  rw [hconn, Option.some.injEq] at hconn'
  subst hconn'
  rw [hstep, Option.some.injEq] at hstep'
  exact ⟨rfl, by rw [hstep']⟩

theorem SectionOf.drawn
    {n i : ℕ} {op : StoreOp} (hsection : SectionOf run n i op) :
    (∀ key, op.mintedDigest = some key → key ∈ (run.state (n + 1)).drawn) ∧
      ∀ id, op.mintedId = some id → id ∈ (run.state (n + 1)).drawnIds := by
  obtain ⟨choice, conn, step, hlabel, hconn, hstep, rfl⟩ := hsection
  have hnext := run.step n
  rw [hlabel] at hnext
  obtain ⟨taken, htaken, -, hcommit⟩ := next_poll hnext hconn
  rw [hstep, Option.some.injEq] at htaken
  subst htaken
  rw [hcommit]
  exact ⟨fun _ hkey => mintedDigest_mem_commit hkey, fun _ hid => mintedId_mem_commit hid⟩

/-- What lasts from the step in which it comes about comes about once. -/
theorem eq_of_lasting
    (kept : ℕ → Prop) (hlasts : ∀ {m n}, m < n → kept (m + 1) → kept n) {m n : ℕ}
    (hfresh : ¬kept m) (hkept : kept (m + 1)) (hfresh' : ¬kept n)
    (hkept' : kept (n + 1)) : m = n := by
  rcases lt_trichotomy m n with hlt | heq | hlt
  · exact absurd (hlasts hlt hkept) hfresh'
  · exact heq
  · exact absurd (hlasts hlt hkept') hfresh

theorem minted_once
    {m n i j : ℕ} {op op' : StoreOp} {key : Digest}
    (hfirst : SectionOf run m i op) (hsecond : SectionOf run n j op')
    (hkey : op.mintedDigest = some key) (hkey' : op'.mintedDigest = some key) :
    m = n :=
  eq_of_lasting (fun n => key ∈ (run.state n).drawn) (mem_drawn_run run)
    (hfirst.commit.1.1 key hkey) (hfirst.drawn.1 key hkey)
    (hsecond.commit.1.1 key hkey') (hsecond.drawn.1 key hkey')

theorem inserted_once
    {m n i j : ℕ} {op op' : StoreOp} {u : String}
    (hfirst : SectionOf run m i op) (hsecond : SectionOf run n j op')
    (hid : op.mintedId = some u) (hid' : op'.mintedId = some u) : m = n :=
  eq_of_lasting (fun n => u ∈ (run.state n).drawnIds) (mem_drawnIds_run run)
    (hfirst.commit.1.2 u hid) (hfirst.drawn.2 u hid)
    (hsecond.commit.1.2 u hid') (hsecond.drawn.2 u hid')

variable (run)

/-- In step `e` the upstream server answers the callback of request `i` with
these tokens. -/
structure Exchanges (e i : ℕ) (query : CallbackQuery)
    (transaction : Transaction) (set : UpstreamTokenSet) : Prop where
  conn : ∃ code, (run.state e).conns i =
    some (.callback query (.running (.exchange transaction code)))
  answered : ∃ choice token, run.label e = .poll i choice ∧
    choice.answer = some token ∧
    set = token.toSet (run.state e).now transaction.scopes

/-- In step `e` the upstream server answers a refresh of session `u`, sent with
this refresh token, with these tokens. -/
structure Refreshes (e : ℕ) (u secret : String) (set : UpstreamTokenSet) :
    Prop where
  answered : ∃ i request clientId scopes choice token,
    (run.state e).conns i = some (.refreshGrant request
      (.running (.upstreamRefresh clientId u secret scopes))) ∧
    run.label e = .poll i choice ∧ choice.answer = some token ∧
    set = token.toSet (run.state e).now scopes

/-- An authorization request creates the transaction, a callback takes it and
exchanges a code for these tokens. -/
structure Consents (n : ℕ) (transaction : Transaction)
    (set : UpstreamTokenSet) : Prop where
  steps : ∃ m k e, m < k ∧ k < e ∧ e < n ∧
    ∃ j i authorizing query rawState,
      CreatesTransaction run m j authorizing (env.digest rawState) transaction ∧
      TakesTransaction run k i query rawState transaction ∧
      Exchanges run e i query transaction set

/-- In step `b` the code request `i` takes the tokens of its code. -/
def TakesCode (b i : ℕ) (held : CodeRequest × UpstreamTokenSet) : Prop :=
  (∃ choice, run.label b = .poll i choice) ∧
    (run.state b).conns i = some (.codeGrant held.1 (.running .removeUpstream)) ∧
    (run.state b).proxy.codes.upstream.lookup (env.digest held.1.code) = some held.2

variable {run} in
theorem Consents.later
    {m n : ℕ} {transaction : Transaction} {set : UpstreamTokenSet}
    (hconsents : Consents run m transaction set) (hle : m ≤ n) :
    Consents run n transaction set := by
  obtain ⟨a, k, e, hak, hke, hem, hrest⟩ := hconsents.steps
  exact ⟨a, k, e, hak, hke, hem.trans_le hle, hrest⟩

/-- In step `o` the code request `j` opens session `u`, with the tokens of a
consent that was given to the client, for the redirect URI and under the
challenge of this request. -/
structure Opens (o j : ℕ) (u : String) (request : CodeRequest)
    (transaction : Transaction) (first : UpstreamTokenSet) : Prop where
  inserted : ∃ deadline, SectionOf run o j (.insertUpstream u first deadline)
  conn : ∃ ttl deadline, (run.state o).conns j =
    some (.codeGrant request (.running (.insert first ttl deadline)))
  redeemed : ∃ a b, b < o ∧ CodeRedeems run j request a b (.ok first)
  consented : Consents run o transaction first
  client : transaction.clientId = request.clientId
  redirectUri : transaction.redirectUri = request.redirectUri
  challenge : env.challengeFor request.codeVerifier = transaction.codeChallenge

/-- The tokens of session `u` after a chain of refreshes, each with the refresh
token that the one before brought. -/
inductive Descends (o : ℕ) (u : String) (first : UpstreamTokenSet) :
    ℕ → UpstreamTokenSet → Prop
  | opened : Descends o u first o first
  | refreshed {d e : ℕ} {secret : String} {earlier set : UpstreamTokenSet}
      (hearlier : Descends o u first d earlier) (hlt : d < e)
      (hsecret : earlier.refresh = some secret)
      (hrefreshes : Refreshes run e u secret set) : Descends o u first e set

variable {run}

/-! ## Consent and opening -/

theorem consents_of_mint
    {m i : ℕ} {key : Digest} {entry : PendingCode} {set : UpstreamTokenSet}
    (hsection : SectionOf run m i (.mintCode key entry set)) :
    ∃ transaction, entry = transaction.pendingCode ∧ Consents run m transaction set := by
  obtain ⟨-, -, -, conn, hconn, hperforms⟩ := hsection.commit
  cases hperforms with
  | take u pc htaking hop => cases pc <;> simp [TakePc.section] at hop
  | callbackMint query transaction set draw =>
      refine ⟨transaction, rfl, ?_⟩
      obtain ⟨e, he, hexchanges⟩ := traced Conn.exchanged
        (fun e i held => Exchanges run e i held.1 held.2.1 held.2.2)
        (fun _ hinert => hinert.exchanged)
        (fun n i choice before step held hlabel hbefore hstep hview => by
          obtain ⟨code, token, rfl, hanswer, hset⟩ := Conn.exchanged_step hstep hview
          exact Or.inr ⟨⟨code, hbefore⟩, choice, token, hlabel, hanswer, hset⟩)
        hconn rfl
      obtain ⟨code, hexchange⟩ := hexchanges.conn
      obtain ⟨k, hk, rawState, htakes⟩ := callback_history hexchange
      obtain ⟨deadline, hlookup⟩ := take_eq_some htakes.taken
      obtain ⟨created, hcreated, j, authorizing, hcreates⟩ := transaction_created hlookup
      exact ⟨created, k, e, hcreated, hk, he, j, i, authorizing, query, rawState,
        hcreates, htakes, hexchanges⟩

theorem codeUpstream_before
    {n : ℕ} {key : Digest} {set : UpstreamTokenSet}
    (hlookup : (run.state n).proxy.codes.upstream.lookup key = some set) :
    ∃ m < n, ∃ i entry, SectionOf run m i (.mintCode key entry set) := by
  obtain ⟨m, hmn, i, op, -, hsection, -, -, hnot, hm⟩ := brought_about
    (fun proxy => proxy.codes.upstream.lookup key = some set)
    (by simp [State.initial, ProxyState.new]) hlookup
  rcases StoreOp.codeUpstream_after hm with hold | ⟨entry, rfl, -⟩
  · exact absurd hold hnot
  · exact ⟨m, hmn, i, entry, hsection⟩

theorem opens_of_insert
    {o j : ℕ} {u : String} {request : CodeRequest} {set : UpstreamTokenSet}
    {ttl : Duration} {deadline : Instant}
    (hsection : SectionOf run o j (.insertUpstream u set deadline))
    (hconn : (run.state o).conns j =
      some (.codeGrant request (.running (.insert set ttl deadline)))) :
    ∃ transaction, Opens run o j u request transaction set := by
  obtain ⟨b, hb, ⟨choice, hlabel⟩, htakes, hstored⟩ := traced Conn.held
    (TakesCode run) (fun _ hinert => hinert.held)
    (fun n i choice before step held hlabel hbefore hstep hview => by
      rcases Conn.held_step hstep hview with hold | ⟨rfl, hfound⟩
      · exact Or.inl hold
      · exact Or.inr ⟨⟨choice, hlabel⟩, hbefore, hfound⟩)
    hconn rfl
  obtain ⟨a, hab, entry, hcheck⟩ := check_of_removing htakes (Or.inr rfl)
  obtain ⟨_, hpending, -⟩ := redeemPending_eq_some hcheck.pending
  obtain ⟨m, hma, other, ⟨i, hminted⟩, -⟩ := minted_before hpending
  obtain ⟨m', -, i', entry', hminted'⟩ := codeUpstream_before hstored
  have hsame : SectionOf run m i
      (.mintCode (env.digest request.code) entry other) := hminted
  obtain rfl := minted_once hsame hminted' rfl rfl
  obtain ⟨rfl, hop⟩ := hsame.unique hminted'
  obtain ⟨-, rfl, rfl⟩ := StoreOp.mintCode.inj hop
  obtain ⟨transaction, rfl, hconsents⟩ := consents_of_mint hsame
  obtain ⟨hclient, hredirectUri, hchallenge⟩ := bindingsMatch_iff.mp hcheck.bindings
  have hredeems := CodeRedeems.matched a b hab choice _ hcheck hlabel htakes
  rw [hstored] at hredeems
  exact ⟨transaction, ⟨deadline, hsection⟩, ⟨ttl, deadline, hconn⟩,
    ⟨a, b, hb, hredeems⟩, hconsents.later (by omega), hclient, hredirectUri, hchallenge⟩

/-! ## The tokens of a session -/

theorem live_eq_some
    {store : UpstreamStore} {now : Instant} {u : String} {set : UpstreamTokenSet}
    (hlive : store.live now u = some set) :
    ∃ deadline, store.lookup u = some (set, deadline) := by
  unfold UpstreamStore.live at hlive
  split at hlive
  next found deadline hlookup =>
    obtain ⟨-, hfound⟩ := Option.ite_none_right_eq_some.mp hlive
    cases hfound
    exact ⟨deadline, hlookup⟩
  next => cases hlive

/-- What a refresh is about to store is the answer to a refresh that sent the
refresh token which the session had. -/
theorem refreshes_of_replace
    {n i : ℕ} {request : RefreshRequest} {clientId u : String}
    {set : UpstreamTokenSet} {ttl : Duration}
    (hconn : (run.state n).conns i = some (.refreshGrant request
      (.running (.replace clientId u set ttl)))) :
    ∃ e < n, ∃ q < e, ∃ earlier deadline secret,
      (run.state q).proxy.upstreamTokens.lookup u = some (earlier, deadline) ∧
      earlier.refresh = some secret ∧ Refreshes run e u secret set := by
  obtain ⟨e, he, sending, client, secret, scopes, hsends, choice, token, hlabel, hanswer,
      hset⟩ := traced Conn.renewed
    (fun e i held => ∃ request clientId secret scopes,
      (run.state e).conns i = some (.refreshGrant request
        (.running (.upstreamRefresh clientId held.1 secret scopes))) ∧
      ∃ choice token, run.label e = .poll i choice ∧ choice.answer = some token ∧
        held.2 = token.toSet (run.state e).now scopes)
    (fun _ hinert => hinert.renewed)
    (fun n i choice before step held hlabel hbefore hstep hview => by
      rcases Conn.renewed_step hstep hview with
        hold | ⟨request, clientId, secret, scopes, token, rfl, hanswer, hset⟩
      · exact Or.inl hold
      · exact Or.inr ⟨request, clientId, secret, scopes, hbefore, choice, token,
          hlabel, hanswer, hset⟩)
    hconn rfl
  obtain ⟨q, hq, hsecret⟩ := traced Conn.spending
    (fun q _ held => (run.state q).proxy.upstreamTokens.refreshToken
      (run.state q).now held.1 = some held.2)
    (fun _ hinert => hinert.spending)
    (fun n i choice before step held _ _ hstep hview => Conn.spending_step hstep hview)
    hsends rfl
  obtain ⟨earlier, hlive, hrefresh⟩ := Option.bind_eq_some_iff.mp hsecret
  obtain ⟨deadline, hlookup⟩ := live_eq_some hlive
  exact ⟨e, he, q, hq, earlier, deadline, secret, hlookup, hrefresh, i, sending, client,
    scopes, choice, token, hsends, hlabel, hanswer, hset⟩

theorem stored_descends
    {n : ℕ} {u : String} {set : UpstreamTokenSet} {deadline : Instant}
    (hlookup : (run.state n).proxy.upstreamTokens.lookup u = some (set, deadline)) :
    ∃ o j request transaction first, Opens run o j u request transaction first ∧
      ∃ d < n, Descends run o u first d set := by
  induction n using Nat.strong_induction_on generalizing set deadline with
  | _ n ih =>
      obtain ⟨k, hkn, i, op, conn, hsection, hconn, hperforms, hnot, hk⟩ := brought_about
        (fun proxy => proxy.upstreamTokens.lookup u = some (set, deadline))
        (by simp [State.initial, ProxyState.new]) hlookup
      rcases StoreOp.upstreamTokens_after hk with hold | rfl | ⟨rfl, -, -⟩
      · exact absurd hold hnot
      · cases hperforms with
        | take u pc htaking hop => cases pc <;> simp [TakePc.section] at hop
        | codeInsert request set ttl deadline id =>
            obtain ⟨transaction, hopens⟩ := opens_of_insert hsection hconn
            exact ⟨k, i, request, transaction, set, hopens, k, hkn, .opened⟩
      · cases hperforms with
        | take u pc htaking hop => cases pc <;> simp [TakePc.section] at hop
        | refreshReplace request clientId u set ttl =>
            obtain ⟨e, he, q, hq, earlier, expires, secret, hstored, hsecret, hrefreshes⟩ :=
              refreshes_of_replace hconn
            obtain ⟨o, j, opening, transaction, first, hopens, d, hd, hdescends⟩ :=
              ih q (by omega) hstored
            exact ⟨o, j, opening, transaction, first, hopens, e, by omega,
              hdescends.refreshed (by omega) hsecret hrefreshes⟩

/-! ## The client of a session -/

theorem Opens.request_eq
    {o j o' j' : ℕ} {u : String} {request request' : CodeRequest}
    {transaction transaction' : Transaction} {first first' : UpstreamTokenSet}
    (hopens : Opens run o j u request transaction first)
    (hopens' : Opens run o' j' u request' transaction' first') : request = request' := by
  obtain ⟨_, hsection⟩ := hopens.inserted
  obtain ⟨_, hsection'⟩ := hopens'.inserted
  obtain rfl := inserted_once hsection hsection' rfl rfl
  obtain ⟨rfl, -⟩ := hsection.unique hsection'
  obtain ⟨_, _, hconn⟩ := hopens.conn
  obtain ⟨_, _, hconn'⟩ := hopens'.conn
  rw [hconn] at hconn'
  cases hconn'
  rfl

variable (run) in
/-- The session was opened by a request of this client. -/
def OwnedBy (u clientId : String) : Prop :=
  ∃ o j request transaction first,
    Opens run o j u request transaction first ∧ request.clientId = clientId

theorem ownedBy_of_opened
    {n i : ℕ} {conn : Conn} {request : CodeRequest} {u : String}
    (hconn : (run.state n).conns i = some conn)
    (hopened : conn.opened = some (request, u)) : OwnedBy run u request.clientId := by
  obtain ⟨o, -, set, ttl, deadline, hinserts, hsection⟩ := traced Conn.opened
    (fun o i held => ∃ set ttl deadline,
      (run.state o).conns i =
        some (.codeGrant held.1 (.running (.insert set ttl deadline))) ∧
      SectionOf run o i (.insertUpstream held.2 set deadline))
    (fun _ hinert => hinert.opened)
    (fun n i choice before step held hlabel hbefore hstep hview => by
      rcases Conn.opened_step hstep hview with hold | ⟨set, ttl, deadline, rfl, hop⟩
      · exact Or.inl hold
      · exact Or.inr ⟨set, ttl, deadline, hbefore,
          choice, _, step, hlabel, hbefore, hstep, hop⟩)
    hconn hopened
  obtain ⟨transaction, hopens⟩ := opens_of_insert hsection hinserts
  exact ⟨o, i, request, transaction, set, hopens, rfl⟩

theorem redeemCurrent_eq_ok
    {store : RefreshStore} {now : Instant} {key : Digest} {clientId u : String}
    (hredeemed : (store.redeemCurrent now key).2 = .ok clientId u) :
    ∃ owner deadline, store.current.lookup key = some (owner, deadline) ∧
      owner.clientId = clientId ∧ owner.upstreamId = u := by
  unfold RefreshStore.redeemCurrent at hredeemed
  split at hredeemed
  next owner deadline hlookup =>
    refine ⟨owner, deadline, hlookup, ?_⟩
    split at hredeemed
    · cases hredeemed
    · split at hredeemed
      · cases hredeemed
      · cases hredeemed
        exact ⟨rfl, rfl⟩
  next => cases hredeemed

theorem ownedBy_of_mintsFor
    {n i : ℕ} {conn : Conn} {clientId u : String}
    (hcurrent : ∀ q < n, ∀ key owner deadline,
      (run.state q).proxy.refreshTokens.current.lookup key = some (owner, deadline) →
        OwnedBy run owner.upstreamId owner.clientId)
    (hconn : (run.state n).conns i = some conn)
    (hmints : conn.mintsFor = some (clientId, u)) : OwnedBy run u clientId := by
  obtain ⟨q, hq, key, hredeemed⟩ := traced Conn.mintsFor
    (fun q _ held => ∃ key, ((run.state q).proxy.refreshTokens.redeemCurrent
      (run.state q).now key).2 = .ok held.1 held.2)
    (fun _ hinert => hinert.mintsFor)
    (fun n i choice before step held _ _ hstep hview => Conn.mintsFor_step hstep hview)
    hconn hmints
  obtain ⟨owner, deadline, hlookup, rfl, rfl⟩ := redeemCurrent_eq_ok hredeemed
  exact hcurrent q hq key owner deadline hlookup

/-- Every refresh token belongs to the client that opened its session. -/
theorem refresh_owned
    {n : ℕ} {key : Digest} {owner : RefreshOwner} {deadline : Instant}
    (hlookup : (run.state n).proxy.refreshTokens.current.lookup key =
      some (owner, deadline)) : OwnedBy run owner.upstreamId owner.clientId := by
  induction n using Nat.strong_induction_on generalizing key owner deadline with
  | _ n ih =>
      obtain ⟨k, hkn, i, op, conn, hsection, hconn, hperforms, hnot, hk⟩ := brought_about
        (fun proxy => proxy.refreshTokens.current.lookup key = some (owner, deadline))
        (by simp [State.initial, ProxyState.new]) hlookup
      rcases StoreOp.current_after hk with hold | ⟨rfl, -, -⟩ | ⟨-, -, -, hactive⟩ |
        ⟨-, -, hinFlight⟩
      · exact absurd hold hnot
      · generalize hclient : owner.clientId = clientId at hperforms
        generalize hsession : owner.upstreamId = u at hperforms
        cases hperforms with
        | take u pc htaking hop => cases pc <;> simp [TakePc.section] at hop
        | codeMintRefresh request u ttl scope accessToken draw =>
            exact ownedBy_of_opened hconn rfl
        | refreshMintRefresh request clientId u ttl scope accessToken draw =>
            refine ownedBy_of_mintsFor (fun q hq key owner deadline hstored => ?_) hconn rfl
            exact ih q (hq.trans hkn) hstored
      · have howned := ih k hkn hactive
        exact howned
      · have howned := ih k hkn hinFlight
        exact howned

theorem token_owned
    {n : ℕ} {key : Digest} {entry : TokenEntry} {deadline : Instant}
    (hlookup : (run.state n).proxy.tokens.lookup key = some (entry, deadline)) :
    OwnedBy run entry.upstreamId entry.clientId := by
  obtain ⟨k, -, i, op, conn, hsection, hconn, hperforms, hnot, hk⟩ := brought_about
    (fun proxy => proxy.tokens.lookup key = some (entry, deadline))
    (by simp [State.initial, ProxyState.new]) hlookup
  rcases StoreOp.tokens_after hk with hold | ⟨ttl, rfl, -⟩
  · exact absurd hold hnot
  · cases hperforms with
    | take u pc htaking hop => cases pc <;> simp [TakePc.section] at hop
    | codeMintAccess request u ttl wantsRefresh scope draw =>
        exact ownedBy_of_opened hconn rfl
    | refreshMintAccess request clientId u ttl wantsRefresh scope draw =>
        exact ownedBy_of_mintsFor (fun _ _ _ _ _ hstored => refresh_owned hstored)
          hconn rfl

/-! ## The token that is used -/

/-- The upstream token that is verified in the place of a presented token comes
from the session which the presented token was minted for.  It was issued for
the consent that opened this session, or for a chain of refreshes that began
with the tokens of that consent; and the client of that consent is the one the
presented token was minted for. -/
theorem bearer_token_descends
    (run : ProxyRun env) {n i : ℕ} {presented access : String}
    (hconn : (run.state n).conns i =
      some (.bearer presented (.running (.verify access)))) :
    ∃ o j u request transaction first, Opens run o j u request transaction first ∧
      (∃ r < n, ∃ deadline,
        (run.state r).proxy.tokens.lookup (env.digest presented) =
          some ({ upstreamId := u, clientId := transaction.clientId }, deadline)) ∧
      ∃ d < n, ∃ set, Descends run o u first d set ∧ set.access = access := by
  obtain ⟨q, hq, entry, hresolved, haccess⟩ := traced Conn.verifying
    (fun q i held => ∃ entry,
      (run.state q).conns i = some (.bearer held.1 (.running (.accessToken entry))) ∧
      (run.state q).proxy.upstreamTokens.accessToken (run.state q).now
        entry.upstreamId = some held.2)
    (fun _ hinert => hinert.verifying)
    (fun n i choice before step held _ hbefore hstep hview => by
      obtain ⟨entry, rfl, hfound⟩ := Conn.verifying_step hstep hview
      exact Or.inr ⟨entry, hbefore, hfound⟩)
    hconn rfl
  obtain ⟨r, hr, deadline, htoken⟩ := traced Conn.resolved
    (fun r _ held => ∃ deadline,
      (run.state r).proxy.tokens.lookup (env.digest held.1) = some (held.2, deadline))
    (fun _ hinert => hinert.resolved)
    (fun n i choice before step held _ _ hstep hview =>
      Or.inr (Conn.resolved_step hstep hview))
    hresolved rfl
  obtain ⟨set, hlive, hset⟩ := Option.map_eq_some_iff.mp haccess
  obtain ⟨expires, hstored⟩ := live_eq_some hlive
  obtain ⟨o, j, request, transaction, first, hopens, d, hd, hdescends⟩ :=
    stored_descends hstored
  obtain ⟨_, _, _, _, _, hopens', hclient⟩ := token_owned htoken
  rw [← hopens.request_eq hopens', ← hopens.client] at hclient
  refine ⟨o, j, entry.upstreamId, request, transaction, first, hopens,
    ⟨r, hr.trans hq, deadline, ?_⟩, d, hd.trans hq, set, hdescends, hset⟩
  rw [htoken, hclient]

end Runs

namespace Sample

/-- After the session of the first client, its token is presented. -/
def presentedAfterwards : List Label :=
  first.session 0 ++
    [.spawn 4 (.bearer (some (accessTokenPrefix ++ first.access))), .poll 4 {},
      .poll 4 {}]

theorem presentedAfterwards_enabled :
    Transition.Enabled (State.next env) State.initial presentedAfterwards = true := by
  decide +kernel

theorem presented_verified :
    ((run presentedAfterwards presentedAfterwards_enabled).state 27).conns 4 =
      some (.bearer (accessTokenPrefix ++ first.access)
        (.running (.verify "upstream-access"))) := by
  decide +kernel

theorem presented_token_descends :
    ∃ o j u request transaction opening,
      Opens (run presentedAfterwards presentedAfterwards_enabled) o j u request
        transaction opening ∧
      (∃ r < 27, ∃ deadline,
        ((run presentedAfterwards presentedAfterwards_enabled).state
          r).proxy.tokens.lookup (env.digest (accessTokenPrefix ++ first.access)) =
            some ({ upstreamId := u, clientId := transaction.clientId }, deadline)) ∧
      ∃ d < 27, ∃ set,
        Descends (run presentedAfterwards presentedAfterwards_enabled) o u opening d
          set ∧ set.access = "upstream-access" :=
  bearer_token_descends (run presentedAfterwards presentedAfterwards_enabled)
    presented_verified

end Sample

end RuprogressMcp
