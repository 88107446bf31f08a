import RuprogressMcp.FormParameters
import RuprogressMcp.ProxyEndpoints
import RuprogressMcp.RustText
import RuprogressMcp.TransitionRuns

/-!
# Concurrent requests over the shared stores

The system runs any number of requests against one `ProxyState`.  A label
lets time pass, starts a request, performs the next critical section of a
running request, or cancels a request that is waiting at an `await`.  The
identifiers and tokens that the process draws never repeat: a step that would
draw one again is not part of any run.
-/

namespace RuprogressMcp

inductive Request
  | register (request : RegisterRequest)
  | authorize (query : AuthorizeQuery)
  | callback (query : CallbackQuery)
  | codeGrant (fields : CodeFields)
  | refreshGrant (fields : RefreshFields)
  | revoke (token : Option String)
  | bearer (token : Option String)

/-- A request in progress or answered. -/
inductive Conn
  | rejected (response : Response)
  | register (request : RegisterRequest) (phase : Phase RegisterTask)
  | authorize (query : AuthorizeQuery) (phase : Phase AuthorizeTask)
  | callback (query : CallbackQuery) (phase : Phase CallbackTask)
  | codeGrant (request : CodeRequest) (phase : Phase CodeTask)
  | refreshGrant (request : RefreshRequest) (phase : Phase RefreshTask)
  | revoke (token : String) (phase : Phase RevokeTask)
  | bearer (token : String) (phase : Phase BearerTask)
deriving DecidableEq

namespace Conn

def start (env : Env) : Request → Conn
  | .register request => .register request (RegisterTask.start env request)
  | .authorize query => .authorize query (AuthorizeTask.start query)
  | .callback query => .callback query (CallbackTask.start query)
  | .codeGrant fields =>
      match fields.code, fields.redirectUri, fields.clientId,
          fields.codeVerifier with
      | some code, some redirectUri, some clientId, some codeVerifier =>
          .codeGrant { code, redirectUri, clientId, codeVerifier }
            CodeTask.start
      | _, _, _, _ => .rejected (.tokenError invalidRequest)
  | .refreshGrant fields =>
      match fields.refreshToken, fields.clientId with
      | some refreshToken, some clientId =>
          .refreshGrant { refreshToken, clientId } RefreshTask.start
      | _, _ => .rejected (.tokenError invalidRequest)
  | .revoke token =>
      match nonEmpty token with
      | some token => .revoke token (RevokeTask.start token)
      | none =>
          .rejected (.invalidRequest 400 "invalid_request" "token is required")
  | .bearer token =>
      match token with
      | some token => .bearer token (BearerTask.start token)
      | none => .rejected (.challenge none)

/-- The result of one step of a request. -/
structure Step where
  op : StoreOp
  conn : Conn
  revoking : List UpstreamTokenSet

def Step.lift {τ : Type} (wrap : Phase τ → Conn) (result : StepResult τ) :
    Step :=
  { op := result.op, conn := wrap result.phase, revoking := result.revoking }

/-- The next critical section of a running request. -/
def step (env : Env) (now : Instant) (choice : Choice) (proxy : ProxyState) :
    Conn → Option Step
  | register request (.running task) =>
      some (.lift (register request) (task.step now choice proxy request))
  | authorize query (.running task) =>
      some (.lift (authorize query) (task.step env now choice proxy query))
  | callback query (.running task) =>
      some (.lift (callback query) (task.step env now choice proxy query))
  | codeGrant request (.running task) =>
      some (.lift (codeGrant request) (task.step env now choice proxy request))
  | refreshGrant request (.running task) =>
      some (.lift (refreshGrant request)
        (task.step env now choice proxy request))
  | revoke token (.running task) =>
      some (.lift (revoke token) (task.step env proxy token))
  | bearer token (.running task) =>
      some (.lift (bearer token) (task.step env now choice proxy token))
  | _ => none

/-- Dropping the future of a request that waits at an `await`. -/
def cancel : Conn → Option Conn
  | callback query (.running (.exchange _ _)) =>
      some (.callback query (.finished none))
  | refreshGrant request (.running task) =>
      task.cancel.map (refreshGrant request)
  | revoke token (.running .revokeUpstream) =>
      some (.revoke token (.finished none))
  | bearer token (.running (.verify _)) =>
      some (.bearer token (.finished none))
  | _ => none

/-- The answer of a request, once it has one. -/
def response : Conn → Option Response
  | rejected response => some response
  | register _ (.finished response) => response
  | authorize _ (.finished response) => response
  | callback _ (.finished response) => response
  | codeGrant _ (.finished response) => response
  | refreshGrant _ (.finished response) => response
  | revoke _ (.finished response) => response
  | bearer _ (.finished response) => response
  | _ => none

/-- Whether the request still has something to do. -/
def inProgress : Conn → Bool
  | register _ (.running _) => true
  | authorize _ (.running _) => true
  | callback _ (.running _) => true
  | codeGrant _ (.running _) => true
  | refreshGrant _ (.running _) => true
  | revoke _ (.running _) => true
  | bearer _ (.running _) => true
  | _ => false

end Conn

structure State where
  now : Instant
  proxy : ProxyState
  conns : ℕ → Option Conn
  drawn : List Digest
  drawnIds : List String
  revoking : List UpstreamTokenSet

def State.initial : State where
  now := 0
  proxy := ProxyState.new
  conns := fun _ => none
  drawn := []
  drawnIds := []
  revoking := []

def State.Quiescent (s : State) : Prop :=
  ∀ i conn, s.conns i = some conn → conn.inProgress = false

inductive Label
  | elapse (duration : Duration)
  | spawn (i : ℕ) (request : Request)
  | poll (i : ℕ) (choice : Choice)
  | cancel (i : ℕ)

namespace State

/-- The operation draws nothing that was drawn before. -/
def Fresh (s : State) (op : StoreOp) : Prop :=
  (∀ key ∈ op.mintedDigest, key ∉ s.drawn) ∧
    (∀ id ∈ op.mintedId, id ∉ s.drawnIds)

instance (s : State) (op : StoreOp) : Decidable (s.Fresh op) :=
  @instDecidableAnd _ _ (Option.decidableForallMem op.mintedDigest)
    (Option.decidableForallMem op.mintedId)

def setConn (s : State) (i : ℕ) (conn : Conn) : State :=
  { s with conns := Function.update s.conns i (some conn) }

def commit (s : State) (i : ℕ) (step : Conn.Step) : State where
  now := s.now
  proxy := step.op.apply s.now s.proxy
  conns := Function.update s.conns i (some step.conn)
  drawn := step.op.mintedDigest.toList ++ s.drawn
  drawnIds := step.op.mintedId.toList ++ s.drawnIds
  revoking := s.revoking ++ step.revoking

def next (env : Env) (s : State) : Label → Option State
  | .elapse duration => some { s with now := s.now + duration }
  | .spawn i request =>
      match s.conns i with
      | none => some (s.setConn i (Conn.start env request))
      | some _ => none
  | .poll i choice =>
      match (s.conns i).bind (·.step env s.now choice s.proxy) with
      | some step => if s.Fresh step.op then some (s.commit i step) else none
      | none => none
  | .cancel i =>
      match (s.conns i).bind Conn.cancel with
      | some conn => some (s.setConn i conn)
      | none => none

end State

abbrev ProxyRun (env : Env) :=
  Transition.Run (State.next env) State.initial

/-! ## What one step can do -/

/-- The four kinds of step, with everything they change. -/
inductive StepKind (env : Env) (s : State) : Label → State → Prop
  | elapse (duration : Duration) :
      StepKind env s (.elapse duration) { s with now := s.now + duration }
  | spawn (i : ℕ) (request : Request) (hfree : s.conns i = none) :
      StepKind env s (.spawn i request) (s.setConn i (Conn.start env request))
  | poll (i : ℕ) (choice : Choice) (conn : Conn) (step : Conn.Step)
      (hconn : s.conns i = some conn)
      (hstep : conn.step env s.now choice s.proxy = some step)
      (hfresh : s.Fresh step.op) :
      StepKind env s (.poll i choice) (s.commit i step)
  | cancel (i : ℕ) (conn cancelled : Conn)
      (hconn : s.conns i = some conn)
      (hcancel : conn.cancel = some cancelled) :
      StepKind env s (.cancel i) (s.setConn i cancelled)

theorem stepKind_of_next
    {env : Env} {s s' : State} {label : Label}
    (hnext : s.next env label = some s') : StepKind env s label s' := by
  cases label with
  | elapse duration =>
      simp only [State.next, Option.some.injEq] at hnext
      subst hnext
      exact .elapse duration
  | spawn i request =>
      cases hconn : s.conns i with
      | none =>
          simp only [State.next, hconn, Option.some.injEq] at hnext
          subst hnext
          exact .spawn i request hconn
      | some conn => simp [State.next, hconn] at hnext
  | poll i choice =>
      cases hconn : s.conns i with
      | none => simp [State.next, hconn] at hnext
      | some conn =>
          cases hstep : conn.step env s.now choice s.proxy with
          | none => simp [State.next, hconn, hstep] at hnext
          | some step =>
              simp only [State.next, hconn, Option.bind_some, hstep] at hnext
              split at hnext
              next hfresh =>
                simp only [Option.some.injEq] at hnext
                subst hnext
                exact .poll i choice conn step hconn hstep hfresh
              next => simp at hnext
  | cancel i =>
      cases hconn : s.conns i with
      | none => simp [State.next, hconn] at hnext
      | some conn =>
          cases hcancel : conn.cancel with
          | none => simp [State.next, hconn, hcancel] at hnext
          | some cancelled =>
              simp only [State.next, hconn, Option.bind_some, hcancel,
                Option.some.injEq] at hnext
              subst hnext
              exact .cancel i conn cancelled hconn hcancel

theorem now_le_next
    {env : Env} {s s' : State} {label : Label}
    (hnext : s.next env label = some s') : s.now ≤ s'.now := by
  cases stepKind_of_next hnext with
  | elapse duration => exact Nat.le_add_right _ _
  | _ => exact le_rfl

/-- The handler whose step a request performs. -/
inductive Conn.Advance (env : Env) (now : Instant) (choice : Choice)
    (proxy : ProxyState) : Conn → Conn.Step → Prop
  | register (request : RegisterRequest) (task : RegisterTask) :
      Advance env now choice proxy (.register request (.running task))
        (.lift (.register request) (task.step now choice proxy request))
  | authorize (query : AuthorizeQuery) (task : AuthorizeTask) :
      Advance env now choice proxy (.authorize query (.running task))
        (.lift (.authorize query) (task.step env now choice proxy query))
  | callback (query : CallbackQuery) (task : CallbackTask) :
      Advance env now choice proxy (.callback query (.running task))
        (.lift (.callback query) (task.step env now choice proxy query))
  | codeGrant (request : CodeRequest) (task : CodeTask) :
      Advance env now choice proxy (.codeGrant request (.running task))
        (.lift (.codeGrant request) (task.step env now choice proxy request))
  | refreshGrant (request : RefreshRequest) (task : RefreshTask) :
      Advance env now choice proxy (.refreshGrant request (.running task))
        (.lift (.refreshGrant request)
          (task.step env now choice proxy request))
  | revoke (token : String) (task : RevokeTask) :
      Advance env now choice proxy (.revoke token (.running task))
        (.lift (.revoke token) (task.step env proxy token))
  | bearer (token : String) (task : BearerTask) :
      Advance env now choice proxy (.bearer token (.running task))
        (.lift (.bearer token) (task.step env now choice proxy token))

theorem Conn.advance_of_step
    {env : Env} {now : Instant} {choice : Choice} {proxy : ProxyState}
    {conn : Conn} {step : Conn.Step}
    (hstep : conn.step env now choice proxy = some step) :
    Conn.Advance env now choice proxy conn step := by
  unfold Conn.step at hstep
  split at hstep
  all_goals simp only [Option.some.injEq, reduceCtorEq] at hstep
  all_goals subst hstep
  · exact .register ..
  · exact .authorize ..
  · exact .callback ..
  · exact .codeGrant ..
  · exact .refreshGrant ..
  · exact .revoke ..
  · exact .bearer ..

/-! ## What a step does to one request -/

theorem State.commit_conns_self (s : State) (i : ℕ) (step : Conn.Step) :
    (s.commit i step).conns i = some step.conn :=
  Function.update_self ..

theorem State.commit_conns_of_ne
    {s : State} {i j : ℕ} {step : Conn.Step} (hne : j ≠ i) :
    (s.commit i step).conns j = s.conns j :=
  Function.update_of_ne hne ..

theorem State.setConn_conns_self (s : State) (i : ℕ) (conn : Conn) :
    (s.setConn i conn).conns i = some conn :=
  Function.update_self ..

theorem State.setConn_conns_of_ne
    {s : State} {i j : ℕ} {conn : Conn} (hne : j ≠ i) :
    (s.setConn i conn).conns j = s.conns j :=
  Function.update_of_ne hne ..

theorem next_poll
    {env : Env} {s s' : State} {j : ℕ} {choice : Choice} {conn : Conn}
    (hnext : s.next env (.poll j choice) = some s')
    (hconn : s.conns j = some conn) :
    ∃ step, conn.step env s.now choice s.proxy = some step ∧
      s.Fresh step.op ∧ s' = s.commit j step := by
  generalize hlabel : Label.poll j choice = label at hnext
  cases stepKind_of_next hnext with
  | poll i _ polled step hpolled hstep hfresh =>
      cases hlabel
      rw [hconn, Option.some.injEq] at hpolled
      subst hpolled
      exact ⟨step, hstep, hfresh, rfl⟩
  | _ => simp at hlabel

theorem conn_next
    {env : Env} {s s' : State} {label : Label} {j : ℕ} {conn : Conn}
    (hnext : s.next env label = some s') (hconn : s.conns j = some conn) :
    s'.conns j = some conn ∨
      (∃ choice step, label = .poll j choice ∧
        conn.step env s.now choice s.proxy = some step ∧
        s.Fresh step.op ∧ s' = s.commit j step) ∨
      (∃ cancelled, label = .cancel j ∧ conn.cancel = some cancelled ∧
        s' = s.setConn j cancelled) := by
  cases stepKind_of_next hnext with
  | elapse duration => exact Or.inl hconn
  | spawn i request hfree =>
      have hne : j ≠ i := by
        rintro rfl
        simp [hfree] at hconn
      exact Or.inl ((State.setConn_conns_of_ne hne).trans hconn)
  | poll i choice polled step hpolled hstep hfresh =>
      by_cases heq : j = i
      · subst heq
        rw [hpolled, Option.some.injEq] at hconn
        subst hconn
        exact Or.inr (Or.inl ⟨choice, step, rfl, hstep, hfresh, rfl⟩)
      · exact Or.inl ((State.commit_conns_of_ne heq).trans hconn)
  | cancel i waiting cancelled hwaiting hcancel =>
      by_cases heq : j = i
      · subst heq
        rw [hwaiting, Option.some.injEq] at hconn
        subst hconn
        exact Or.inr (Or.inr ⟨cancelled, rfl, hcancel, rfl⟩)
      · exact Or.inl ((State.setConn_conns_of_ne heq).trans hconn)

/-- A code grant has no `await`, so a step leaves it alone or is its own. -/
theorem codeGrant_next
    {env : Env} {s s' : State} {label : Label} {j : ℕ} {request : CodeRequest}
    {task : CodeTask} (hnext : s.next env label = some s')
    (hconn : s.conns j = some (.codeGrant request (.running task))) :
    s'.conns j = some (.codeGrant request (.running task)) ∨
      ∃ choice, label = .poll j choice ∧
        s'.conns j = some (.codeGrant request
          (task.step env s.now choice s.proxy request).phase) ∧
        s'.proxy =
          (task.step env s.now choice s.proxy request).op.apply s.now s.proxy := by
  rcases conn_next hnext hconn with hsame | ⟨choice, step, hlabel, hstep, _, rfl⟩ |
    ⟨cancelled, _, hcancel, _⟩
  · exact Or.inl hsame
  · simp only [Conn.step, Option.some.injEq] at hstep
    subst hstep
    exact Or.inr ⟨choice, hlabel, State.commit_conns_self s j _, rfl⟩
  · simp [Conn.cancel] at hcancel

/-- A view of the requests that a start does not have and a cancellation
keeps changes only for the request that performs a section. -/
theorem view_next
    {env : Env} {s s' : State} {label : Label} {α : Type}
    (view : Conn → Option α)
    (hstart : ∀ request, view (Conn.start env request) = none)
    (hcancel : ∀ conn cancelled, conn.cancel = some cancelled →
      view cancelled = view conn)
    (hnext : s.next env label = some s') :
    (s'.proxy = s.proxy ∧ s'.drawn = s.drawn ∧ s'.drawnIds = s.drawnIds ∧
        ∀ j, (s'.conns j).bind view = (s.conns j).bind view) ∨
      ∃ i choice conn step, label = .poll i choice ∧
        s.conns i = some conn ∧
        conn.step env s.now choice s.proxy = some step ∧
        s.Fresh step.op ∧ s' = s.commit i step ∧
        ∀ j, j ≠ i → (s'.conns j).bind view = (s.conns j).bind view := by
  cases stepKind_of_next hnext with
  | elapse duration => exact Or.inl ⟨rfl, rfl, rfl, fun _ => rfl⟩
  | spawn i request hfree =>
      refine Or.inl ⟨rfl, rfl, rfl, fun j => ?_⟩
      by_cases heq : j = i
      · subst heq
        simp [State.setConn_conns_self, hfree, hstart]
      · rw [State.setConn_conns_of_ne heq]
  | poll i choice conn step hconn hstep hfresh =>
      refine Or.inr ⟨i, choice, conn, step, rfl, hconn, hstep, hfresh, rfl, ?_⟩
      intro j hne
      rw [State.commit_conns_of_ne hne]
  | cancel i conn cancelled hconn hcancelled =>
      refine Or.inl ⟨rfl, rfl, rfl, fun j => ?_⟩
      by_cases heq : j = i
      · subst heq
        simp [State.setConn_conns_self, hconn,
          hcancel conn cancelled hcancelled]
      · rw [State.setConn_conns_of_ne heq]

theorem ended_next
    {env : Env} {s s' : State} {label : Label} {j : ℕ} {conn : Conn}
    (hnext : s.next env label = some s') (hconn : s.conns j = some conn)
    (hended : conn.inProgress = false) : s'.conns j = some conn := by
  rcases conn_next hnext hconn with hsame | ⟨choice, step, _, hstep, _⟩ |
    ⟨cancelled, _, hcancel, _⟩
  · exact hsame
  · cases Conn.advance_of_step hstep <;> simp [Conn.inProgress] at hended
  · unfold Conn.cancel at hcancel
    split at hcancel
    all_goals simp [Conn.inProgress] at hended hcancel

theorem ended_run
    {env : Env} (run : ProxyRun env) {j m n : ℕ} {conn : Conn}
    (hconn : (run.state m).conns j = some conn)
    (hended : conn.inProgress = false) (hle : m ≤ n) :
    (run.state n).conns j = some conn :=
  run.stable (fun _ => True) (fun s => s.conns j = some conn)
    (fun _ => trivial)
    (fun _ _ _ _ hconn hnext => ended_next hnext hconn hended) hle hconn

theorem inProgress_before
    {env : Env} (run : ProxyRun env) {j m n k : ℕ} {started conn : Conn}
    (hstarted : (run.state m).conns j = some started) (hmn : m ≤ n)
    (hnk : n ≤ k) (hconn : (run.state k).conns j = some conn)
    (hprogress : conn.inProgress = true) :
    ∃ between, (run.state n).conns j = some between ∧
      between.inProgress = true := by
  have hsome : ∃ between, (run.state n).conns j = some between := by
    refine run.stable (fun _ => True) (fun s => ∃ conn, s.conns j = some conn)
      (fun _ => trivial) ?_ hmn ⟨started, hstarted⟩
    rintro s label s' _ ⟨before, hbefore⟩ hnext
    rcases conn_next hnext hbefore with hsame | ⟨choice, step, _, _, _, rfl⟩ |
      ⟨cancelled, _, _, rfl⟩
    · exact ⟨before, hsame⟩
    · exact ⟨_, State.commit_conns_self s j step⟩
    · exact ⟨_, State.setConn_conns_self s j cancelled⟩
  obtain ⟨between, hbetween⟩ := hsome
  refine ⟨between, hbetween, ?_⟩
  by_contra hended
  rw [ended_run run hbetween (by simpa using hended) hnk,
    Option.some.injEq] at hconn
  rw [hconn] at hended
  exact hended hprogress

theorem conn_before
    {env : Env} {s s' : State} {label : Label} {j : ℕ} {conn : Conn}
    (hnext : s.next env label = some s') (hconn : s'.conns j = some conn) :
    s.conns j = some conn ∨
      (∃ request, s.conns j = none ∧ conn = Conn.start env request) ∨
      (∃ choice before step, label = .poll j choice ∧
        s.conns j = some before ∧
        before.step env s.now choice s.proxy = some step ∧
        s.Fresh step.op ∧ s' = s.commit j step ∧ step.conn = conn) ∨
      (∃ before, label = .cancel j ∧ s.conns j = some before ∧
        before.cancel = some conn) := by
  cases stepKind_of_next hnext with
  | elapse duration => exact Or.inl hconn
  | spawn i request hfree =>
      by_cases heq : j = i
      · subst heq
        rw [State.setConn_conns_self, Option.some.injEq] at hconn
        exact Or.inr (Or.inl ⟨request, hfree, hconn.symm⟩)
      · rw [State.setConn_conns_of_ne heq] at hconn
        exact Or.inl hconn
  | poll i choice polled step hpolled hstep hfresh =>
      by_cases heq : j = i
      · subst heq
        rw [State.commit_conns_self, Option.some.injEq] at hconn
        exact Or.inr (Or.inr (Or.inl
          ⟨choice, polled, step, rfl, hpolled, hstep, hfresh, rfl, hconn⟩))
      · rw [State.commit_conns_of_ne heq] at hconn
        exact Or.inl hconn
  | cancel i waiting cancelled hwaiting hcancel =>
      by_cases heq : j = i
      · subst heq
        rw [State.setConn_conns_self, Option.some.injEq] at hconn
        subst hconn
        exact Or.inr (Or.inr (Or.inr ⟨waiting, rfl, hwaiting, hcancel⟩))
      · rw [State.setConn_conns_of_ne heq] at hconn
        exact Or.inl hconn

theorem unspawned_next
    {env : Env} {s s' : State} {label : Label} {j : ℕ}
    (hnext : s.next env label = some s')
    (hlabel : ∀ request, label ≠ .spawn j request)
    (hfree : s.conns j = none) : s'.conns j = none := by
  cases stepKind_of_next hnext with
  | elapse duration => exact hfree
  | spawn i request _ =>
      have hne : j ≠ i := by
        rintro rfl
        exact hlabel request rfl
      rwa [State.setConn_conns_of_ne hne]
  | poll i choice conn step hconn hstep hfresh =>
      have hne : j ≠ i := by
        rintro rfl
        simp [hfree] at hconn
      rwa [State.commit_conns_of_ne hne]
  | cancel i conn cancelled hconn hcancel =>
      have hne : j ≠ i := by
        rintro rfl
        simp [hfree] at hconn
      rwa [State.setConn_conns_of_ne hne]

/-! ## A sample deployment -/

namespace Sample

/-- SHA-256 of the values that occur in the sample traces. -/
def digests : List (String × Digest) :=
  [("AgICAgICAgICAgICAgICAgICAgICAgICAgICAgICAgI",
      0x6c1d63bbdab437c54368cbbd8886a886a79ad977297e265eebf1f5f5f01533b9#256),
   ("rup_ac_AwMDAwMDAwMDAwMDAwMDAwMDAwMDAwMDAwMDAwMDAwM",
      0x28374f8f195f2b46167b97a9274b7681bfe32e4ce2c7fa3696261574daacd9f6#256),
   ("rup_at_BAQEBAQEBAQEBAQEBAQEBAQEBAQEBAQEBAQEBAQEBAQ",
      0xa5c04e98537094a4063aca31d15ad95714eaee0d6b39751206e68e053d33b184#256),
   ("rup_rt_BQUFBQUFBQUFBQUFBQUFBQUFBQUFBQUFBQUFBQUFBQU",
      0x51b49fa103cf03789669cfbaec1cfe59ac5ca8f98e2e004500763aa60f5b6f6f#256),
   ("rup_at_BgYGBgYGBgYGBgYGBgYGBgYGBgYGBgYGBgYGBgYGBgY",
      0x81a19d83d6c9c8d129109a0a62e973abf7400a93ed5c6bd104031057bbb4865b#256),
   ("rup_rt_BwcHBwcHBwcHBwcHBwcHBwcHBwcHBwcHBwcHBwcHBwc",
      0x88946d3c3cea1344917c23f2f7de2687a309a43fe886a3e89d4e571f1cd3057b#256),
   ("CAgICAgICAgICAgICAgICAgICAgICAgICAgICAgICAg",
      0xce9ec58122164c824a43e0452ffbba3da694694b44563b5c548942dbb8ab8e14#256),
   ("rup_ac_CQkJCQkJCQkJCQkJCQkJCQkJCQkJCQkJCQkJCQkJCQk",
      0xaa3158afa992c87eb847e42df20321345d92b3ad7e74e8b8dfbeb6236ee78555#256),
   ("rup_at_CgoKCgoKCgoKCgoKCgoKCgoKCgoKCgoKCgoKCgoKCgo",
      0x26e334e9164ed32cf9640ee76f00f4d8f29611eb9cde2d5f37b13686a9957287#256),
   ("rup_rt_CwsLCwsLCwsLCwsLCwsLCwsLCwsLCwsLCwsLCwsLCws",
      0x1de8ecf14295fc4cdccd6f7db42ec787f8887da06ed913970f5020e1248f9330#256)]

def redirectUri : String := "http://127.0.0.1:8000/callback"

def verifier : String := "dBjftJeZ4CVP-mB92K27uhbUJU1p1r_wW1gFWFOEjXk"

def challenge : String := "E9Melhoa2OwvFrEMTJguCHaoeK1t8URWbuGJSstw-cM"

def upstreamVerifier : String := "AQEBAQEBAQEBAQEBAQEBAQEBAQEBAQEBAQEBAQEBAQE"

def env : Env where
  digest value := (digests.lookup value).getD 0
  challengeFor value :=
    if value = verifier then challenge
    else if value = upstreamVerifier then
      "VtX6czP210fbQsI5QH5dpMMvTHnzXQkrE0_TWkAtnFw"
    else ""
  debug text := "\"" ++ text ++ "\""
  parseUrl raw :=
    if raw = redirectUri then
      some
        { scheme := "http", username := "", password := none
          host := some "127.0.0.1", port := some 8000, path := "/callback"
          query := none, fragment := none }
    else if raw = "https://redmine.example.org/oauth/authorize" then
      some
        { scheme := "https", username := "", password := none
          host := some "redmine.example.org", port := none
          path := "/oauth/authorize", query := none, fragment := none }
    else none
  form := Form.codec
  redirects := .loopback
  scopes := ["view_issues"]
  baseUrl := "https://mcp.example.org"
  redmineBase := "https://redmine.example.org"
  upstreamClientId := "ruprogress"

/-- What one client's flow draws and what the upstream server answers. -/
structure Flow where
  clientId : String
  transactionId : String
  code : String
  sessionId : String
  access : String
  refresh : String
  answer : UpstreamToken

def first : Flow where
  clientId := "0123456789abcdef0123456789abcdef"
  transactionId := "AgICAgICAgICAgICAgICAgICAgICAgICAgICAgICAgI"
  code := "AwMDAwMDAwMDAwMDAwMDAwMDAwMDAwMDAwMDAwMDAwM"
  sessionId := "00112233445566778899aabbccddeeff"
  access := "BAQEBAQEBAQEBAQEBAQEBAQEBAQEBAQEBAQEBAQEBAQ"
  refresh := "BQUFBQUFBQUFBQUFBQUFBQUFBQUFBQUFBQUFBQUFBQU"
  answer :=
    { accessToken := "upstream-access", refreshToken := some "upstream-refresh"
      expiresIn := some 7200, scope := none }

def second : Flow where
  clientId := "fedcba9876543210fedcba9876543210"
  transactionId := "CAgICAgICAgICAgICAgICAgICAgICAgICAgICAgICAg"
  code := "CQkJCQkJCQkJCQkJCQkJCQkJCQkJCQkJCQkJCQkJCQk"
  sessionId := "ffeeddccbbaa99887766554433221100"
  access := "CgoKCgoKCgoKCgoKCgoKCgoKCgoKCgoKCgoKCgoKCgo"
  refresh := "CwsLCwsLCwsLCwsLCwsLCwsLCwsLCwsLCwsLCwsLCws"
  answer :=
    { accessToken := "upstream-access-2"
      refreshToken := some "upstream-refresh-2"
      expiresIn := some 7200, scope := none }

def upstreamSet : UpstreamTokenSet :=
  first.answer.toSet 0 env.scopes

/-- A drawn identifier: 32 characters, none of them a letter. -/
def drawnId (k : ℕ) : String := toString (10 ^ 31 + k)

theorem drawnId_injective {m n : ℕ} (heq : drawnId m = drawnId n) :
    m = n := by
  have hsum := RustText.toString_injective (congrArg String.toList heq)
  omega

/-- Registration, authorization and callback: requests `i`, `i + 1` and
`i + 2` leave a pending code. -/
def Flow.authorization (flow : Flow) (i : ℕ) : List Label :=
  [.spawn i (.register
      { redirectUris := [redirectUri], clientName := none, grantTypes := none
        responseTypes := none, tokenEndpointAuthMethod := none }),
    .poll i {}, .poll i {}, .poll i { draw := some flow.clientId },
    .spawn (i + 1) (.authorize
      { responseType := some "code", clientId := some flow.clientId
        redirectUri := some redirectUri, scope := none, state := none
        codeChallenge := some challenge
        codeChallengeMethod := some "S256" }),
    .poll (i + 1) {}, .poll (i + 1) {},
    .poll (i + 1)
      { verifier := some upstreamVerifier
        draw := some flow.transactionId },
    .spawn (i + 2) (.callback
      { code := some "upstream-code", state := some flow.transactionId
        error := none, errorDescription := none }),
    .poll (i + 2) {}, .poll (i + 2) { answer := some flow.answer },
    .poll (i + 2) { draw := some flow.code }]

def Flow.codeRequest (flow : Flow) : Request :=
  .codeGrant
    { code := some (codePrefix ++ flow.code)
      redirectUri := some redirectUri
      clientId := some flow.clientId, codeVerifier := some verifier }

/-- The code grant of request `i`, when no expired session is swept. -/
def Flow.codeGrant (flow : Flow) (i : ℕ) : List Label :=
  .spawn i flow.codeRequest ::
    List.replicate 7 (.poll i {}) ++
    [.poll i { draw := some flow.sessionId },
      .poll i { draw := some flow.access },
      .poll i { draw := some flow.refresh }, .poll i {}]

/-- Requests `i` to `i + 3` establish a session. -/
def Flow.session (flow : Flow) (i : ℕ) : List Label :=
  flow.authorization i ++ flow.codeGrant (i + 3)

/-- The run that performs the labels and then lets no more time pass. -/
def run (labels : List Label)
    (henabled : Transition.Enabled (State.next env) State.initial labels =
      true) : ProxyRun env :=
  .ofLabels (State.next env) State.initial labels (.elapse 0)
    (fun _ => rfl) henabled

theorem run_poll_lt
    {labels : List Label}
    {henabled : Transition.Enabled (State.next env) State.initial labels =
      true} {n i : ℕ} {choice : Choice}
    (hlabel : (run labels henabled).label n = .poll i choice) :
    n < labels.length := by
  by_contra hnot
  have hidle : (run labels henabled).label n = .elapse 0 :=
    Transition.Run.ofLabels_label_of_le (not_lt.mp hnot)
  rw [hidle] at hlabel
  simp at hlabel

/-- The label starts no request at or above the bound. -/
def spawnsBelow (bound : ℕ) : Label → Bool
  | .spawn i _ => decide (i < bound)
  | _ => true

theorem run_unspawned
    {labels : List Label}
    {henabled : Transition.Enabled (State.next env) State.initial labels =
      true} {bound i : ℕ} (hspawns : labels.all (spawnsBelow bound) = true)
    (hi : bound ≤ i) (n : ℕ) : ((run labels henabled).state n).conns i = none := by
  have hlabel (k : ℕ) (request : Request) :
      (run labels henabled).label k ≠ .spawn i request := by
    intro hspawn
    by_cases hk : k < labels.length
    · have hmem : Label.spawn i request ∈ labels := by
        rw [← hspawn]
        simp only [run, Transition.Run.ofLabels, List.getD_eq_getElem?_getD,
          List.getElem?_eq_getElem hk, Option.getD_some]
        exact List.getElem_mem hk
      have hbelow := List.all_eq_true.mp hspawns _ hmem
      exact absurd (show i < bound by simpa [spawnsBelow] using hbelow) (by omega)
    · have hidle : (run labels henabled).label k = .elapse 0 :=
        Transition.Run.ofLabels_label_of_le (not_lt.mp hk)
      rw [hidle] at hspawn
      simp at hspawn
  induction n with
  | zero => rfl
  | succ n ih => exact unspawned_next ((run labels henabled).step n) (hlabel n) ih

theorem run_quiescent
    {labels : List Label}
    {henabled : Transition.Enabled (State.next env) State.initial labels =
      true} {bound n : ℕ} (hspawns : labels.all (spawnsBelow bound) = true)
    (hended : ∀ i < bound, ∀ conn, ((run labels henabled).state n).conns i =
      some conn → conn.inProgress = false) :
    ((run labels henabled).state n).Quiescent := by
  intro i conn hconn
  by_cases hi : i < bound
  · exact hended i hi conn hconn
  · rw [run_unspawned hspawns (not_lt.mp hi) n] at hconn
    simp at hconn

end Sample

end RuprogressMcp
