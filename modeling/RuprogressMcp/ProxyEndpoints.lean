import RuprogressMcp.ProxyRedirect
import RuprogressMcp.ProxyStore

/-!
# The `oauth-proxy` request handlers

The handlers of `oauth/proxy/endpoints.rs` and the middleware of
`auth/proxy.rs`, each as a machine whose steps are its critical sections.  The
task of a handler records the section that comes next together with the local
variables that are live there; the code between two sections belongs to the
step that ends the first of them.  Nothing is locked across an `await`, so an
`await` is a task of its own, and it is the only kind of task at which a
request can be cancelled.

What comes from outside the process enters a step through its `Choice`: the
bytes drawn from the system generator and the answer of the upstream server.
-/

namespace RuprogressMcp

/-- What the handlers take from libraries and from the configuration. -/
structure Env where
  digest : String → Digest
  challengeFor : String → String
  debug : String → String
  parseUrl : String → Option Url
  form : FormCodec
  redirects : RedirectPolicy
  scopes : List String
  baseUrl : String
  redmineBase : String
  upstreamClientId : String

structure UpstreamToken where
  accessToken : String
  refreshToken : Option String
  expiresIn : Option ℕ
  scope : Option String
deriving DecidableEq

/-- The external input of one step.  An absent draw is a failure of the
system generator, an absent answer a failed upstream call, and the verdict on
an upstream token is absent when introspection is unavailable. -/
structure Choice where
  verifier : Option String := none
  draw : Option String := none
  answer : Option UpstreamToken := none
  verdict : Option Bool := none

structure MintedPair where
  accessToken : String
  accessDigest : Digest
  refreshToken : Option String
  refreshDigest : Option Digest
  ttl : Duration
deriving DecidableEq

structure TokenError where
  status : ℕ
  error : String
deriving DecidableEq

inductive Response
  | tokenError (error : TokenError)
  | tokenResponse (pair : MintedPair) (scope : String)
  | plain (status : ℕ) (message : String)
  | redirect (location : Url)
  | metadataError (status : ℕ) (error description : String)
  | registered (registration : ClientRegistration)
  | revoked
  | invalidRequest (status : ℕ) (error description : String)
  | challenge (error : Option String)
  | unavailable
  | forwarded
deriving DecidableEq

/-- The `Location` header of a response. -/
def Response.location : Response → Option Url
  | redirect location => some location
  | _ => none

inductive Phase (τ : Type)
  | running (task : τ)
  | finished (response : Option Response)
deriving DecidableEq

/-- One step of a handler: the section it performed, what comes next, and
the token sets it handed to `revoke_upstream_and_purge`. -/
structure StepResult (τ : Type) where
  op : StoreOp
  phase : Phase τ
  revoking : List UpstreamTokenSet := []

def accessTokenPrefix : String := "rup_at_"

def refreshTokenPrefix : String := "rup_rt_"

def codePrefix : String := "rup_ac_"

def startsWith (s pre : String) : Bool := pre.toList.isPrefixOf s.toList

def nonEmpty (s : Option String) : Option String := s.filter (· ≠ "")

def trimTrailingSlash (raw : String) : String :=
  if raw.toList.getLast? = some '/' then
    String.ofList raw.toList.dropLast
  else raw

/-! ## String splitting of the standard library -/

def isAsciiWhitespace (c : Char) : Bool :=
  c = ' ' || c = '\t' || c = '\n' || c = '\r' || c.toNat = 12

def isUnicodeWhitespace (c : Char) : Bool :=
  let n := c.toNat
  (9 ≤ n && n ≤ 13) || n = 0x20 || n = 0x85 || n = 0xa0 || n = 0x1680 ||
    (0x2000 ≤ n && n ≤ 0x200a) || n = 0x2028 || n = 0x2029 ||
    n = 0x202f || n = 0x205f || n = 0x3000

def splitWords (isSpace : Char → Bool) (s : String) : List String :=
  ((s.toList.splitOnP isSpace).filter (· ≠ [])).map String.ofList

def splitAsciiWhitespace : String → List String := splitWords isAsciiWhitespace

def splitWhitespace : String → List String := splitWords isUnicodeWhitespace

def narrow (full : List String) (raw : String) : Option (List String) :=
  let requested := splitWhitespace raw
  if requested.all (decide <| · ∈ full) then
    some (full.filter (decide <| · ∈ requested))
  else none

/-! ## PKCE -/

def constantTimeEq (a b : List UInt8) : Bool :=
  if a.length ≠ b.length then false
  else (a.zip b).foldl (fun diff xy => diff ||| (xy.1 ^^^ xy.2)) 0 == 0

def pkceVerify (env : Env) (codeChallenge verifier : String) : Bool :=
  constantTimeEq (utf8Bytes (env.challengeFor verifier))
    (utf8Bytes codeChallenge)

/-! ## Responses shared by the flow handlers -/

def plain400 (message : String) : Response := .plain 400 message

def redirectError (env : Env) (redirectUri : String)
    (clientState : Option String) (error description : String) : Response :=
  match env.parseUrl redirectUri with
  | none => plain400 "redirect_uri is not a valid URL"
  | some url =>
      .redirect (env.form.appendPairs url
        ([("error", error), ("error_description", description)] ++
          (clientState.map fun state => ("state", state)).toList ++
          [("iss", trimTrailingSlash env.baseUrl)]))

def invalidRequest : TokenError :=
  { status := 400, error := "invalid_request" }

def invalidGrant : TokenError := { status := 400, error := "invalid_grant" }

def serverError : TokenError := { status := 500, error := "server_error" }

def Phase.failed {τ : Type} (error : TokenError) : Phase τ :=
  .finished (some (.tokenError error))

/-- The token set that a successful upstream answer yields, with the scopes
to use when the answer names none. -/
def UpstreamToken.toSet (token : UpstreamToken) (now : Instant)
    (defaultScopes : List String) : UpstreamTokenSet where
  access := token.accessToken
  refresh := token.refreshToken
  grantedScopes := (token.scope.map splitAsciiWhitespace).getD defaultScopes
  expiresAt := expiresAfter now (seconds (token.expiresIn.getD 3600))

/-! ## `POST /register` -/

structure RegisterRequest where
  redirectUris : List String
  clientName : Option String
  grantTypes : Option (List String)
  responseTypes : Option (List String)
  tokenEndpointAuthMethod : Option String
deriving DecidableEq

inductive RegisterTask
  | liveTokens
  | liveRefresh (live : List String)
  | register (live : List String)
deriving DecidableEq

namespace RegisterTask

def metadataError (description : String) : Response :=
  .metadataError 400 "invalid_client_metadata" description

/-- The checks on the payload; the errors name the offending entry. -/
def start (env : Env) (request : RegisterRequest) : Phase RegisterTask :=
  let unsupportedGrant := (request.grantTypes.getD []).find?
    fun grant => decide (grant ∉ ["authorization_code", "refresh_token"])
  let unsupportedResponse := (request.responseTypes.getD []).find?
    fun response => decide (response ∉ ["code"])
  let rejectedUri := request.redirectUris.find?
    fun uri => !env.redirects.permits env.parseUrl uri
  match unsupportedGrant, unsupportedResponse with
  | some grant, _ =>
      .finished (some (metadataError
        ("grant_types entry " ++ env.debug grant ++ " is not supported")))
  | none, some response =>
      .finished (some (metadataError
        ("response_types entry " ++ env.debug response ++ " is not supported")))
  | none, none =>
      if request.tokenEndpointAuthMethod.getD "none" ≠ "none" then
        .finished (some (metadataError
          ("token_endpoint_auth_method " ++
            env.debug (request.tokenEndpointAuthMethod.getD "none") ++
            " is not supported: every client registered here is public " ++
            "(\"none\")")))
      else if request.redirectUris = [] then
        .finished (some (metadataError
          "redirect_uris must contain at least one entry"))
      else
        match rejectedUri with
        | some uri =>
            .finished (some (.metadataError 400 "invalid_redirect_uri"
              ("redirect_uri " ++ env.debug uri ++ " is not allowed")))
        | none => .running .liveTokens

def step (now : Instant) (choice : Choice) (proxy : ProxyState)
    (request : RegisterRequest) : RegisterTask → StepResult RegisterTask
  | liveTokens =>
      { op := .observe
        phase := .running (.liveRefresh (proxy.tokens.liveClientIds now)) }
  | liveRefresh live =>
      { op := .observe
        phase := .running
          (.register (live ++ proxy.refreshTokens.liveClientIds now)) }
  | register live =>
      { op := .registerClient request.redirectUris request.clientName live
          choice.draw
        phase := .finished (some
          (match (proxy.registry.register now request.redirectUris
              request.clientName live choice.draw).2 with
          | some registration => .registered registration
          | none => .metadataError 503 "temporarily_unavailable"
              "the client registry is full; try again shortly")) }

end RegisterTask

/-! ## `GET /authorize` -/

structure AuthorizeQuery where
  responseType : Option String
  clientId : Option String
  redirectUri : Option String
  scope : Option String
  state : Option String
  codeChallenge : Option String
  codeChallengeMethod : Option String
deriving DecidableEq

inductive AuthorizeTask
  | lookup (clientId : String)
  | touch (clientId : String) (registration : ClientRegistration)
  | create (clientId redirectUri codeChallenge : String)
      (scopes : List String)
deriving DecidableEq

namespace AuthorizeTask

def start (query : AuthorizeQuery) : Phase AuthorizeTask :=
  match nonEmpty query.clientId with
  | none => .finished (some (plain400 "client_id is required"))
  | some clientId => .running (.lookup clientId)

/-- The rest of phase A: the redirect URI must be registered for the client
and permitted by the policy. -/
def phaseA (env : Env) (query : AuthorizeQuery)
    (registration : ClientRegistration) : Except String String :=
  match nonEmpty query.redirectUri with
  | none => .error "redirect_uri is required"
  | some redirectUri =>
      if redirectUri ∉ registration.redirectUris then
        .error "redirect_uri is not registered for this client"
      else if env.redirects.permits env.parseUrl redirectUri = false then
        .error ("redirect_uri is no longer permitted by this deployment's " ++
          "redirect-URI policy")
      else .ok redirectUri

/-- The checks of phase B that come before the first draw. -/
def phaseB (env : Env) (query : AuthorizeQuery) (clientId redirectUri : String) :
    Phase AuthorizeTask :=
  let fail (error description : String) : Phase AuthorizeTask :=
    .finished (some
      (redirectError env redirectUri query.state error description))
  if query.responseType ≠ some "code" then
    fail "unsupported_response_type" "response_type must be \"code\""
  else
    match nonEmpty query.codeChallenge with
    | none => fail "invalid_request" "code_challenge is required"
    | some codeChallenge =>
        if query.codeChallengeMethod ≠ some "S256" then
          fail "invalid_request" "code_challenge_method must be \"S256\""
        else
          match query.scope.filter
              fun raw => !raw.toList.all isUnicodeWhitespace with
          | none =>
              .running (.create clientId redirectUri codeChallenge env.scopes)
          | some raw =>
              match narrow env.scopes raw with
              | some narrowed =>
                  .running (.create clientId redirectUri codeChallenge narrowed)
              | none =>
                  fail "invalid_scope"
                    ("one or more requested scopes are not advertised by " ++
                      "this deployment")

def upstreamAuthorize (env : Env) : Option Url :=
  env.parseUrl (trimTrailingSlash env.redmineBase ++ "/oauth/authorize")

def callbackUrl (env : Env) : String :=
  trimTrailingSlash env.baseUrl ++ "/auth/callback"

def upstreamPairs (env : Env) (scopes : List String)
    (transactionId upstreamVerifier : String) : List (String × String) :=
  [("client_id", env.upstreamClientId),
   ("redirect_uri", callbackUrl env),
   ("response_type", "code"),
   ("scope", String.intercalate " " scopes),
   ("state", transactionId),
   ("code_challenge", env.challengeFor upstreamVerifier),
   ("code_challenge_method", "S256")]

def step (env : Env) (now : Instant) (choice : Choice) (proxy : ProxyState)
    (query : AuthorizeQuery) : AuthorizeTask → StepResult AuthorizeTask
  | lookup clientId =>
      { op := .observe
        phase :=
          match proxy.registry.get clientId with
          | none =>
              .finished (some (plain400 "client_id is not a registered client"))
          | some registration => .running (.touch clientId registration) }
  | touch clientId registration =>
      { op := .touchClient clientId
        phase :=
          match phaseA env query registration with
          | .error message => .finished (some (plain400 message))
          | .ok redirectUri => phaseB env query clientId redirectUri }
  | create clientId redirectUri codeChallenge scopes =>
      let fail (error description : String) : Phase AuthorizeTask :=
        .finished (some
          (redirectError env redirectUri query.state error description))
      let atCapacity := fail "temporarily_unavailable"
        "the authorization service is at capacity; try again shortly"
      match choice.verifier, choice.draw with
      | none, _ =>
          { op := .observe
            phase := fail "temporarily_unavailable"
              ("the authorization service is temporarily unable to start " ++
                "a new flow") }
      | some _, none => { op := .observe, phase := atCapacity }
      | some verifier, some transactionId =>
          let transaction : Transaction :=
            { clientId, redirectUri, codeChallenge, scopes
              clientState := query.state
              upstreamCodeVerifier := verifier }
          let key := env.digest transactionId
          { op := .createTransaction key transaction
            phase :=
              if (proxy.transactions.create now key transaction).2 then
                match upstreamAuthorize env with
                | none => fail "server_error"
                    "this server's Redmine URL is misconfigured"
                | some url =>
                    .finished (some (.redirect (env.form.appendPairs url
                      (upstreamPairs env scopes transactionId verifier))))
              else atCapacity }

end AuthorizeTask

/-! ## `GET /auth/callback` -/

structure CallbackQuery where
  code : Option String
  state : Option String
  error : Option String
  errorDescription : Option String
deriving DecidableEq

inductive CallbackTask
  | take (rawState : String)
  | exchange (transaction : Transaction) (code : String)
  | mint (transaction : Transaction) (set : UpstreamTokenSet)
deriving DecidableEq

namespace CallbackTask

def start (query : CallbackQuery) : Phase CallbackTask :=
  match nonEmpty query.state with
  | none => .finished (some (plain400 "state is required"))
  | some rawState => .running (.take rawState)

/-- The failures after the transaction is known all go to its redirect URI. -/
def fail (env : Env) (transaction : Transaction)
    (error description : String) : Phase CallbackTask :=
  .finished (some (redirectError env transaction.redirectUri
    transaction.clientState error description))

def step (env : Env) (now : Instant) (choice : Choice) (proxy : ProxyState)
    (query : CallbackQuery) : CallbackTask → StepResult CallbackTask
  | take rawState =>
      let key := env.digest rawState
      { op := .takeTransaction key
        phase :=
          match (proxy.transactions.take now key).2 with
          | none =>
              .finished (some
                (plain400 "state is unknown, expired, or already used"))
          | some transaction =>
              match nonEmpty query.error with
              | some error => fail env transaction error
                  (query.errorDescription.getD
                    "the upstream authorization server returned an error")
              | none =>
                  match nonEmpty query.code with
                  | none => fail env transaction "invalid_request"
                      ("the upstream authorization server did not return " ++
                        "a code")
                  | some code => .running (.exchange transaction code) }
  | exchange transaction _ =>
      { op := .observe
        phase :=
          match choice.answer with
          | none => fail env transaction "server_error"
              ("failed to exchange the authorization code with the " ++
                "upstream authorization server")
          | some token =>
              .running (.mint transaction (token.toSet now transaction.scopes)) }
  | mint transaction set =>
      let atCapacity := fail env transaction "temporarily_unavailable"
        "the authorization service is at capacity; try again shortly"
      match choice.draw with
      | none => { op := .observe, phase := atCapacity }
      | some draw =>
          let code := codePrefix ++ draw
          let key := env.digest code
          let entry : PendingCode :=
            { clientId := transaction.clientId
              redirectUri := transaction.redirectUri
              codeChallenge := transaction.codeChallenge }
          { op := .mintCode key entry set
            phase :=
              if (proxy.codes.mint now key entry set).2 then
                match env.parseUrl transaction.redirectUri with
                | none =>
                    .finished (some
                      (plain400 "stored redirect_uri is not a valid URL"))
                | some url =>
                    .finished (some (.redirect (env.form.appendPairs url
                      ([("code", code)] ++
                        (transaction.clientState.map
                          fun state => ("state", state)).toList ++
                        [("iss", trimTrailingSlash env.baseUrl)]))))
              else atCapacity }

end CallbackTask

/-! ## `ProxyState::take_session` -/

inductive TakePc
  | upstream
  | tokens (set : UpstreamTokenSet)
  | refresh (set : UpstreamTokenSet)
deriving DecidableEq

/-- A session that is already gone ends the call before the purges. -/
def takeSession (proxy : ProxyState) (upstreamId : String) :
    TakePc → StoreOp × (TakePc ⊕ Option UpstreamTokenSet)
  | .upstream =>
      (.takeUpstream upstreamId,
        match (proxy.upstreamTokens.take upstreamId).2 with
        | none => .inr none
        | some set => .inl (.tokens set))
  | .tokens set => (.removeTokensByUpstream upstreamId, .inl (.refresh set))
  | .refresh set => (.removeRefreshByUpstream upstreamId, .inr (some set))

/-! ## `POST /token`, `authorization_code` -/

structure CodeFields where
  code : Option String
  redirectUri : Option String
  clientId : Option String
  codeVerifier : Option String
deriving DecidableEq

/-- The four fields of a request that has all of them. -/
structure CodeRequest where
  code : String
  redirectUri : String
  clientId : String
  codeVerifier : String
deriving DecidableEq

inductive CodeTask
  | redeemPending
  | redeemConsumed
  | removePending
  | removeUpstream
  | replayDeleteAccess (record : ConsumedRecord)
  | replayDeleteRefresh (record : ConsumedRecord) (refreshDigest : Digest)
  | replayTake (upstreamId : String) (pc : TakePc)
  | touch (set : UpstreamTokenSet)
  | sweep (set : UpstreamTokenSet)
  | sweepTokens (set : UpstreamTokenSet)
      (upstreamId : String) (expired : UpstreamTokenSet)
      (todo : List (String × UpstreamTokenSet)) (swept : List UpstreamTokenSet)
  | sweepRefresh (set : UpstreamTokenSet)
      (upstreamId : String) (expired : UpstreamTokenSet)
      (todo : List (String × UpstreamTokenSet)) (swept : List UpstreamTokenSet)
  | readTtl (set : UpstreamTokenSet)
  | readDeadline (set : UpstreamTokenSet) (ttl : Duration)
  | insert (set : UpstreamTokenSet) (ttl : Duration) (deadline : Instant)
  | mintAccess (upstreamId : String) (ttl : Duration) (wantsRefresh : Bool)
      (scope : String)
  | mintRefresh (upstreamId : String) (ttl : Duration) (scope : String)
      (accessToken : String)
  | rollback (upstreamId : String) (pc : TakePc)
  | markConsumed (upstreamId : String) (pair : MintedPair) (scope : String)
deriving DecidableEq

namespace CodeTask

def start : Phase CodeTask := .running .redeemPending

def bindingsMatch (env : Env) (entry : PendingCode) (request : CodeRequest) :
    Bool :=
  entry.clientId = request.clientId && entry.redirectUri = request.redirectUri
    && pkceVerify env entry.codeChallenge request.codeVerifier

/-- The next expired session to purge, or the end of the sweep. -/
def sweepNext (set : UpstreamTokenSet) (swept : List UpstreamTokenSet) :
    List (String × UpstreamTokenSet) → Phase CodeTask
  | [] => .running (.readTtl set)
  | (upstreamId, expired) :: todo =>
      .running (.sweepTokens set upstreamId expired todo swept)

/-- The swept sets that go to the background revocation: none before the
last session is purged, then those with a refresh token. -/
def sweepRevoking (swept : List UpstreamTokenSet) :
    List (String × UpstreamTokenSet) → List UpstreamTokenSet
  | [] => swept.filter fun set => set.refresh.isSome
  | _ :: _ => []

def step (env : Env) (now : Instant) (choice : Choice) (proxy : ProxyState)
    (request : CodeRequest) : CodeTask → StepResult CodeTask
  | redeemPending =>
      let key := env.digest request.code
      { op := .redeemPending key
        phase :=
          match (proxy.codes.redeemPending now key).2 with
          | none => .running .redeemConsumed
          | some entry =>
              if bindingsMatch env entry request then .running .removePending
              else .failed invalidGrant }
  | redeemConsumed =>
      { op := .observe
        phase :=
          match proxy.codes.redeemConsumed now (env.digest request.code) with
          | none => .failed invalidGrant
          | some record => .running (.replayDeleteAccess record) }
  | removePending =>
      { op := .removePending (env.digest request.code)
        phase := .running .removeUpstream }
  | removeUpstream =>
      let key := env.digest request.code
      { op := .removeCodeUpstream key
        phase :=
          match (proxy.codes.removeUpstream key).2 with
          | none => .failed invalidGrant
          | some set => .running (.touch set) }
  | replayDeleteAccess record =>
      { op := .removeToken record.mintedTokenDigest
        phase :=
          match record.mintedRefreshDigest with
          | some digest => .running (.replayDeleteRefresh record digest)
          | none => .running (.replayTake record.upstreamId .upstream) }
  | replayDeleteRefresh record digest =>
      { op := .removeCurrent digest
        phase := .running (.replayTake record.upstreamId .upstream) }
  | replayTake upstreamId pc =>
      { op := (takeSession proxy upstreamId pc).1
        phase :=
          match (takeSession proxy upstreamId pc).2 with
          | .inl pc => .running (.replayTake upstreamId pc)
          | .inr _ => .failed invalidGrant }
  | touch set =>
      { op := .touchClient request.clientId, phase := .running (.sweep set) }
  | sweep set =>
      { op := .sweepUpstream
        phase := sweepNext set [] (proxy.upstreamTokens.sweepExpired now).2 }
  | sweepTokens set upstreamId expired todo swept =>
      { op := .removeTokensByUpstream upstreamId
        phase := .running (.sweepRefresh set upstreamId expired todo swept) }
  | sweepRefresh set upstreamId expired todo swept =>
      { op := .removeRefreshByUpstream upstreamId
        phase := sweepNext set (swept ++ [expired]) todo
        revoking := sweepRevoking (swept ++ [expired]) todo }
  | readTtl set =>
      { op := .observe
        phase := .running (.readDeadline set (set.expiresAt - now)) }
  | readDeadline set ttl =>
      { op := .observe
        phase := .running
          (.insert set ttl (UpstreamStore.sessionDeadline now set)) }
  | insert set ttl deadline =>
      match choice.draw with
      | none => { op := .observe, phase := .failed serverError }
      | some id =>
          { op := .insertUpstream id set deadline
            phase :=
              if (UpstreamStore.insert proxy.upstreamTokens now id set
                  deadline).2 then
                .running (.mintAccess id ttl set.refresh.isSome
                  (String.intercalate " " set.grantedScopes))
              else .failed serverError }
  | mintAccess upstreamId ttl wantsRefresh scope =>
      match choice.draw with
      | none =>
          { op := .observe, phase := .running (.rollback upstreamId .upstream) }
      | some draw =>
          let token := accessTokenPrefix ++ draw
          let key := env.digest token
          let entry : TokenEntry :=
            { upstreamId, clientId := request.clientId }
          { op := .mintToken key entry ttl
            phase :=
              if (proxy.tokens.mint now key entry ttl).2 then
                if wantsRefresh then
                  .running (.mintRefresh upstreamId ttl scope token)
                else
                  .running (.markConsumed upstreamId
                    { accessToken := token, accessDigest := key
                      refreshToken := none, refreshDigest := none, ttl } scope)
              else .running (.rollback upstreamId .upstream) }
  | mintRefresh upstreamId ttl scope accessToken =>
      match choice.draw with
      | none =>
          { op := .observe, phase := .running (.rollback upstreamId .upstream) }
      | some draw =>
          let token := refreshTokenPrefix ++ draw
          let key := env.digest token
          { op := .mintRefresh key request.clientId upstreamId
            phase :=
              if (proxy.refreshTokens.mint now key request.clientId
                  upstreamId).2 then
                .running (.markConsumed upstreamId
                  { accessToken, accessDigest := env.digest accessToken
                    refreshToken := some token, refreshDigest := some key
                    ttl } scope)
              else .running (.rollback upstreamId .upstream) }
  | rollback upstreamId pc =>
      { op := (takeSession proxy upstreamId pc).1
        phase :=
          match (takeSession proxy upstreamId pc).2 with
          | .inl pc => .running (.rollback upstreamId pc)
          | .inr _ => .failed serverError }
  | markConsumed upstreamId pair scope =>
      { op := .markConsumed (env.digest request.code)
          { mintedTokenDigest := pair.accessDigest
            mintedRefreshDigest := pair.refreshDigest, upstreamId }
        phase := .finished (some (.tokenResponse pair scope)) }

end CodeTask

/-! ## `POST /token`, `refresh_token` -/

structure RefreshFields where
  refreshToken : Option String
  clientId : Option String
deriving DecidableEq

structure RefreshRequest where
  refreshToken : String
  clientId : String
deriving DecidableEq

/-- From `touch` on the request holds the in-flight guard of the presented
token; it is dropped by `rollback` on an early return or a cancellation, and
by `finish` after the token has been retired. -/
inductive RefreshTask
  | redeemCurrent
  | redeemRetired
  | reusedTake (upstreamId : String) (pc : TakePc)
  | reusedRevoke
  | touch (clientId upstreamId : String)
  | readRefresh (clientId upstreamId : String)
  | discardOrphaned (upstreamId : String)
  | readScopes (clientId upstreamId secret : String)
  | upstreamRefresh (clientId upstreamId secret : String)
      (grantedScopes : List String)
  | failedDiscard (upstreamId : String)
  | failedTake (upstreamId : String) (pc : TakePc)
  | readTtl (clientId upstreamId : String) (set : UpstreamTokenSet)
  | replace (clientId upstreamId : String) (set : UpstreamTokenSet)
      (ttl : Duration)
  | orphanDiscard (upstreamId : String) (set : UpstreamTokenSet)
  | orphanRevoke (upstreamId : String)
  | mintAccess (clientId upstreamId : String) (ttl : Duration)
      (wantsRefresh : Bool) (scope : String)
  | mintRefresh (clientId upstreamId : String) (ttl : Duration)
      (scope accessToken : String)
  | retireRemove (upstreamId : String) (pair : MintedPair) (scope : String)
  | retireInsert (upstreamId : String) (pair : MintedPair) (scope : String)
  | rollback (upstreamId : String) (failure : Option TokenError)
  | finish (upstreamId : String) (pair : MintedPair) (scope : String)
deriving DecidableEq

namespace RefreshTask

def start : Phase RefreshTask := .running .redeemCurrent

def step (env : Env) (now : Instant) (choice : Choice) (proxy : ProxyState)
    (request : RefreshRequest) : RefreshTask → StepResult RefreshTask
  | redeemCurrent =>
      let key := env.digest request.refreshToken
      { op := .redeemCurrent key
        phase :=
          match (proxy.refreshTokens.redeemCurrent now key).2 with
          | .absent => .running .redeemRetired
          | .reused upstreamId => .running (.reusedTake upstreamId .upstream)
          | .ok clientId upstreamId =>
              if clientId = request.clientId then
                .running (.touch clientId upstreamId)
              else .running (.rollback upstreamId (some invalidGrant)) }
  | redeemRetired =>
      { op := .observe
        phase :=
          match proxy.refreshTokens.redeemRetired now
              (env.digest request.refreshToken) with
          | some upstreamId => .running (.reusedTake upstreamId .upstream)
          | none => .failed invalidGrant }
  | reusedTake upstreamId pc =>
      { op := (takeSession proxy upstreamId pc).1
        phase :=
          match (takeSession proxy upstreamId pc).2 with
          | .inl pc => .running (.reusedTake upstreamId pc)
          | .inr (some _) => .running .reusedRevoke
          | .inr none => .failed invalidGrant
        revoking :=
          match (takeSession proxy upstreamId pc).2 with
          | .inr (some set) => [set]
          | _ => [] }
  | reusedRevoke => { op := .observe, phase := .failed invalidGrant }
  | touch clientId upstreamId =>
      { op := .touchClient clientId
        phase := .running (.readRefresh clientId upstreamId) }
  | readRefresh clientId upstreamId =>
      { op := .observe
        phase :=
          match proxy.upstreamTokens.refreshToken now upstreamId with
          | none => .running (.discardOrphaned upstreamId)
          | some secret => .running (.readScopes clientId upstreamId secret) }
  | discardOrphaned upstreamId =>
      { op := .removeCurrent (env.digest request.refreshToken)
        phase := .running (.rollback upstreamId (some invalidGrant)) }
  | readScopes clientId upstreamId secret =>
      { op := .observe
        phase := .running (.upstreamRefresh clientId upstreamId secret
          ((proxy.upstreamTokens.grantedScopes now upstreamId).getD [])) }
  | upstreamRefresh clientId upstreamId _ grantedScopes =>
      { op := .observe
        phase :=
          match choice.answer with
          | none => .running (.failedDiscard upstreamId)
          | some token =>
              .running (.readTtl clientId upstreamId
                (token.toSet now grantedScopes)) }
  | failedDiscard upstreamId =>
      { op := .removeCurrent (env.digest request.refreshToken)
        phase := .running (.failedTake upstreamId .upstream) }
  | failedTake upstreamId pc =>
      { op := (takeSession proxy upstreamId pc).1
        phase :=
          match (takeSession proxy upstreamId pc).2 with
          | .inl pc => .running (.failedTake upstreamId pc)
          | .inr _ => .running (.rollback upstreamId (some invalidGrant)) }
  | readTtl clientId upstreamId set =>
      { op := .observe
        phase := .running
          (.replace clientId upstreamId set (set.expiresAt - now)) }
  | replace clientId upstreamId set ttl =>
      { op := .replaceUpstream upstreamId set
        phase :=
          match (UpstreamStore.replace proxy.upstreamTokens now upstreamId
              set).2 with
          | .error set => .running (.orphanDiscard upstreamId set)
          | .ok () =>
              .running (.mintAccess clientId upstreamId ttl set.refresh.isSome
                (String.intercalate " " set.grantedScopes)) }
  | orphanDiscard upstreamId set =>
      { op := .removeCurrent (env.digest request.refreshToken)
        phase := .running (.orphanRevoke upstreamId)
        revoking := [set] }
  | orphanRevoke upstreamId =>
      { op := .observe
        phase := .running (.rollback upstreamId (some invalidGrant)) }
  | mintAccess clientId upstreamId ttl wantsRefresh scope =>
      let failed := Phase.running
        (RefreshTask.rollback upstreamId (some serverError))
      match choice.draw with
      | none => { op := .observe, phase := failed }
      | some draw =>
          let token := accessTokenPrefix ++ draw
          let key := env.digest token
          let entry : TokenEntry := { upstreamId, clientId }
          { op := .mintToken key entry ttl
            phase :=
              if (proxy.tokens.mint now key entry ttl).2 then
                if wantsRefresh then
                  .running (.mintRefresh clientId upstreamId ttl scope token)
                else
                  .running (.retireRemove upstreamId
                    { accessToken := token, accessDigest := key
                      refreshToken := none, refreshDigest := none, ttl } scope)
              else failed }
  | mintRefresh clientId upstreamId ttl scope accessToken =>
      let failed := Phase.running
        (RefreshTask.rollback upstreamId (some serverError))
      match choice.draw with
      | none => { op := .observe, phase := failed }
      | some draw =>
          let token := refreshTokenPrefix ++ draw
          let key := env.digest token
          { op := .mintRefresh key clientId upstreamId
            phase :=
              if (proxy.refreshTokens.mint now key clientId upstreamId).2 then
                .running (.retireRemove upstreamId
                  { accessToken, accessDigest := env.digest accessToken
                    refreshToken := some token, refreshDigest := some key
                    ttl } scope)
              else failed }
  | retireRemove upstreamId pair scope =>
      { op := .removeCurrent (env.digest request.refreshToken)
        phase := .running (.retireInsert upstreamId pair scope) }
  | retireInsert upstreamId pair scope =>
      { op := .insertRetired (env.digest request.refreshToken) upstreamId
        phase := .running (.finish upstreamId pair scope) }
  | rollback _ failure =>
      { op := .dropGuard (env.digest request.refreshToken)
        phase := .finished (failure.map .tokenError) }
  | finish _ pair scope =>
      { op := .dropGuard (env.digest request.refreshToken)
        phase := .finished (some (.tokenResponse pair scope)) }

/-- Dropping the future at an `await` drops the guard if it is held. -/
def cancel : RefreshTask → Option (Phase RefreshTask)
  | reusedRevoke => some (.finished none)
  | upstreamRefresh _ upstreamId _ _ =>
      some (.running (.rollback upstreamId none))
  | orphanRevoke upstreamId => some (.running (.rollback upstreamId none))
  | _ => none

end RefreshTask

/-! ## `POST /revoke` -/

inductive RevokeTask
  | takeToken
  | takeRefresh
  | takeSession (upstreamId : String) (pc : TakePc)
  | revokeUpstream
deriving DecidableEq

namespace RevokeTask

def start (token : String) : Phase RevokeTask :=
  if startsWith token accessTokenPrefix then .running .takeToken
  else if startsWith token refreshTokenPrefix then .running .takeRefresh
  else .finished (some .revoked)

def step (env : Env) (proxy : ProxyState) (token : String) :
    RevokeTask → StepResult RevokeTask
  | takeToken =>
      { op := .removeToken (env.digest token)
        phase :=
          match (proxy.tokens.take (env.digest token)).2 with
          | some entry => .running (.takeSession entry.upstreamId .upstream)
          | none => .finished (some .revoked) }
  | takeRefresh =>
      { op := .removeCurrent (env.digest token)
        phase :=
          match (proxy.refreshTokens.take (env.digest token)).2 with
          | some (_, upstreamId) => .running (.takeSession upstreamId .upstream)
          | none => .finished (some .revoked) }
  | takeSession upstreamId pc =>
      { op := (RuprogressMcp.takeSession proxy upstreamId pc).1
        phase :=
          match (RuprogressMcp.takeSession proxy upstreamId pc).2 with
          | .inl pc => .running (.takeSession upstreamId pc)
          | .inr (some _) => .running .revokeUpstream
          | .inr none => .finished (some .revoked)
        revoking :=
          match (RuprogressMcp.takeSession proxy upstreamId pc).2 with
          | .inr (some set) => [set]
          | _ => [] }
  | revokeUpstream => { op := .observe, phase := .finished (some .revoked) }

end RevokeTask

/-! ## The bearer middleware -/

inductive BearerTask
  | resolve
  | accessToken (entry : TokenEntry)
  | verify (upstreamAccess : String)
deriving DecidableEq

namespace BearerTask

def invalidToken : Response := .challenge (some "invalid_token")

def start (token : String) : Phase BearerTask :=
  if startsWith token accessTokenPrefix then .running .resolve
  else .finished (some invalidToken)

def step (env : Env) (now : Instant) (choice : Choice) (proxy : ProxyState)
    (token : String) : BearerTask → StepResult BearerTask
  | resolve =>
      let key := env.digest token
      { op := .resolveToken key
        phase :=
          match (proxy.tokens.resolve now key).2 with
          | none => .finished (some invalidToken)
          | some entry => .running (.accessToken entry) }
  | accessToken entry =>
      { op := .observe
        phase :=
          match proxy.upstreamTokens.accessToken now entry.upstreamId with
          | none => .finished (some invalidToken)
          | some access => .running (.verify access) }
  | verify _ =>
      { op := .observe
        phase := .finished (some
          (match choice.verdict with
          | some true => .forwarded
          | some false => invalidToken
          | none => .unavailable)) }

end BearerTask

end RuprogressMcp
