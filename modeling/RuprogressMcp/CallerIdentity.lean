import RuprogressMcp.Base64Text
import RuprogressMcp.CacheSoundness
import RuprogressMcp.ConfigGuarantees
import RuprogressMcp.ConfigSecrecy
import RuprogressMcp.HttpHeaders
import RuprogressMcp.SessionTokens

/-!
# Whom a request to Redmine acts for

Every tool takes its credential from `RedmineMcp::scoped`.  What that is
depends on the mode of the server alone: the key of the server, the key in the
headers of the request, the bearer token that was verified for the request, or
the upstream token of the session that the presented token stands for.  There
is no way from one of these to another, and nothing is kept from one request
to the next.
-/

namespace RuprogressMcp

open Http (HeaderMap HeaderText HeaderValue)

open Startup (AuthMode Sources TransportConfig TransportKind sharesKey
  unauthenticatedNetworkVar)

namespace Edge

/-! ## The bearer token in the headers -/

inductive BearerError where
  | missing
  | malformed (reason : String)
deriving DecidableEq

def authorizationHeader : String := "authorization"

def maxTokenLen : ℕ := 4096

/-- What stands in an `Authorization` header. -/
def bearerToken (chars : List Char) : Except BearerError String :=
  match RustText.splitOnce [' '] chars with
  | none =>
      .error (.malformed "Authorization header must be \"Bearer <token>\"")
  | some (scheme, token) =>
      if scheme.map Char.toLower ≠ "bearer".toList then
        .error (.malformed "Authorization header must use the Bearer scheme")
      else if RustText.trim token ≠ token then
        .error (.malformed ("Authorization header must have exactly one space " ++
          "between the scheme and the token"))
      else if token = [] then
        .error (.malformed "Authorization header token must not be empty")
      else if maxTokenLen < RustText.byteLen token then
        .error (.malformed
          "Authorization header token exceeds the maximum accepted length")
      else if (Percent.utf8 token).all (fun b => 0x21 ≤ b && b ≤ 0x7e) = false then
        .error (.malformed ("Authorization header token contains invalid " ++
          "(non-visible-ASCII) characters"))
      else .ok (String.ofList token)

section Headers

variable (text : HeaderText)

def extractBearer (headers : HeaderMap) : Except BearerError String :=
  match headers.getAll authorizationHeader with
  | [] => .error .missing
  | [value] =>
      match text.toStr value with
      | none =>
          .error (.malformed ("Authorization header contains invalid " ++
            "(non-visible-ASCII) characters"))
      | some chars => bearerToken chars
  | _ => .error (.malformed "Authorization header must be sent exactly once")

/-! ## The key in the headers -/

inductive McpError where
  | invalidRequest (message : String)
  | internalError (message : String)
deriving DecidableEq

def keyHeader : String := "x-redmine-api-key"

def maxHeaderLen : ℕ := 512

def credentialFromParts (headers : HeaderMap) : Except McpError Retry.Credential :=
  match headers.getAll keyHeader with
  | [] => .error (.invalidRequest "missing required X-Redmine-API-Key header")
  | [value] =>
      if maxHeaderLen < value.length then
        .error (.invalidRequest
          "X-Redmine-API-Key header exceeds the maximum accepted length")
      else
        match text.toStr value with
        | none =>
            .error (.invalidRequest ("X-Redmine-API-Key header contains invalid " ++
              "(non-visible-ASCII) characters"))
        | some chars =>
            if RustText.trim chars = [] then
              .error (.invalidRequest "X-Redmine-API-Key header must not be empty")
            else .ok (.apiKey (String.ofList (RustText.trim chars)))
  | _ =>
      .error (.invalidRequest "X-Redmine-API-Key header must be sent exactly once")

/-! ## The credential of a call -/

/-- What a call knows of its request; the middleware adds the context. -/
structure Parts where
  headers : HeaderMap
  context : Option Verifier.AuthContext

def authContext (parts : Option Parts) : Except McpError Verifier.AuthContext :=
  match parts with
  | none =>
      .error (.internalError ("oauth auth mode requires the HTTP transport (no " ++
        "request headers available)"))
  | some parts =>
      match parts.context with
      | none =>
          .error (.internalError ("oauth auth mode requires the bearer-auth " ++
            "middleware, which did not run for this request"))
      | some context => .ok context

/-- Only a mode with a credential of its own gives one to the client. -/
def defaultCredential : AuthMode → Option Retry.Credential
  | .legacy credential => some credential
  | .legacyPerUser _ _ | .oauth _ | .oauthProxy _ => none

def asDefault (auth : AuthMode) : Except McpError Retry.Credential :=
  match defaultCredential auth with
  | some credential => .ok credential
  | none =>
      .error (.internalError ("invalid configuration: no default credential " ++
        "configured; use as_user(...) instead"))

def scopedCredential (auth : AuthMode) (parts : Option Parts) : Except McpError Retry.Credential :=
  match auth with
  | .legacy _ => asDefault auth
  | .legacyPerUser _ _ =>
      match parts with
      | none =>
          .error (.invalidRequest ("this auth mode requires the HTTP transport (no " ++
            "request headers available)"))
      | some parts => credentialFromParts text parts.headers
  | .oauth _ | .oauthProxy _ =>
      (authContext parts).map fun context => .bearer context.token

/-- The header that a credential puts on a request; without one the request is
not sent. -/
def apply : Retry.Credential → Option (String × HeaderValue)
  | .apiKey key =>
      some (keyHeader,
        (text.fromStr key.toList).getD (Percent.utf8 "invalid-api-key".toList))
  | .basic user pass =>
      some (authorizationHeader, Percent.utf8 ("Basic ".toList ++
        Base64.encode (Percent.utf8 (user.toList ++ ':' :: pass.toList))))
  | .bearer token =>
      (text.fromStr ("Bearer ".toList ++ token.toList)).map fun value =>
        (authorizationHeader, value)

/-! ## What is read from the headers -/

structure IsToken (token : List Char) : Prop where
  ne_nil : token ≠ []
  short : token.length ≤ maxTokenLen
  graphic : ∀ c ∈ token, 0x21 ≤ c.toNat ∧ c.toNat ≤ 0x7e

/-- The one `Authorization` header carries this token. -/
def CarriesToken (headers : HeaderMap) (token : List Char) : Prop :=
  IsToken token ∧ ∃ scheme, scheme.map Char.toLower = "bearer".toList ∧
    headers.getAll authorizationHeader = [Percent.utf8 (scheme ++ ' ' :: token)]

/-- The one key header carries this key, up to white space around it. -/
def CarriesKey (headers : HeaderMap) (key : List Char) : Prop :=
  key ≠ [] ∧ (∀ c ∈ key, Http.isVisible c = true) ∧ ∃ chars,
    RustText.Trims chars key ∧ (Percent.utf8 chars).length ≤ maxHeaderLen ∧
    headers.getAll keyHeader = [Percent.utf8 chars]

variable {text}

theorem isVisible_of_graphic {c : Char} (hgraphic : 0x21 ≤ c.toNat ∧ c.toNat ≤ 0x7e) :
    Http.isVisible c = true := by
  simp only [Http.isVisible, Bool.or_eq_true, Bool.and_eq_true, decide_eq_true_eq]
  left
  omega

theorem isToken_of_checked
    {token : List Char} (hascii : ∀ c ∈ token, c.toNat < 128) (hne : token ≠ [])
    (hshort : RustText.byteLen token ≤ maxTokenLen)
    (hbytes : (Percent.utf8 token).all (fun b => 0x21 ≤ b && b ≤ 0x7e) = true) :
    IsToken token := by
  rw [Http.utf8_of_ascii hascii] at hbytes
  refine ⟨hne, ?_, fun c hc => ?_⟩
  · rwa [RustText.byteLen_eq_length fun c hc => Http.utf8Size_of_lt (hascii c hc)]
      at hshort
  · have hbyte := List.all_eq_true.mp hbytes _ (List.mem_map_of_mem hc)
    have hvalue : (UInt8.ofNat c.toNat).toNat = c.toNat :=
      UInt8.toNat_ofNat_of_lt' (lt_trans (hascii c hc) (by decide))
    simp only [Bool.and_eq_true, decide_eq_true_eq, UInt8.le_iff_toNat_le, hvalue] at hbyte
    exact hbyte

theorem bearerToken_eq_ok
    {chars : List Char} {token : String}
    (hvisible : ∀ c ∈ chars, Http.isVisible c = true)
    (htoken : bearerToken chars = .ok token) :
    IsToken token.toList ∧ ∃ scheme, scheme.map Char.toLower = "bearer".toList ∧
      chars = scheme ++ ' ' :: token.toList := by
  unfold bearerToken at htoken
  split at htoken
  · cases htoken
  next scheme found hsplit =>
    have hchars := RustText.splitOnce_eq hsplit
    rw [List.append_assoc, List.singleton_append] at hchars
    simp only [ite_not, ne_eq] at htoken
    split at htoken
    next hscheme =>
      split at htoken
      next htrimmed =>
        split at htoken
        · cases htoken
        next hne =>
          split at htoken
          · cases htoken
          next hshort =>
            split at htoken
            · cases htoken
            next hbytes =>
              cases htoken
              rw [String.toList_ofList]
              have hascii : ∀ c ∈ found, c.toNat < 128 := fun c hc =>
                Http.lt_of_isVisible (hvisible c (hchars ▸ by simp [hc]))
              exact ⟨isToken_of_checked hascii hne (not_lt.mp hshort)
                (by simpa using hbytes), scheme, hscheme, hchars⟩
      · cases htoken
    · cases htoken

theorem carriesToken_of_extracted
    {headers : HeaderMap} {token : String} (hdoc : text.Documented)
    (hextracted : extractBearer text headers = .ok token) :
    CarriesToken headers token.toList := by
  unfold extractBearer at hextracted
  split at hextracted
  · cases hextracted
  next value hvalue =>
    split at hextracted
    · cases hextracted
    next chars hchars =>
      obtain ⟨hbytes, hvisible⟩ := (hdoc.toStr_iff _ _).mp hchars
      obtain ⟨htoken, scheme, hscheme, rfl⟩ := bearerToken_eq_ok hvisible hextracted
      exact ⟨htoken, scheme, hscheme, by rw [hvalue, hbytes]⟩
  · cases hextracted

theorem carriesKey_of_credential
    {headers : HeaderMap} {credential : Retry.Credential} (hdoc : text.Documented)
    (hcredential : credentialFromParts text headers = .ok credential) :
    ∃ key : String, credential = .apiKey key ∧ CarriesKey headers key.toList := by
  unfold credentialFromParts at hcredential
  split at hcredential
  · cases hcredential
  next value hvalue =>
    split at hcredential
    · cases hcredential
    next hshort =>
      split at hcredential
      · cases hcredential
      next chars hchars =>
        obtain ⟨hbytes, hvisible⟩ := (hdoc.toStr_iff _ _).mp hchars
        split at hcredential
        · cases hcredential
        next hne =>
          cases hcredential
          have htrims := RustText.trims_trim chars
          refine ⟨_, rfl, ?_⟩
          rw [String.toList_ofList]
          refine ⟨hne, fun c hc => hvisible c ?_, chars, htrims, ?_, ?_⟩
          · obtain ⟨before, after, hsplit, -⟩ := htrims
            rw [hsplit]
            simp [hc]
          · rw [hbytes]
            exact not_lt.mp hshort
          · rw [hvalue, hbytes]
  · cases hcredential

theorem apply_visible_key (hdoc : text.Documented) {key : String}
    (hvisible : ∀ c ∈ key.toList, Http.isVisible c = true) :
    apply text (.apiKey key) = some (keyHeader, Percent.utf8 key.toList) := by
  rw [apply, hdoc.fromStr_visible _ hvisible, Option.getD_some]

theorem apply_bearer
    (hdoc : text.Documented) {token : String} {header : String × HeaderValue}
    (happlied : apply text (.bearer token) = some header) :
    header = (authorizationHeader, Percent.utf8 ("Bearer ".toList ++ token.toList)) := by
  rw [apply, Option.map_eq_some_iff] at happlied
  obtain ⟨value, hvalue, rfl⟩ := happlied
  rw [hdoc.fromStr_bytes _ _ hvalue]

theorem apply_token (hdoc : text.Documented) {token : String}
    (htoken : IsToken token.toList) :
    apply text (.bearer token) =
      some (authorizationHeader, Percent.utf8 ("Bearer ".toList ++ token.toList)) := by
  have hvisible : ∀ c ∈ "Bearer ".toList ++ token.toList, Http.isVisible c = true := by
    intro c hc
    rcases List.mem_append.mp hc with hfront | hmem
    · have hall : ("Bearer ".toList.all Http.isVisible) = true := by decide
      exact List.all_eq_true.mp hall c hfront
    · exact isVisible_of_graphic (htoken.graphic c hmem)
  rw [apply, hdoc.fromStr_visible _ hvisible, Option.map_some]

end Headers

/-! ## The context that a verification returns -/

theorem token_of_contextFrom
    {wall : ℤ} {introspection : Verifier.Introspection} {token : String}
    {context : Verifier.AuthContext}
    (hcontext : Verifier.contextFrom wall introspection token = .ok context) :
    context.token = token := by
  unfold Verifier.contextFrom at hcontext
  split at hcontext
  · cases hcontext
  · split at hcontext
    · cases hcontext
    · cases hcontext
      rfl

/-- Whether the context comes from the server or from the cache, the server has
vouched for this very token. -/
theorem grounds_of_returned
    {checking : Verifier.Config} {checks : Verifier.Run checking} {n i : ℕ}
    {token : String} {context : Verifier.AuthContext}
    (hcollision : Verifier.CollisionFree checks)
    (hreturns : Verifier.ReturnsAt checks n i token (.ok context)) :
    ∃ a j introspection, a ≤ n ∧
      Verifier.Grounds checks a j token context introspection := by
  rcases hreturns.cases with hhits | ⟨a, introspection, han, hgrounds⟩
  · obtain ⟨a, j, w, introspection, haw, hwn, hgrounds, -, -⟩ :=
      Verifier.grounds_of_hit hcollision hhits
    exact ⟨a, j, introspection, by omega, hgrounds⟩
  · exact ⟨a, i, introspection, han, hgrounds⟩

section Calls

variable (text : HeaderText) {checking : Verifier.Config}
  (checks : Verifier.Run checking) {env : Env} (proxy : ProxyRun env)

/-- The server let this bearer token pass: it was introspected as active, on
behalf of this call or of an earlier one. -/
def Vouched (token : String) : Prop :=
  ∃ a i introspection, Verifier.AnswersAt checks a i token introspection ∧
    introspection.active = true

/-- The request in whose place this upstream token is verified, in the run of
the proxy. -/
def StandsFor (presented access : String) : Prop :=
  ∃ m j, (proxy.state m).conns j =
    some (.bearer presented (.running (.verify access)))

/-- How a call comes to a tool in each mode. -/
inductive Reaches : AuthMode → TransportConfig → Option Parts → Prop
  | stdio (auth : AuthMode) : Reaches auth .stdio none
  | legacy (credential : Retry.Credential) (http : Startup.HttpConfig)
      (headers : HeaderMap) :
      Reaches (.legacy credential) (.http http) (some ⟨headers, none⟩)
  | perUser (trust : Startup.ProxyTrust) (auditIdentity : Bool)
      (http : Startup.HttpConfig) (headers : HeaderMap) :
      Reaches (.legacyPerUser trust auditIdentity) (.http http) (some ⟨headers, none⟩)
  | oauth (config : Startup.OAuthConfig) (http : Startup.HttpConfig)
      (headers : HeaderMap) (token : String) (n i : ℕ)
      (context : Verifier.AuthContext)
      (hextracted : extractBearer text headers = .ok token)
      (hverified : Verifier.ReturnsAt checks n i token (.ok context)) :
      Reaches (.oauth config) (.http http) (some ⟨headers, some context⟩)
  | proxied (config : Startup.OAuthProxyConfig) (http : Startup.HttpConfig)
      (headers : HeaderMap) (presented access : String) (n i : ℕ)
      (context : Verifier.AuthContext)
      (hextracted : extractBearer text headers = .ok presented)
      (hstands : StandsFor proxy presented access)
      (hverified : Verifier.ReturnsAt checks n i access (.ok context)) :
      Reaches (.oauthProxy config) (.http http) (some ⟨headers, some context⟩)

/-- The identities that a call may act under, with the header that is sent to
Redmine where the mode determines it. -/
inductive ActsFor (vars : Config.EnvMap) :
    AuthMode → TransportConfig → Option Parts → Retry.Credential → Prop
  | server (key : String) (transport : TransportConfig) (parts : Option Parts)
      (hoptedIn : sharesKey transport (.legacy (.apiKey key)) = true →
        Config.optional vars unauthenticatedNetworkVar = some "true") :
      ActsFor vars (.legacy (.apiKey key)) transport parts (.apiKey key)
  | key (trust : Startup.ProxyTrust) (auditIdentity : Bool)
      (transport : TransportConfig) (parts : Parts) (key : String)
      (hsent : CarriesKey parts.headers key.toList)
      (hforwarded : apply text (.apiKey key) =
        some (keyHeader, Percent.utf8 key.toList)) :
      ActsFor vars (.legacyPerUser trust auditIdentity) transport (some parts)
        (.apiKey key)
  | token (config : Startup.OAuthConfig) (transport : TransportConfig) (parts : Parts)
      (token : String) (hsent : CarriesToken parts.headers token.toList)
      (hvouched : Vouched checks token)
      (hforwarded : apply text (.bearer token) =
        some (authorizationHeader, Percent.utf8 ("Bearer ".toList ++ token.toList))) :
      ActsFor vars (.oauth config) transport (some parts) (.bearer token)
  | session (config : Startup.OAuthProxyConfig) (transport : TransportConfig)
      (parts : Parts) (presented access : String)
      (hsent : CarriesToken parts.headers presented.toList)
      (hstands : StandsFor proxy presented access)
      (hvouched : Vouched checks access)
      (hforwarded : ∀ header, apply text (.bearer access) = some header →
        header = (authorizationHeader,
          Percent.utf8 ("Bearer ".toList ++ access.toList))) :
      ActsFor vars (.oauthProxy config) transport (some parts) (.bearer access)

variable {text checks proxy}

theorem vouched_of_returned
    {n i : ℕ} {token : String} {context : Verifier.AuthContext}
    (hcollision : Verifier.CollisionFree checks)
    (hreturns : Verifier.ReturnsAt checks n i token (.ok context)) :
    context.token = token ∧ Vouched checks token := by
  obtain ⟨a, j, introspection, -, hgrounds⟩ := grounds_of_returned hcollision hreturns
  obtain ⟨hactive, -, -⟩ := Verifier.contextFrom_eq_ok hgrounds.context
  exact ⟨token_of_contextFrom hgrounds.context, a, j, introspection,
    hgrounds.answered, hactive⟩

/-- Under an accepted configuration, whatever the headers of the requests are
and however verifications and the flows of the proxy are interleaved, a call
that gets a credential acts for one identity that its mode names: for the
server itself, and over the network only where the operator asked for that;
for the owner of the one key, or of the one verified token, in its headers,
which is then sent on unchanged; or for the session that its token stands
for. -/
theorem acts_for_its_caller
    {sources : Sources} {vars : Config.EnvMap} {kind : TransportKind}
    {config : Startup.Config} {parts : Option Parts} {credential : Retry.Credential}
    (hconfig : Startup.fromMap sources vars kind = .ok config)
    (hdoc : text.Documented) (hcollision : Verifier.CollisionFree checks)
    (hreaches : Reaches text checks proxy config.auth config.transport parts)
    (hscoped : scopedCredential text config.auth parts = .ok credential) :
    ActsFor text checks proxy vars config.auth config.transport parts credential := by
  obtain ⟨-, -, hauth, -, hexposure, -, -, -⟩ :=
    Startup.fromMap_wellFormed sources vars kind config hconfig
  generalize config.auth = auth at *
  generalize config.transport = transport at *
  cases auth with
  | legacy own =>
      obtain ⟨key, rfl⟩ := hauth
      cases hscoped
      exact .server key transport parts hexposure
  | legacyPerUser trust auditIdentity =>
      cases hreaches with
      | stdio => cases hscoped
      | perUser _ _ http headers =>
          obtain ⟨key, rfl, hcarries⟩ := carriesKey_of_credential hdoc hscoped
          exact .key trust auditIdentity _ _ key hcarries
            (apply_visible_key hdoc hcarries.2.1)
  | oauth resource =>
      cases hreaches with
      | stdio => cases hscoped
      | oauth _ http headers token n i context hextracted hverified =>
          cases hscoped
          have hcarries := carriesToken_of_extracted hdoc hextracted
          obtain ⟨rfl, hvouched⟩ := vouched_of_returned hcollision hverified
          exact .token resource _ _ _ hcarries hvouched (apply_token hdoc hcarries.1)
  | oauthProxy proxied =>
      cases hreaches with
      | stdio => cases hscoped
      | proxied _ http headers presented access n i context hextracted hstands hverified =>
          cases hscoped
          obtain ⟨rfl, hvouched⟩ := vouched_of_returned hcollision hverified
          exact .session proxied _ _ presented _
            (carriesToken_of_extracted hdoc hextracted) hstands hvouched
            fun _ happlied => apply_bearer hdoc happlied

end Calls

namespace Sample

def proxyMode : Config.EnvMap :=
  Config.Sample.env
    [("REDMINE_URL", "http://redmine.test"), ("REDMINE_AUTH_MODE", "oauth-proxy"),
      ("REDMINE_MCP_BASE_URL", "http://mcp.test"),
      ("REDMINE_INTROSPECT_CLIENT_ID", "ruprogress"),
      ("REDMINE_INTROSPECT_CLIENT_SECRET", "secret")]

def servesProxy (config : Startup.Config) : Bool :=
  match config.auth, config.transport with
  | .oauthProxy _, .http _ => true
  | _, _ => false

theorem proxyMode_accepted :
    ∃ config proxied http,
      Startup.fromMap Startup.Sample.sources proxyMode .http = .ok config ∧
        config.auth = .oauthProxy proxied ∧ config.transport = .http http := by
  have hserved : (Startup.fromMap Startup.Sample.sources proxyMode .http).toOption.any
      servesProxy = true := by
    decide +kernel
  cases hparsed : Startup.fromMap Startup.Sample.sources proxyMode .http with
  | error failure =>
      rw [hparsed] at hserved
      cases hserved
  | ok config =>
      rw [hparsed] at hserved
      have hserves : servesProxy config = true := hserved
      unfold servesProxy at hserves
      split at hserves
      next proxied http hauth htransport =>
        exact ⟨config, proxied, http, rfl, hauth, htransport⟩
      · cases hserves

def presentedToken : String :=
  accessTokenPrefix ++ RuprogressMcp.Sample.first.access

def presentedHeaders : HeaderMap where
  entries := [(authorizationHeader, Percent.utf8 ("bearer ".toList ++ presentedToken.toList))]

theorem presented_extracted :
    extractBearer Http.asciiText presentedHeaders = .ok presentedToken := by
  decide +kernel

/-- The token of a session is presented, and its upstream token is known to be
active from an earlier call. -/
theorem proxied_call_acts_for_session :
    ∃ config, Startup.fromMap Startup.Sample.sources proxyMode .http = .ok config ∧
      ActsFor Http.asciiText
        (Verifier.Sample.run Verifier.Sample.servedTwice
          Verifier.Sample.servedTwice_enabled)
        (RuprogressMcp.Sample.run RuprogressMcp.Sample.presentedAfterwards
          RuprogressMcp.Sample.presentedAfterwards_enabled)
        proxyMode config.auth config.transport
        (some ⟨presentedHeaders, some Verifier.Sample.expiringContext⟩)
        (.bearer "upstream-access") := by
  obtain ⟨config, proxied, http, hconfig, hauth, htransport⟩ := proxyMode_accepted
  have hreturned :
      ((Verifier.Sample.run Verifier.Sample.servedTwice
        Verifier.Sample.servedTwice_enabled).state 8).calls 1 =
        some (.verify Verifier.Sample.token (.running .get)) ∧
      ((Verifier.Sample.run Verifier.Sample.servedTwice
        Verifier.Sample.servedTwice_enabled).state 9).calls 1 =
        some (.verify Verifier.Sample.token
          (.finished (some (.ok Verifier.Sample.expiringContext)))) := by
    decide +kernel
  refine ⟨config, hconfig, acts_for_its_caller hconfig Http.asciiText_documented
    (Verifier.Sample.collisionFree_of_verifiesToken (by decide +kernel)) ?_ ?_⟩
  · rw [hauth, htransport]
    exact .proxied proxied http presentedHeaders presentedToken Verifier.Sample.token 8 1
      Verifier.Sample.expiringContext presented_extracted
      ⟨27, 4, RuprogressMcp.Sample.presented_verified⟩
      ⟨⟨{}, rfl⟩, ⟨_, hreturned.1⟩, hreturned.2⟩
  · rw [hauth]
    rfl

end Sample

end Edge

end RuprogressMcp
