import RuprogressMcp.EnvSettings
import RuprogressMcp.FallibleRuns

/-!
# What an accepted configuration guarantees

Whatever the variables are, a configuration that `from_map` accepts is in
range and consistent: its limits are usable, its URLs and its route are well
formed, a mode that needs the headers of a request has a transport with
headers, and the scopes it advertises are scopes of the deployment it
describes.  Where it would let callers on the network act with the key of the
server, the operator has asked for that by name.
-/

namespace RuprogressMcp

open Config (EnvMap ConfigError Crates optional parseCsv parseBind
  parseAllowedHosts parsePublicBase allowedHostsVar)

namespace Startup

open Fallible

/-! ## Well-formed parts -/

structure RateLimitConfig.WellFormed (limits : RateLimitConfig) : Prop where
  standardRps : 0 < limits.standardRps
  standardBurst : limits.standardRps ≤ limits.standardBurst
  strictRps : 0 < limits.strictRps
  strictBurst : limits.strictRps ≤ limits.strictBurst
  bursts_lt : limits.standardBurst < 2 ^ 32 ∧ limits.strictBurst < 2 ^ 32
  maxKeys : 0 < limits.maxKeys

/-- A path below the root that names one route, without any pattern. -/
structure IsRoute (path : String) : Prop where
  absolute : path.toList.head? = some '/'
  ne_root : path ≠ "/"
  no_parent : ¬ ['.', '.'] <:+: path.toList
  plain : ∀ c ∈ path.toList, c ∉ ['?', '#', '\x7b', '\x7d', '*']
  visible : ∀ c ∈ path.toList, RustText.isWhitespace c = false

structure IsOrigin (sources : Sources) (origin : String) : Prop where
  ne_any : origin ≠ "*"
  ne_null : toAsciiLowercase origin ≠ "null"
  scheme : "://".toList <:+: origin.toList
  sendable : sources.headerValue origin = true

def IsHttpUrl (url : Url) : Prop := url.scheme = "http" ∨ url.scheme = "https"

def CarriesNoCredential (url : Url) : Prop := url.username = "" ∧ url.password = none

structure HttpConfig.WellFormed (sources : Sources) (vars : EnvMap)
    (config : HttpConfig) : Prop where
  port : 0 < config.bind.port ∧ config.bind.port < 65536
  hosts : config.allowedHosts = [] → optional vars allowedHostsVar = some "*"
  route : IsRoute config.mcpPath
  origins : ∀ origin ∈ config.allowedOrigins, IsOrigin sources origin
  bodyBytes : 1024 ≤ config.maxRequestBodyBytes ∧
    config.maxRequestBodyBytes ≤ 64 * 1024 * 1024
  healthTtl : config.healthTtl ≤ seconds 3600
  rateLimit : config.rateLimit.WellFormed

structure OAuthConfig.WellFormed (offered : List String) (config : OAuthConfig) :
    Prop where
  scheme : IsHttpUrl config.baseUrl
  bare : CarriesNoCredential config.baseUrl
  query : config.baseUrl.query = none
  fragment : config.baseUrl.fragment = none
  clientId : config.introspectClientId ≠ ""
  ttl : config.tokenCacheTtl ≤ seconds 3600
  scopes : config.scopes.Sublist offered

structure AttachmentConfig.WellFormed (config : AttachmentConfig) : Prop where
  download : 0 < config.maxDownloadBytes
  store : config.maxDownloadBytes ≤ config.storeMaxBytes
  store_lt : config.storeMaxBytes < 2 ^ 64
  cleanup : 0 < config.cleanupInterval
  expires : 0 < config.expiresAfter
  roots : ∀ root ∈ config.uploadFileRoots, UnixPath.isAbsolute root.toList = true
  rewrite : ∀ url ∈ config.publicUrlRewrite, IsHttpUrl url

def perUserTrustVar : String := "REDMINE_PER_USER_TRUST_PROXY"

/-- A mode that reads the headers of a request runs over HTTP. -/
def AuthMode.WellFormed (vars : EnvMap) (kind : TransportKind)
    (offered : List String) : AuthMode → Prop
  | .legacy credential => ∃ key, credential = .apiKey key
  | .legacyPerUser _ _ => kind = .http ∧ optional vars perUserTrustVar = some "true"
  | .oauth config => kind = .http ∧ config.WellFormed offered
  | .oauthProxy config =>
      kind = .http ∧ config.resource.WellFormed offered ∧
        config.resource.discoveryAs = .selfHosted ∧ config.upstreamClientId ≠ ""

def TransportConfig.WellFormed (sources : Sources) (vars : EnvMap) :
    TransportKind → TransportConfig → Prop
  | .stdio, .stdio => True
  | .http, .http config => config.WellFormed sources vars
  | _, _ => False

/-- The tools that the configuration makes the server serve. -/
def Config.deployment (config : Startup.Config) : Deployment where
  plugins := config.plugins
  readOnly := config.readOnly
  exposeAdminTools := config.attachments.exposeAdminTools

structure Config.WellFormed (sources : Sources) (vars : EnvMap)
    (kind : TransportKind) (config : Startup.Config) : Prop where
  redmineScheme : IsHttpUrl config.redmine.url
  redmineBare : CarriesNoCredential config.redmine.url
  auth : config.auth.WellFormed vars kind config.deployment.advertised
  transport : config.transport.WellFormed sources vars kind
  exposure : sharesKey config.transport config.auth = true →
    optional vars unauthenticatedNetworkVar = some "true"
  attachments : config.attachments.WellFormed
  items : 0 < config.maxResponseItems
  bytes : 0 < config.maxResponseBytes

/-! ## One variable -/

section Parts

variable {sources : Sources} {vars : EnvMap}

theorem optional_ne_empty {var value : String} (hvalue : optional vars var = some value) :
    value ≠ "" := by
  have hfilter := Option.filter_eq_some_iff.mp hvalue
  simpa using hfilter.2

theorem required_ne_empty (var because : String) :
    Yields (required vars var because) fun value => value ≠ "" := by
  unfold required
  split
  · next value hvalue => exact Yields.ok (optional_ne_empty hvalue)
  · exact Yields.error _

theorem positive_range {bound fallback : ℕ} (zero var : String)
    (hpos : 0 < fallback) (hlt : fallback < bound) :
    Yields (positive vars bound zero var fallback) fun value =>
      0 < value ∧ value < bound := by
  unfold positive
  split
  · exact Yields.ok ⟨hpos, hlt⟩
  · split
    · exact Yields.error _
    · exact Yields.error _
    · next value hne hparse =>
        exact Yields.ok ⟨Nat.pos_of_ne_zero hne, RustText.parseUnsigned_lt hparse⟩

theorem secondsUpToAnHour_le {fallback : ℕ} (var : String) (hle : fallback ≤ 3600) :
    Yields (secondsUpToAnHour vars var fallback) fun ttl => ttl ≤ seconds 3600 := by
  have hmono : ∀ n ≤ 3600, seconds n ≤ seconds 3600 := by
    intro n hn
    unfold seconds
    lia
  unfold secondsUpToAnHour
  split
  · exact Yields.ok (hmono fallback hle)
  · split
    · exact Yields.error _
    · exact Yields.guard fun hvalue => Yields.ok (hmono _ (by omega))

theorem httpUrl_scheme (var expected raw : String) :
    Yields (httpUrl sources var expected raw) IsHttpUrl := by
  unfold httpUrl
  split
  · exact Yields.error _
  · exact Yields.guard fun hscheme => Yields.ok (not_not.mp hscheme)

theorem withoutUserinfo_bare (var because : String) (url : Url) :
    Yields (withoutUserinfo var because url) fun kept =>
      kept = url ∧ CarriesNoCredential url := by
  refine Yields.guard fun hbare => Yields.ok ⟨rfl, ?_⟩
  simpa [CarriesNoCredential] using hbare

theorem parseRedmine_url :
    Yields (parseRedmine sources vars) fun config =>
      IsHttpUrl config.url ∧ CarriesNoCredential config.url := by
  refine Yields.bind (Yields.of_true _) fun raw _ => ?_
  refine Yields.bind (httpUrl_scheme _ _ _) fun parsed hscheme => ?_
  refine Yields.bind (withoutUserinfo_bare _ _ _) fun url hbare => ?_
  obtain ⟨rfl, hbare⟩ := hbare
  refine Yields.bind (Yields.of_true _) fun sslVerify _ => ?_
  exact Yields.bind (Yields.of_true _) fun version _ => Yields.ok ⟨hscheme, hbare⟩

/-! ## The transport -/

theorem isRoute_default : IsRoute "/mcp" where
  absolute := by decide
  ne_root := by decide
  no_parent := by decide
  plain := by
    have hplain : ("/mcp".toList.all fun c =>
        decide (c ∉ ['?', '#', '\x7b', '\x7d', '*'])) = true := by decide
    simpa only [List.all_eq_true, decide_eq_true_eq] using hplain
  visible := by
    have hvisible : ("/mcp".toList.all fun c => !RustText.isWhitespace c) = true := by
      decide
    simpa only [List.all_eq_true, Bool.not_eq_true'] using hvisible

theorem parseMcpPath_route : Yields (parseMcpPath vars) IsRoute := by
  unfold parseMcpPath
  split
  · exact Yields.ok isRoute_default
  · refine Yields.guard fun habsolute => Yields.guard fun hroot => ?_
    refine Yields.guard fun hparent => Yields.guard fun hquery => ?_
    refine Yields.guard fun hpattern => Yields.guard fun hspace => Yields.ok ?_
    simp only [List.any_eq_true, Bool.or_eq_true, beq_iff_eq, not_exists, not_and,
      Bool.not_eq_true] at hquery hpattern hspace
    refine ⟨not_not.mp habsolute, hroot, hparent, ?_, hspace⟩
    intro c hc hmem
    have hfirst := hquery c hc
    have hsecond := hpattern c hc
    simp only [List.mem_cons, List.not_mem_nil, or_false] at hmem
    tauto

theorem checkOrigin_origin (origin : String) :
    Yields (checkOrigin sources origin) fun _ => IsOrigin sources origin := by
  refine Yields.guard fun hany => Yields.guard fun hnull => ?_
  refine Yields.guard fun hscheme => Yields.guard fun hsendable => Yields.ok ?_
  exact ⟨hany, hnull, not_not.mp hscheme, by simpa using hsendable⟩

theorem parseAllowedOrigins_origins :
    Yields (parseAllowedOrigins sources vars) fun origins =>
      ∀ origin ∈ origins, IsOrigin sources origin := by
  refine Yields.bind (Yields.of_true _) fun entries _ => ?_
  cases entries with
  | none => exact Yields.ok (by simp)
  | some origins =>
      exact Yields.bind (Yields.forM fun origin _ => checkOrigin_origin origin)
        fun _ horigins => Yields.ok horigins

theorem parseMaxRequestBodyBytes_range :
    Yields (parseMaxRequestBodyBytes vars) fun bytes =>
      1024 ≤ bytes ∧ bytes ≤ 64 * 1024 * 1024 := by
  unfold parseMaxRequestBodyBytes
  split
  · exact Yields.ok (by decide)
  · split
    · exact Yields.error _
    · exact Yields.guard fun hrange => Yields.ok (not_not.mp hrange)

theorem checkBurst_le (burstVar rpsVar : String) (burst rps : ℕ) :
    Yields (checkBurst burstVar rpsVar burst rps) fun _ => rps ≤ burst :=
  Yields.guard fun hlt => Yields.ok (Nat.le_of_not_lt hlt)

theorem parseRateLimit_wellFormed :
    Yields (parseRateLimit vars) RateLimitConfig.WellFormed := by
  refine Yields.bind (Yields.of_true _) fun enabled _ => ?_
  refine Yields.bind (positive_range _ _ (by decide) (by decide)) fun _ hstandard => ?_
  refine Yields.bind (positive_range _ _ (by decide) (by decide)) fun _ hburst => ?_
  refine Yields.bind (positive_range _ _ (by decide) (by decide)) fun _ hstrict => ?_
  refine Yields.bind (positive_range _ _ (by decide) (by decide)) fun _ hauth => ?_
  refine Yields.bind (positive_range _ _ (by decide) (by decide)) fun _ hkeys => ?_
  refine Yields.bind (checkBurst_le _ _ _ _) fun _ hle => ?_
  refine Yields.bind (checkBurst_le _ _ _ _) fun _ hle' => Yields.ok ?_
  exact ⟨hstandard.1, hle, hstrict.1, hle', ⟨hburst.2, hauth.2⟩, hkeys.1⟩

theorem checkAllowedHosts_named (allowedHosts : List String) :
    Yields (checkAllowedHosts vars allowedHosts) fun _ =>
      allowedHosts = [] → optional vars allowedHostsVar = some "*" := by
  refine Yields.guard fun hempty => Yields.ok fun hnil => ?_
  by_contra hvar
  exact hempty ⟨List.isEmpty_iff.mpr hnil, hvar⟩

theorem parsePort_pos (var : String) :
    Yields (Config.parsePort vars var) fun port => ∀ n ∈ port, 0 < n := by
  unfold Config.parsePort
  split
  · exact Yields.ok (by simp)
  · split
    · exact Yields.error _
    · exact Yields.error _
    · next port hne hparse =>
        refine Yields.ok fun n hn => ?_
        rw [Option.mem_some_iff] at hn
        exact hn ▸ Nat.pos_of_ne_zero hne

theorem parseBind_port :
    Yields (parseBind vars) fun address => 0 < address.port ∧ address.port < 65536 := by
  intro address hbind
  refine ⟨?_, (Config.parseBind_ok hbind).2⟩
  revert address
  refine Yields.bind (Yields.of_true _) fun ip _ => ?_
  refine Yields.bind (parsePort_pos _) fun port hport => Yields.ok ?_
  cases port with
  | none =>
      have hdefault : 0 < Config.defaultServerPort := by decide
      exact hdefault
  | some n => exact hport n rfl

theorem parseHttp_wellFormed :
    Yields (parseHttp sources vars) fun config => config.WellFormed sources vars := by
  refine Yields.bind parseBind_port fun address hport => ?_
  refine Yields.bind (Yields.of_true _) fun allowedHosts _ => ?_
  refine Yields.bind (checkAllowedHosts_named _) fun _ hhosts => ?_
  refine Yields.bind parseMaxRequestBodyBytes_range fun _ hbytes => ?_
  refine Yields.bind (secondsUpToAnHour_le _ (by decide)) fun _ hhealth => ?_
  refine Yields.bind parseMcpPath_route fun _ hroute => ?_
  refine Yields.bind parseAllowedOrigins_origins fun _ horigins => ?_
  refine Yields.bind (Yields.of_true _) fun _ _ => ?_
  refine Yields.bind parseRateLimit_wellFormed fun _ hlimits => Yields.ok ?_
  exact ⟨hport, hhosts, hroute, horigins, hbytes, hhealth, hlimits⟩

theorem parseHttp_derived {config : HttpConfig}
    (hparse : parseHttp sources vars = .ok config) :
    ∃ bound, parseBind vars = .ok bound ∧
      parseAllowedHosts sources.crates vars bound = .ok config.allowedHosts ∧
      parsePublicBase sources.crates vars bound = .ok config.publicBase := by
  obtain ⟨bound, hbind, hparse⟩ := RustText.question_mark_ok hparse
  obtain ⟨allowedHosts, hhosts, hparse⟩ := RustText.question_mark_ok hparse
  obtain ⟨⟨⟩, -, hparse⟩ := RustText.question_mark_ok hparse
  obtain ⟨bodyBytes, -, hparse⟩ := RustText.question_mark_ok hparse
  obtain ⟨healthTtl, -, hparse⟩ := RustText.question_mark_ok hparse
  obtain ⟨mcpPath, -, hparse⟩ := RustText.question_mark_ok hparse
  obtain ⟨origins, -, hparse⟩ := RustText.question_mark_ok hparse
  obtain ⟨publicBase, hbase, hparse⟩ := RustText.question_mark_ok hparse
  obtain ⟨rateLimit, -, hparse⟩ := RustText.question_mark_ok hparse
  cases hparse
  exact ⟨bound, hbind, hhosts, hbase⟩

/-- A request to the public URL passes the host check exactly when the derived
allowlist names its host and port as the URL does. -/
theorem public_base_admitted_iff
    (sources : Sources) (hdoc : sources.crates.Documented) (vars : EnvMap)
    (config : HttpConfig) (hunset : optional vars allowedHostsVar = none)
    (hparse : parseHttp sources vars = .ok config) :
    Config.admitsPublicBase sources.crates config.toHttpConfig = true ↔
      Config.PublicHostListed sources.crates vars := by
  obtain ⟨bound, hbind, hhosts, hbase⟩ := parseHttp_derived hparse
  exact Config.admitsPublicBase_iff hdoc hunset hbind hhosts hbase

/-! ## Authentication -/

theorem withoutQuery_none (var : String) (url : Url) :
    Yields (withoutQuery var url) fun kept => kept = url ∧ url.query = none :=
  Yields.guard fun hquery => Yields.ok ⟨rfl, by simpa using hquery⟩

theorem parseOAuthBaseUrl_bare :
    Yields (parseOAuthBaseUrl sources vars) fun url =>
      IsHttpUrl url ∧ CarriesNoCredential url ∧ url.query = none ∧
        url.fragment = none := by
  refine Yields.bind (Yields.of_true _) fun raw _ => ?_
  refine Yields.bind (httpUrl_scheme _ _ _) fun parsed hscheme => ?_
  refine Yields.bind (withoutUserinfo_bare _ _ _) fun url hbare => ?_
  obtain ⟨rfl, hbare⟩ := hbare
  refine Yields.bind (withoutQuery_none _ _) fun kept hkept => ?_
  obtain ⟨rfl, hquery⟩ := hkept
  exact Yields.guard fun hfragment =>
    Yields.ok ⟨hscheme, hbare, hquery, by simpa using hfragment⟩

theorem parseScopes_sublist (full : List String) :
    Yields (parseScopes vars full) fun scopes => scopes.Sublist full := by
  unfold parseScopes
  split
  · exact Yields.ok (List.Sublist.refl full)
  · split
    · next scopes hnarrow =>
        unfold narrow at hnarrow
        simp only [Option.ite_none_right_eq_some, Option.some.injEq] at hnarrow
        exact Yields.ok (hnarrow.2 ▸ List.filter_sublist)
    · exact Yields.error _

variable {kind : TransportKind} {readOnly : Bool} {plugins : PluginFlags}

theorem parseOAuthResource_wellFormed :
    Yields (parseOAuthResource sources vars kind readOnly plugins) fun config =>
      kind = .http ∧
        config.WellFormed (advertised readOnly plugins.agile plugins.tags) := by
  refine Yields.bind parseOAuthBaseUrl_bare fun url hurl => ?_
  refine Yields.bind (required_ne_empty _ _) fun clientId hclient => ?_
  refine Yields.bind (Yields.of_true _) fun clientSecret _ => ?_
  refine Yields.guard fun hkind => ?_
  refine Yields.bind (secondsUpToAnHour_le _ (by decide)) fun ttl httl => ?_
  refine Yields.bind (Yields.of_true _) fun discoveryAs _ => ?_
  refine Yields.bind (parseScopes_sublist _) fun scopes hscopes => ?_
  refine Yields.bind (Yields.of_true _) fun enforcement _ => Yields.ok ⟨?_, ?_⟩
  · cases kind with
    | stdio => exact absurd rfl hkind
    | http => rfl
  · exact ⟨hurl.1, hurl.2.1, hurl.2.2.1, hurl.2.2.2, hclient, httl, hscopes⟩

theorem parseUpstreamClient_id (resource : OAuthConfig)
    (hresource : resource.introspectClientId ≠ "") :
    Yields (parseUpstreamClient sources vars resource) fun client =>
      client.1 ≠ "" := by
  refine Yields.bind (Yields.of_true _) fun clientSecret _ => ?_
  split
  · next id _ hid => exact Yields.ok (optional_ne_empty hid)
  · exact Yields.ok hresource
  · exact Yields.error _
  · exact Yields.error _

theorem parseOAuthProxy_wellFormed :
    Yields (parseOAuthProxy sources vars kind readOnly plugins) fun config =>
      (AuthMode.oauthProxy config).WellFormed vars kind
        (advertised readOnly plugins.agile plugins.tags) := by
  refine Yields.bind parseOAuthResource_wellFormed fun resource hresource => ?_
  obtain ⟨hkind, hscheme, hbare, hquery, hfragment, hclient, httl, hscopes⟩ := hresource
  refine Yields.guard fun _ => ?_
  refine Yields.bind (parseUpstreamClient_id _ hclient) fun upstream hupstream => ?_
  refine Yields.bind (Yields.of_true _) fun redirects _ => Yields.ok ?_
  exact ⟨hkind, ⟨hscheme, hbare, hquery, hfragment, hclient, httl, hscopes⟩, rfl,
    hupstream⟩

theorem parseAuth_wellFormed :
    Yields (parseAuth sources vars kind readOnly plugins) fun auth =>
      auth.WellFormed vars kind
        (advertised readOnly plugins.agile plugins.tags) := by
  unfold parseAuth
  split
  · exact Yields.bind (Yields.of_true _) fun key _ => Yields.ok ⟨key, rfl⟩
  · refine Yields.guard fun htrust => Yields.guard fun hkind => ?_
    refine Yields.bind (Yields.of_true _) fun audit _ => Yields.ok ⟨?_, not_not.mp htrust⟩
    cases kind with
    | stdio => exact absurd rfl hkind
    | http => rfl
  · exact Yields.bind parseOAuthResource_wellFormed fun config hconfig =>
      Yields.ok hconfig
  · exact Yields.bind parseOAuthProxy_wellFormed fun config hconfig =>
      Yields.ok hconfig
  · exact Yields.error _

/-! ## Attachments -/

theorem parseUploadFileRoots_absolute :
    Yields (parseUploadFileRoots sources vars) fun roots =>
      ∀ root ∈ roots, UnixPath.isAbsolute root.toList = true := by
  refine Yields.bind (Yields.of_true _) fun entries _ => ?_
  cases entries with
  | none => exact Yields.ok (by simp)
  | some entries =>
      refine Yields.mapM fun raw _ => ?_
      unfold uploadFileRoot
      split_ifs with habsolute
      · exact Yields.ok habsolute
      · exact Yields.error _

theorem parsePublicUrlRewrite_scheme :
    Yields (parsePublicUrlRewrite sources vars) fun rewrite =>
      ∀ url ∈ rewrite, IsHttpUrl url := by
  unfold parsePublicUrlRewrite
  split
  · exact Yields.ok (by simp)
  · refine Yields.bind (httpUrl_scheme _ _ _) fun url hscheme => Yields.ok ?_
    intro other hmem
    rw [Option.mem_some_iff] at hmem
    exact hmem ▸ hscheme

theorem minutes_pos {n : ℕ} (hn : 0 < n) : 0 < minutes n := by
  have hmin : 0 < min (n * 60) (2 ^ 64 - 1) := lt_min (by omega) (by decide)
  exact Nat.mul_pos hmin (by decide)

theorem checkStoreCap_le (storeMaxBytes maxDownloadBytes : ℕ) :
    Yields (checkStoreCap storeMaxBytes maxDownloadBytes) fun _ =>
      maxDownloadBytes ≤ storeMaxBytes :=
  Yields.guard fun hlt => Yields.ok (Nat.le_of_not_lt hlt)

theorem parseAttachments_wellFormed :
    Yields (parseAttachments sources vars) AttachmentConfig.WellFormed := by
  refine Yields.bind (positive_range _ _ (by decide) (by decide)) fun _ hdownload => ?_
  refine Yields.bind (positive_range _ _ (by decide) (by decide)) fun _ hstore => ?_
  refine Yields.bind (checkStoreCap_le _ _) fun _ hle => ?_
  refine Yields.bind (positive_range _ _ (by decide) (by decide)) fun _ hcleanup => ?_
  refine Yields.bind (positive_range _ _ (by decide) (by decide)) fun _ hexpires => ?_
  refine Yields.bind (Yields.of_true _) fun _ _ => ?_
  refine Yields.bind parseUploadFileRoots_absolute fun _ hroots => ?_
  refine Yields.bind (Yields.of_true _) fun _ _ => ?_
  refine Yields.bind parsePublicUrlRewrite_scheme fun _ hrewrite => Yields.ok ?_
  exact ⟨hdownload.1, hle, hstore.2, minutes_pos hcleanup.1, minutes_pos hexpires.1,
    hroots, hrewrite⟩

/-! ## The whole configuration -/

theorem parseTransport_wellFormed :
    Yields (parseTransport sources vars kind) fun transport =>
      transport.WellFormed sources vars kind := by
  cases kind with
  | stdio => exact Yields.ok trivial
  | http => exact Yields.bind parseHttp_wellFormed fun config hconfig => Yields.ok hconfig

theorem checkExposure_named (transport : TransportConfig) (auth : AuthMode) :
    Yields (checkExposure vars transport auth) fun _ =>
      sharesKey transport auth = true →
        optional vars unauthenticatedNetworkVar = some "true" := by
  refine Yields.guard fun hexposed => Yields.ok fun hshares => ?_
  by_contra hvar
  exact hexposed ⟨hshares, hvar⟩

end Parts

/-- Every configuration that is accepted is well formed, whatever the variables
and the libraries are. -/
theorem fromMap_wellFormed (sources : Sources) (vars : EnvMap) (kind : TransportKind) :
    Yields (fromMap sources vars kind) fun config =>
      config.WellFormed sources vars kind := by
  refine Yields.bind parseRedmine_url fun redmine hredmine => ?_
  refine Yields.bind (Yields.of_true _) fun readOnly _ => ?_
  refine Yields.bind (Yields.of_true _) fun plugins _ => ?_
  refine Yields.bind parseAuth_wellFormed fun auth hauth => ?_
  refine Yields.bind parseTransport_wellFormed fun transport htransport => ?_
  refine Yields.bind (checkExposure_named _ _) fun _ hexposure => ?_
  refine Yields.bind parseAttachments_wellFormed fun attachments hattachments => ?_
  refine Yields.bind (positive_range _ _ (by decide) (by decide)) fun _ hitems => ?_
  refine Yields.bind (positive_range _ _ (by decide) (by decide)) fun _ hbytes => ?_
  refine Yields.bind (Yields.of_true _) fun _ _ => ?_
  refine Yields.bind (Yields.of_true _) fun _ _ => ?_
  refine Yields.bind (Yields.of_true _) fun _ _ => Yields.ok ?_
  exact ⟨hredmine.1, hredmine.2, hauth, htransport, hexposure, hattachments,
    hitems.1, hbytes.1⟩

namespace Sample

/-- A public name on a port of its own. -/
def pinnedPort : EnvMap :=
  Config.Sample.env [("SERVER_HOST", "0.0.0.0"),
    ("PUBLIC_HOST", "mcp.example.com"), ("PUBLIC_PORT", "8443"),
    ("PUBLIC_SCHEME", "https")]

theorem pinnedPort_admitted :
    sources.crates.Documented ∧ optional pinnedPort allowedHostsVar = none ∧
      ∃ config, parseHttp sources pinnedPort = .ok config ∧
        config.allowedHosts =
          ["localhost", "127.0.0.1", "::1", "mcp.example.com:8443"] ∧
        (Config.admitsPublicBase sources.crates config.toHttpConfig = true ↔
          Config.PublicHostListed sources.crates pinnedPort) :=
  ⟨Config.Sample.crates_documented, rfl, _, rfl, rfl,
    public_base_admitted_iff sources Config.Sample.crates_documented pinnedPort _
      rfl rfl⟩

/-- The same name on the default port of `https`. -/
def defaultPort : EnvMap :=
  Config.Sample.env [("SERVER_HOST", "0.0.0.0"),
    ("PUBLIC_HOST", "mcp.example.com"), ("PUBLIC_PORT", "443")]

/-- The URL drops its port, which the allowlist insists on. -/
theorem default_port_rejected :
    ¬ ∀ (sources : Sources) (vars : EnvMap) (config : HttpConfig),
      sources.crates.Documented → optional vars allowedHostsVar = none →
      parseHttp sources vars = .ok config →
      Config.admitsPublicBase sources.crates config.toHttpConfig = true := by
  intro hadmits
  have hadmitted := hadmits sources defaultPort _ Config.Sample.crates_documented
    rfl rfl
  exact absurd hadmitted (by decide +kernel)

theorem keyed_config_wellFormed :
    ∃ config, fromMap sources (withKey "first") .http = .ok config ∧
      config.WellFormed sources (withKey "first") .http := by
  have haccepted : (fromMap sources (withKey "first") .http).isOk = true := by
    decide +kernel
  cases hconfig : fromMap sources (withKey "first") .http with
  | error e =>
      rw [hconfig] at haccepted
      cases haccepted
  | ok config => exact ⟨config, rfl, fromMap_wellFormed _ _ _ config hconfig⟩

end Sample

end Startup

end RuprogressMcp
