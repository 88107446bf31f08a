import RuprogressMcp.HostAllowlist
import RuprogressMcp.ProxyEndpoints
import RuprogressMcp.RedirectPatterns
import RuprogressMcp.RequiredFields
import RuprogressMcp.RetryBudget
import RuprogressMcp.ServedTools
import RuprogressMcp.UnixPath

/-!
# Reading the configuration

`Config::from_map` of `config.rs`: every variable is read and checked, in the
order of the source, before anything is served.  Secrets come from a variable
or from a file that another variable names.  The parsers of URLs, authorities
and JSON, the file system and the printing of URLs are parameters.
-/

namespace RuprogressMcp

open Config (EnvMap ConfigError Crates optional parseCsv parseBind
  parseAllowedHosts parsePublicBase allowedHostsVar)

namespace Startup

/-- What validation reads besides the variables.  `headerValue` says whether
a text can be sent as the value of a header. -/
structure Sources where
  crates : Crates
  urlText : Url → String
  headerValue : String → Bool
  parseJson : String → Option Json
  readToString : String → Except String String
  tempDir : String

/-! ## Single variables -/

section Variables

variable (sources : Sources) (vars : EnvMap)

def required (var because : String) : Except ConfigError String :=
  match optional vars var with
  | some value => .ok value
  | none => .error (.missing var because)

def optionalBool (var : String) (fallback : Bool) : Except ConfigError Bool :=
  match optional vars var with
  | none => .ok fallback
  | some value =>
      match toAsciiLowercase value with
      | "true" | "1" => .ok true
      | "false" | "0" => .ok false
      | _ =>
          .error (.invalid var "a boolean (true/false)"
            "the value could not be parsed as a boolean")

/-- Exactly one trailing newline is dropped. -/
def stripNewline (contents : String) : String :=
  if contents.toList.getLast? = some '\n' then
    String.ofList contents.toList.dropLast
  else contents

def secret (var : String) : Except ConfigError (Option String) :=
  match optional vars var, optional vars (var ++ "_FILE") with
  | some _, some _ =>
      .error (.conflict
        ("both " ++ var ++ " and " ++ var ++ "_FILE are set; use only one"))
  | some value, none => .ok (some value)
  | none, some path =>
      match sources.readToString path with
      | .ok contents => .ok (some (stripNewline contents))
      | .error e =>
          .error (.invalid var "a readable file"
            ("failed to read " ++ var ++ "_FILE: " ++ e))
  | none, none => .ok none

def requiredSecret (var because : String) : Except ConfigError String := do
  match ← secret sources vars var with
  | some value => pure value
  | none => .error (.missing var because)

/-- A number below `bound` other than zero. -/
def positive (bound : ℕ) (zero var : String) (fallback : ℕ) :
    Except ConfigError ℕ :=
  match optional vars var with
  | none => .ok fallback
  | some raw =>
      match RustText.parseUnsigned bound raw.toList with
      | none =>
          .error (.invalid var "a positive integer"
            "the value could not be parsed as a number")
      | some 0 => .error (.invalid var "a positive integer" zero)
      | some value => .ok value

def positiveUsize : String → ℕ → Except ConfigError ℕ :=
  positive vars (2 ^ 64) "0 would make every list tool return an empty collection"

def positiveU32 : String → ℕ → Except ConfigError ℕ :=
  positive vars (2 ^ 32) "0 is not a usable value here"

def positiveU64 : String → ℕ → Except ConfigError ℕ :=
  positive vars (2 ^ 64) "0 is not a usable value here"

/-- A number of seconds up to an hour; zero is accepted. -/
def secondsUpToAnHour (var : String) (fallback : ℕ) : Except ConfigError Duration :=
  match optional vars var with
  | none => .ok (seconds fallback)
  | some raw =>
      match RustText.parseUnsigned (2 ^ 64) raw.toList with
      | none =>
          .error (.invalid var "a number of seconds between 0 and 3600"
            "the value could not be parsed as a number")
      | some value =>
          if 3600 < value then
            .error (.invalid var "a number of seconds between 0 and 3600"
              (toString value ++ " is longer than an hour"))
          else .ok (seconds value)

/-- An absolute URL whose scheme is `http` or `https`. -/
def httpUrl (var expected raw : String) : Except ConfigError Url :=
  match sources.crates.url raw with
  | none => .error (.invalid var expected "the value could not be parsed as a URL")
  | some url =>
      if ¬ (url.scheme = "http" ∨ url.scheme = "https") then
        .error (.invalid var "an http or https URL"
          ("scheme " ++ sources.crates.debug url.scheme ++ " is not http/https"))
      else .ok url

/-- A URL that carries no user information. -/
def withoutUserinfo (var because : String) (url : Url) : Except ConfigError Url :=
  if url.username ≠ "" ∨ url.password.isSome then
    .error (.invalid var "a URL without embedded credentials" because)
  else .ok url

end Variables

/-! ## Redmine -/

structure RedmineVersion where
  major : ℕ
  minor : ℕ
  patch : ℕ
deriving DecidableEq

structure RedmineConfig where
  url : Url
  sslVerify : Bool
  version : Option RedmineVersion

def versionPart (part : List Char) : Option ℕ :=
  if part.all Char.isDigit then RustText.parseUnsigned (2 ^ 32) part else none

def RedmineVersion.parse (raw : String) : Option RedmineVersion :=
  match raw.toList.splitOn '.' with
  | [major, minor, patch] => do
      pure ⟨← versionPart major, ← versionPart minor, ← versionPart patch⟩
  | _ => none

section Redmine

variable (sources : Sources) (vars : EnvMap)

def parseVersion : Except ConfigError (Option RedmineVersion) :=
  match optional vars "REDMINE_VERSION" with
  | none => .ok none
  | some raw =>
      match RedmineVersion.parse raw with
      | some version => .ok (some version)
      | none =>
          .error (.invalid "REDMINE_VERSION"
            "MAJOR.MINOR.PATCH, for example 7.0.3"
            ("got " ++ sources.crates.debug raw))

def parseRedmine : Except ConfigError RedmineConfig := do
  let raw ← required vars "REDMINE_URL"
    "the server must know which Redmine instance to talk to"
  let parsed ← httpUrl sources "REDMINE_URL" "a valid http(s) URL" raw
  let url ← withoutUserinfo "REDMINE_URL"
    "the URL contains userinfo; put credentials in REDMINE_API_KEY instead" parsed
  let sslVerify ← optionalBool vars "REDMINE_SSL_VERIFY" true
  let version ← parseVersion sources vars
  pure ⟨url, sslVerify, version⟩

end Redmine

/-! ## The HTTP transport -/

structure RateLimitConfig where
  enabled : Bool
  standardRps : ℕ
  standardBurst : ℕ
  strictRps : ℕ
  strictBurst : ℕ
  maxKeys : ℕ
deriving DecidableEq

structure HttpConfig extends Config.HttpConfig where
  mcpPath : String
  allowedOrigins : List String
  maxRequestBodyBytes : ℕ
  healthTtl : Duration
  requestTimeout : Duration
  rateLimit : RateLimitConfig

section Http

variable (sources : Sources) (vars : EnvMap)

def mcpPathVar : String := "FASTMCP_STREAMABLE_HTTP_PATH"

def invalidMcpPath (because : String) : ConfigError :=
  .invalid mcpPathVar
    "an absolute path with at least one segment, e.g. \"/mcp\"" because

def parseMcpPath : Except ConfigError String :=
  match optional vars mcpPathVar with
  | none => .ok "/mcp"
  | some path =>
      if path.toList.head? ≠ some '/' then
        .error (invalidMcpPath "the path does not start with \"/\"")
      else if path = "/" then
        .error (invalidMcpPath "\"/\" would shadow every other route")
      else if ['.', '.'] <:+: path.toList then
        .error (invalidMcpPath "the path contains \"..\"")
      else if path.toList.any fun c => c == '?' || c == '#' then
        .error (invalidMcpPath "the path contains a query or fragment character")
      else if path.toList.any fun c => c == '\x7b' || c == '\x7d' || c == '*' then
        .error (invalidMcpPath "the path contains a route-pattern character")
      else if path.toList.any RustText.isWhitespace then
        .error (invalidMcpPath "the path contains whitespace")
      else .ok path

def invalidOrigin (because : String) : ConfigError :=
  .invalid "REDMINE_MCP_ALLOWED_ORIGINS"
    "a comma-separated list of absolute origins" because

def checkOrigin (origin : String) : Except ConfigError Unit :=
  if origin = "*" then
    .error (invalidOrigin
      ("\"*\" would allow any site in a browser to drive this server; list the " ++
        "exact origins instead"))
  else if toAsciiLowercase origin = "null" then
    .error (invalidOrigin
      ("\"null\" is sent by sandboxed iframes and data: documents, so it is not " ++
        "an origin that can be granted access"))
  else if ¬ "://".toList <:+: origin.toList then
    .error (invalidOrigin
      (sources.crates.debug origin ++ " has no scheme; write e.g. \"https://" ++
        origin ++ "\""))
  else if sources.headerValue origin = false then
    .error (invalidOrigin
      (sources.crates.debug origin ++ " cannot be sent as an HTTP header value"))
  else .ok ()

def parseAllowedOrigins : Except ConfigError (List String) := do
  match ← parseCsv vars "REDMINE_MCP_ALLOWED_ORIGINS" with
  | none => pure []
  | some origins => do
      origins.forM (checkOrigin sources)
      pure origins

def minMaxRequestBodyBytes : ℕ := 1024

def maxMaxRequestBodyBytes : ℕ := 64 * 1024 * 1024

def invalidBodyBytes (because : String) : ConfigError :=
  .invalid "REDMINE_MCP_MAX_REQUEST_BODY_BYTES"
    "a byte count between 1024 and 67108864" because

def parseMaxRequestBodyBytes : Except ConfigError ℕ :=
  match optional vars "REDMINE_MCP_MAX_REQUEST_BODY_BYTES" with
  | none => .ok (4 * 1024 * 1024)
  | some raw =>
      match RustText.parseUnsigned (2 ^ 64) raw.toList with
      | none =>
          .error (invalidBodyBytes "the value could not be parsed as a byte count")
      | some bytes =>
          if ¬ (minMaxRequestBodyBytes ≤ bytes ∧ bytes ≤ maxMaxRequestBodyBytes) then
            .error (invalidBodyBytes
              (toString bytes ++ " is outside the accepted range"))
          else .ok bytes

/-- The burst of a class of limits is not below its rate. -/
def checkBurst (burstVar rpsVar : String) (burst rps : ℕ) : Except ConfigError Unit :=
  if burst < rps then
    .error (.invalid burstVar ("a value >= " ++ rpsVar)
      (toString burst ++ " is less than the configured rps (" ++ toString rps ++ ")"))
  else .ok ()

def parseRateLimit : Except ConfigError RateLimitConfig := do
  let enabled ← optionalBool vars "REDMINE_MCP_RATE_LIMIT_ENABLED" true
  let standardRps ← positiveU32 vars "REDMINE_MCP_RATE_LIMIT_RPS" 10
  let standardBurst ← positiveU32 vars "REDMINE_MCP_RATE_LIMIT_BURST" 40
  let strictRps ← positiveU32 vars "REDMINE_MCP_RATE_LIMIT_AUTH_RPS" 1
  let strictBurst ← positiveU32 vars "REDMINE_MCP_RATE_LIMIT_AUTH_BURST" 10
  let maxKeys ← positiveUsize vars "REDMINE_MCP_RATE_LIMIT_MAX_KEYS" 10000
  checkBurst "REDMINE_MCP_RATE_LIMIT_BURST" "REDMINE_MCP_RATE_LIMIT_RPS"
    standardBurst standardRps
  checkBurst "REDMINE_MCP_RATE_LIMIT_AUTH_BURST" "REDMINE_MCP_RATE_LIMIT_AUTH_RPS"
    strictBurst strictRps
  pure ⟨enabled, standardRps, standardBurst, strictRps, strictBurst, maxKeys⟩

/-- An empty list admits every host, so it must have been asked for. -/
def checkAllowedHosts (allowedHosts : List String) : Except ConfigError Unit :=
  if allowedHosts.isEmpty ∧ optional vars allowedHostsVar ≠ some "*" then
    .error (.invalid allowedHostsVar "a non-empty Host allowlist"
      ("the derived allowlist came out empty, which would disable Host validation; " ++
        "set REDMINE_MCP_ALLOWED_HOSTS=* if that is genuinely intended"))
  else .ok ()

def parseHttp : Except ConfigError HttpConfig := do
  let bind ← parseBind vars
  let allowedHosts ← parseAllowedHosts sources.crates vars bind
  checkAllowedHosts vars allowedHosts
  let maxRequestBodyBytes ← parseMaxRequestBodyBytes vars
  let healthTtl ← secondsUpToAnHour vars "HEALTH_INTROSPECTION_TTL_SECONDS" 30
  let mcpPath ← parseMcpPath vars
  let allowedOrigins ← parseAllowedOrigins sources vars
  let publicBase ← parsePublicBase sources.crates vars bind
  let rateLimit ← parseRateLimit vars
  pure
    { bind, allowedHosts, publicBase, mcpPath, allowedOrigins,
      maxRequestBodyBytes, healthTtl, requestTimeout := seconds 10, rateLimit }

end Http

/-! ## Authentication -/

inductive TransportKind where
  | stdio
  | http
deriving DecidableEq

inductive DiscoveryAs where
  | redmine
  | selfHosted
deriving DecidableEq

def DiscoveryAs.label : DiscoveryAs → String
  | redmine => "redmine"
  | selfHosted => "self"

structure OAuthConfig where
  baseUrl : Url
  introspectClientId : String
  introspectClientSecret : String
  tokenCacheTtl : Duration
  discoveryAs : DiscoveryAs
  scopes : List String
  scopeEnforcement : Bool

structure OAuthProxyConfig where
  resource : OAuthConfig
  upstreamClientId : String
  upstreamClientSecret : String
  redirects : RedirectPolicy

/-- A value of this type is only made where the attestation is checked. -/
structure ProxyTrust where

inductive AuthMode where
  | legacy (credential : Retry.Credential)
  | legacyPerUser (trust : ProxyTrust) (auditIdentity : Bool)
  | oauth (config : OAuthConfig)
  | oauthProxy (config : OAuthProxyConfig)

section Auth

variable (sources : Sources) (vars : EnvMap)

def withoutQuery (var : String) (url : Url) : Except ConfigError Url :=
  if url.query.isSome then
    .error (.invalid var "a URL without a query string"
      "the URL contains a query string")
  else .ok url

def withoutFragment (var : String) (url : Url) : Except ConfigError Url :=
  if url.fragment.isSome then
    .error (.invalid var "a URL without a fragment" "the URL contains a fragment")
  else .ok url

def parseOAuthBaseUrl : Except ConfigError Url := do
  let raw ← required vars "REDMINE_MCP_BASE_URL"
    "oauth auth mode requires the server's own public base URL"
  let url ← httpUrl sources "REDMINE_MCP_BASE_URL"
    "an absolute http(s) URL with no userinfo, query, or fragment" raw
  let url ← withoutUserinfo "REDMINE_MCP_BASE_URL" "the URL contains userinfo" url
  let url ← withoutQuery "REDMINE_MCP_BASE_URL" url
  withoutFragment "REDMINE_MCP_BASE_URL" url

def parseTokenCacheTtl : Except ConfigError Duration :=
  secondsUpToAnHour vars "REDMINE_OAUTH_TOKEN_CACHE_TTL_SECONDS" 60

/-- A variable with one word for each of two settings, the first of which is
the default. -/
def twoWay {α : Type} (var expected first second : String) (a b : α) :
    Except ConfigError α :=
  match optional vars var with
  | none => .ok a
  | some value =>
      if value = first then .ok a
      else if value = second then .ok b
      else .error (.invalid var expected ("got " ++ sources.crates.debug value))

def parseScopeEnforcement : Except ConfigError Bool :=
  twoWay sources vars "REDMINE_OAUTH_SCOPE_ENFORCEMENT" "one of \"on\", \"off\""
    "on" "off" true false

def parseDiscoveryAs : Except ConfigError DiscoveryAs :=
  twoWay sources vars "REDMINE_OAUTH_DISCOVERY_AS" "one of \"redmine\", \"self\""
    "redmine" "self" .redmine .selfHosted

/-- The requested scopes that are not advertised, each once. -/
def unadvertised (full : List String) (raw : String) : List String :=
  (splitWhitespace raw).foldl (fun invalid scope =>
    if scope ∈ full ∨ scope ∈ invalid then invalid else invalid ++ [scope]) []

def parseScopes (full : List String) : Except ConfigError (List String) :=
  match optional vars "REDMINE_MCP_SCOPES" with
  | none => .ok full
  | some raw =>
      match narrow full raw with
      | some scopes => .ok scopes
      | none =>
          .error (.invalid "REDMINE_MCP_SCOPES"
            "a whitespace-separated subset of the scopes this server advertises"
            ("contains scope(s) not advertised in this mode: " ++
              String.intercalate ", " (unadvertised full raw) ++ ". Allowed: " ++
              String.intercalate ", " full))

def introspectBecause : String :=
  "oauth auth mode requires the OAuth client credentials used to introspect " ++
    "bearer tokens"

def parseOAuthResource (transport : TransportKind) (readOnly : Bool)
    (plugins : PluginFlags) : Except ConfigError OAuthConfig := do
  let baseUrl ← parseOAuthBaseUrl sources vars
  let introspectClientId ← required vars "REDMINE_INTROSPECT_CLIENT_ID"
    introspectBecause
  let introspectClientSecret ← requiredSecret sources vars
    "REDMINE_INTROSPECT_CLIENT_SECRET"
    (introspectBecause ++ " (REDMINE_INTROSPECT_CLIENT_SECRET or " ++
      "REDMINE_INTROSPECT_CLIENT_SECRET_FILE)")
  if transport = .stdio then
    .error (.conflict
      ("oauth auth requires per-request bearer tokens and a 401 challenge to " ++
        "discover them, neither of which the stdio transport has"))
  else do
    let tokenCacheTtl ← parseTokenCacheTtl vars
    let discoveryAs ← parseDiscoveryAs sources vars
    let scopes ← parseScopes vars (advertised readOnly plugins.agile plugins.tags)
    let scopeEnforcement ← parseScopeEnforcement sources vars
    pure
      { baseUrl, introspectClientId, introspectClientSecret, tokenCacheTtl,
        discoveryAs, scopes, scopeEnforcement }

def parseUpstreamClient (resource : OAuthConfig) :
    Except ConfigError (String × String) := do
  match optional vars "REDMINE_OAUTH_CLIENT_ID",
      ← secret sources vars "REDMINE_OAUTH_CLIENT_SECRET" with
  | some id, some value => pure (id, value)
  | none, none =>
      pure (resource.introspectClientId, resource.introspectClientSecret)
  | some _, none =>
      .error (.conflict
        ("REDMINE_OAUTH_CLIENT_ID is set without REDMINE_OAUTH_CLIENT_SECRET (or " ++
          "_FILE); set both to use a dedicated upstream client, or neither to fall " ++
          "back to the introspection client"))
  | none, some _ =>
      .error (.conflict
        ("REDMINE_OAUTH_CLIENT_SECRET (or _FILE) is set without " ++
          "REDMINE_OAUTH_CLIENT_ID; set both to use a dedicated upstream client, or " ++
          "neither to fall back to the introspection client"))

def redirectsVar : String := "REDMINE_MCP_ALLOWED_CLIENT_REDIRECT_URIS"

def redirectsExpected : String :=
  "a comma/whitespace-separated list of scheme://host[:port]/path* patterns, or " ++
    "the literal \"*\""

def redirectPattern (raw : String) : Except ConfigError RedirectPattern :=
  match RedirectPattern.parse raw with
  | .ok pattern => .ok pattern
  | .error e =>
      .error (.invalid redirectsVar redirectsExpected
        (e.message sources.crates.debug))

def parseRedirectPolicy : Except ConfigError RedirectPolicy :=
  match optional vars redirectsVar with
  | none => .ok .loopback
  | some raw =>
      if raw = "*" then .ok .any
      else
        let entries := splitWords (fun c => c == ',' || RustText.isWhitespace c) raw
        if entries.isEmpty then
          .error (.invalid redirectsVar redirectsExpected
            ("the value contains only separators and whitespace; unset the " ++
              "variable instead of setting it empty"))
        else do
          let patterns ← entries.mapM (redirectPattern sources)
          pure (.patterns patterns)

def parseOAuthProxy (transport : TransportKind) (readOnly : Bool)
    (plugins : PluginFlags) : Except ConfigError OAuthProxyConfig := do
  let resource ← parseOAuthResource sources vars transport readOnly plugins
  if optional vars "REDMINE_OAUTH_DISCOVERY_AS" = some "redmine" then
    .error (.conflict
      ("REDMINE_OAUTH_DISCOVERY_AS=redmine conflicts with oauth-proxy mode: this " ++
        "server is the authorization server in this mode, so its metadata document " ++
        "cannot name Redmine's endpoints instead"))
  else do
    let resource := { resource with discoveryAs := .selfHosted }
    let upstream ← parseUpstreamClient sources vars resource
    let redirects ← parseRedirectPolicy sources vars
    pure ⟨resource, upstream.1, upstream.2, redirects⟩

def parseLegacyPerUser (transport : TransportKind) : Except ConfigError AuthMode :=
  if optional vars "REDMINE_PER_USER_TRUST_PROXY" ≠ some "true" then
    .error (.missing "REDMINE_PER_USER_TRUST_PROXY"
      ("legacy-per-user auth requires an explicit attestation that a " ++
        "TLS-terminating proxy is in front (set to \"true\")"))
  else if transport = .stdio then
    .error (.conflict
      ("legacy-per-user auth requires per-request headers, which the stdio " ++
        "transport does not have"))
  else do
    let auditIdentity ← optionalBool vars "REDMINE_PER_USER_AUDIT_IDENTITY" false
    pure (.legacyPerUser {} auditIdentity)

def parseLegacy : Except ConfigError AuthMode := do
  let key ← requiredSecret sources vars "REDMINE_API_KEY"
    ("legacy auth mode requires an API key (REDMINE_API_KEY or " ++
      "REDMINE_API_KEY_FILE)")
  pure (.legacy (.apiKey key))

def parseAuth (transport : TransportKind) (readOnly : Bool) (plugins : PluginFlags) :
    Except ConfigError AuthMode :=
  match (optional vars "REDMINE_AUTH_MODE").getD "legacy" with
  | "legacy" => parseLegacy sources vars
  | "legacy-per-user" => parseLegacyPerUser vars transport
  | "oauth" => do
      let config ← parseOAuthResource sources vars transport readOnly plugins
      pure (.oauth config)
  | "oauth-proxy" => do
      let config ← parseOAuthProxy sources vars transport readOnly plugins
      pure (.oauthProxy config)
  | other =>
      .error (.invalid "REDMINE_AUTH_MODE"
        "one of \"legacy\", \"legacy-per-user\", \"oauth\", \"oauth-proxy\""
        ("got " ++ sources.crates.debug other))

end Auth

/-! ## The remaining settings -/

inductive SchemaDialect where
  | strict
  | portable
deriving DecidableEq

def SchemaDialect.label : SchemaDialect → String
  | strict => "strict"
  | portable => "portable"

inductive LogFormat where
  | text
  | json
deriving DecidableEq

def LogFormat.label : LogFormat → String
  | text => "text"
  | json => "json"

structure AttachmentConfig where
  dir : String
  maxDownloadBytes : ℕ
  storeMaxBytes : ℕ
  autoCleanupEnabled : Bool
  cleanupInterval : Duration
  expiresAfter : Duration
  uploadFileRoots : List String
  exposeAdminTools : Bool
  publicUrlRewrite : Option Url

section Remaining

variable (sources : Sources) (vars : EnvMap)

def parsePlugins : Except ConfigError PluginFlags := do
  let agile ← optionalBool vars "REDMINE_AGILE_ENABLED" false
  let checklists ← optionalBool vars "REDMINE_CHECKLISTS_ENABLED" false
  let products ← optionalBool vars "REDMINE_PRODUCTS_ENABLED" false
  let crm ← optionalBool vars "REDMINE_CRM_ENABLED" false
  let dmsf ← optionalBool vars "REDMINE_DMSF_ENABLED" false
  let tags ← optionalBool vars "REDMINE_TAGS_ENABLED" false
  pure { agile, checklists, products, crm, dmsf, tags }

def parseSchemaDialect : Except ConfigError SchemaDialect :=
  twoWay sources vars "REDMINE_MCP_SCHEMA_DIALECT"
    "one of \"strict\", \"portable\"" "strict" "portable" .strict .portable

def parseLogFormat : Except ConfigError LogFormat :=
  twoWay sources vars "REDMINE_MCP_LOG_FORMAT" "one of \"text\", \"json\""
    "text" "json" .text .json

def invalidDefaults (because : String) : ConfigError :=
  .invalid "REDMINE_REQUIRED_CUSTOM_FIELD_DEFAULTS"
    "a JSON object mapping custom field name to a string or an array of strings"
    because

def defaultEntry : Json → Except ConfigError String
  | .str s => .ok s
  | _ => .error (invalidDefaults "an array entry is not a string")

def defaultValue : Json → Except ConfigError CustomFieldDefaultValue
  | .str s => .ok (.single s)
  | .arr items => do
      let strings ← items.mapM defaultEntry
      pure (.multiple strings)
  | _ =>
      .error (invalidDefaults
        "an entry's value is neither a string nor an array of strings")

def defaultField (field : String × Json) :
    Except ConfigError (String × CustomFieldDefaultValue) := do
  let value ← defaultValue field.2
  pure (field.1, value)

/-- The entries of the parsed text, if it is JSON. -/
def defaultFields :
    Option Json → Except ConfigError (List (String × CustomFieldDefaultValue))
  | none => .error (invalidDefaults "the value is not valid JSON")
  | some (.obj fields) =>
      if fields.isEmpty then
        .error (invalidDefaults
          "the object has no entries; unset the variable instead of setting it empty")
      else fields.mapM defaultField
  | some _ => .error (invalidDefaults "the value is not a JSON object")

def parseCustomFieldDefaults :
    Except ConfigError (List (String × CustomFieldDefaultValue)) :=
  match optional vars "REDMINE_REQUIRED_CUSTOM_FIELD_DEFAULTS" with
  | none => .ok []
  | some raw => defaultFields (sources.parseJson raw)

def parseCustomFields : Except ConfigError CustomFieldConfig := do
  let autofillRequired ←
    optionalBool vars "REDMINE_AUTOFILL_REQUIRED_CUSTOM_FIELDS" false
  let defaults ← parseCustomFieldDefaults sources vars
  pure ⟨autofillRequired, defaults⟩

def parseAttachmentsDir : String :=
  (optional vars "ATTACHMENTS_DIR").getD (String.ofList
    (UnixPath.join sources.tempDir.toList "ruprogress-mcp-attachments".toList))

def uploadFileRoot (raw : String) : Except ConfigError String :=
  if UnixPath.isAbsolute raw.toList then .ok raw
  else
    .error (.invalid "REDMINE_MCP_UPLOAD_FILE_ROOTS"
      "a comma-separated list of absolute directory paths"
      (sources.crates.debug raw ++ " is not an absolute path"))

def parseUploadFileRoots : Except ConfigError (List String) := do
  match ← parseCsv vars "REDMINE_MCP_UPLOAD_FILE_ROOTS" with
  | none => pure []
  | some entries => entries.mapM (uploadFileRoot sources)

def parsePublicUrlRewrite : Except ConfigError (Option Url) :=
  match optional vars "REDMINE_PUBLIC_URL" with
  | none => .ok none
  | some raw => do
      let url ← httpUrl sources "REDMINE_PUBLIC_URL" "a valid http(s) URL" raw
      pure (some url)

/-- A number of minutes as seconds; the multiplication saturates. -/
def minutes (n : ℕ) : Duration := seconds (min (n * 60) (2 ^ 64 - 1))

/-- The store holds at least one file of the greatest size. -/
def checkStoreCap (storeMaxBytes maxDownloadBytes : ℕ) : Except ConfigError Unit :=
  if storeMaxBytes < maxDownloadBytes then
    .error (.conflict
      ("ATTACHMENT_STORE_MAX_BYTES (" ++ toString storeMaxBytes ++
        ") is smaller than ATTACHMENT_MAX_DOWNLOAD_BYTES (" ++
        toString maxDownloadBytes ++ "); no single download could ever fit"))
  else .ok ()

def parseAttachments : Except ConfigError AttachmentConfig := do
  let maxDownloadBytes ← positiveU64 vars "ATTACHMENT_MAX_DOWNLOAD_BYTES"
    (200 * 1024 * 1024)
  let storeMaxBytes ← positiveU64 vars "ATTACHMENT_STORE_MAX_BYTES"
    (2 * 1024 * 1024 * 1024)
  checkStoreCap storeMaxBytes maxDownloadBytes
  let cleanupMinutes ← positiveU64 vars "CLEANUP_INTERVAL_MINUTES" 15
  let expiresMinutes ← positiveU64 vars "ATTACHMENT_EXPIRES_MINUTES" 60
  let autoCleanupEnabled ← optionalBool vars "AUTO_CLEANUP_ENABLED" true
  let uploadFileRoots ← parseUploadFileRoots sources vars
  let exposeAdminTools ← optionalBool vars "REDMINE_MCP_EXPOSE_ADMIN_TOOLS" false
  let publicUrlRewrite ← parsePublicUrlRewrite sources vars
  pure
    { dir := parseAttachmentsDir sources vars, maxDownloadBytes, storeMaxBytes,
      autoCleanupEnabled, cleanupInterval := minutes cleanupMinutes,
      expiresAfter := minutes expiresMinutes, uploadFileRoots, exposeAdminTools,
      publicUrlRewrite }

end Remaining

/-! ## The whole configuration -/

inductive TransportConfig where
  | stdio
  | http (config : HttpConfig)

structure Config where
  redmine : RedmineConfig
  auth : AuthMode
  transport : TransportConfig
  readOnly : Bool
  plugins : PluginFlags
  attachments : AttachmentConfig
  maxResponseItems : ℕ
  maxResponseBytes : ℕ
  schemaDialect : SchemaDialect
  customFields : CustomFieldConfig
  logFormat : LogFormat

section FromMap

variable (sources : Sources) (vars : EnvMap)

def parseTransport : TransportKind → Except ConfigError TransportConfig
  | .stdio => .ok .stdio
  | .http => do
      let config ← parseHttp sources vars
      pure (.http config)

def unauthenticatedNetworkVar : String := "REDMINE_MCP_ALLOW_UNAUTHENTICATED_NETWORK"

/-- The transport is reachable from other machines, and every caller would act
with the server's own key. -/
def sharesKey : TransportConfig → AuthMode → Bool
  | .http config, .legacy _ => !config.bind.ip.isLoopback
  | _, _ => false

def checkExposure (transport : TransportConfig) (auth : AuthMode) :
    Except ConfigError Unit :=
  if sharesKey transport auth ∧
      optional vars unauthenticatedNetworkVar ≠ some "true" then
    .error (.missing unauthenticatedNetworkVar
      ("legacy auth mode authenticates this server to Redmine with a single shared " ++
        "API key, not the caller to this server: anyone who can reach a " ++
        "non-loopback bind acts as that Redmine account. Bind loopback instead, put " ++
        "an authenticating proxy in front, switch to " ++
        "legacy-per-user/oauth/oauth-proxy, or set this variable to \"true\" to " ++
        "accept the risk"))
  else .ok ()

def fromMap (kind : TransportKind) : Except ConfigError Config := do
  let redmine ← parseRedmine sources vars
  let readOnly ← optionalBool vars "REDMINE_MCP_READ_ONLY" false
  let plugins ← parsePlugins vars
  let auth ← parseAuth sources vars kind readOnly plugins
  let transport ← parseTransport sources vars kind
  checkExposure vars transport auth
  let attachments ← parseAttachments sources vars
  let maxResponseItems ← positiveUsize vars "REDMINE_MCP_MAX_RESPONSE_ITEMS" 200
  let maxResponseBytes ← positiveUsize vars "REDMINE_MCP_MAX_RESPONSE_BYTES"
    (256 * 1024)
  let schemaDialect ← parseSchemaDialect sources vars
  let customFields ← parseCustomFields sources vars
  let logFormat ← parseLogFormat sources vars
  pure
    { redmine, auth, transport, readOnly, plugins, attachments, maxResponseItems,
      maxResponseBytes, schemaDialect, customFields, logFormat }

end FromMap

namespace Sample

def sources : Sources where
  crates := Config.Sample.crates
  urlText := fun url => url.scheme
  headerValue := fun _ => true
  parseJson := fun _ => none
  readToString := fun _ => .error "No such file or directory"
  tempDir := "/tmp"

/-- The key of the server is given by a variable. -/
def withKey (key : String) : EnvMap :=
  Config.Sample.env [("REDMINE_URL", "http://redmine.test"), ("REDMINE_API_KEY", key)]

end Sample

end Startup

end RuprogressMcp
