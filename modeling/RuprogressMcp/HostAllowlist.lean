import Mathlib.Data.List.Destutter
import RuprogressMcp.NetAddress
import RuprogressMcp.UrlRecord

/-!
# The Host allowlist and the public URL

Two functions of the configuration read the same variables: one derives the
hosts that requests may name, the other the URL that the server hands out for
its files.  A request to that URL passes the host check exactly when its host
is `localhost` or `127.0.0.1`, or is spelled in `PUBLIC_HOST` as the URL spells
it and with a port, if any, that the URL keeps.
-/

namespace RuprogressMcp

namespace Config

abbrev EnvMap : Type := String → Option String

inductive ConfigError where
  | missing (var because : String)
  | invalid (var expected because : String)
  | conflict (because : String)
deriving DecidableEq

def optional (vars : EnvMap) (var : String) : Option String :=
  (vars var).filter fun value => value ≠ ""

def parseCsv (vars : EnvMap) (var : String) :
    Except ConfigError (Option (List String)) :=
  match optional vars var with
  | none => .ok none
  | some raw =>
      let entries := ((raw.toList.splitOn ',').map RustText.trim).filter fun entry =>
        !entry.isEmpty
      if entries.isEmpty then
        .error (.invalid var "a comma-separated list with at least one entry"
          ("the value contains only separators and whitespace; unset the variable " ++
            "instead of setting it empty"))
      else .ok (some (entries.map String.ofList))

def portRange : String := "a TCP port between 1 and 65535"

def parsePort (vars : EnvMap) (var : String) : Except ConfigError (Option ℕ) :=
  match optional vars var with
  | none => .ok none
  | some raw =>
      match RustText.parseUnsigned 65536 raw.toList with
      | none =>
          .error (.invalid var portRange
            "the value could not be parsed as a port number")
      | some 0 =>
          .error (.invalid var portRange
            "0 would bind an ephemeral port that no client could be told about")
      | some port => .ok (some port)

def defaultServerPort : ℕ := 8000

def parseIp (vars : EnvMap) : Except ConfigError IpAddr :=
  match optional vars "SERVER_HOST" with
  | none => .ok (.v4 127 0 0 1)
  | some raw =>
      match IpAddr.parse raw with
      | some ip => .ok ip
      | none =>
          .error (.invalid "SERVER_HOST"
            "an IP address literal (e.g. 127.0.0.1, ::1, 0.0.0.0)"
            ("hostnames are rejected so the bound interface does not depend on DNS"))

def parseBind (vars : EnvMap) : Except ConfigError SocketAddr := do
  let ip ← parseIp vars
  let port ← parsePort vars "SERVER_PORT"
  pure ⟨ip, port.getD defaultServerPort⟩

/-! ## The two crates -/

/-- What `host()` and `port_u16()` read from an `http::uri::Authority`. -/
structure Authority where
  host : String
  port : Option ℕ
deriving DecidableEq

/-- `http::uri::Authority::try_from`, `Url::parse`, and the form in which a
parsed `Url` writes a host.  `debug` prints a string with escapes. -/
structure Crates where
  authority : String → Option Authority
  url : String → Option Url
  canonicalHost : String → String
  debug : String → String

/-! ## Deriving the allowlist -/

section Derivation

variable (crates : Crates) (vars : EnvMap)

def allowedHostsVar : String := "REDMINE_MCP_ALLOWED_HOSTS"

def loopbackHosts : List String := ["localhost", "127.0.0.1", "::1"]

def validateAuthority (var value : String) : Except ConfigError Unit :=
  match crates.authority value with
  | some _ => .ok ()
  | none =>
      .error (.invalid var
        "a hostname, optionally with a port (e.g. \"mcp.example.com:8000\")"
        (crates.debug value ++ " is not a valid host authority"))

def explicitHosts (explicit : List String) : Except ConfigError (List String) :=
  if explicit.any (· == "*") then
    if 1 < explicit.length then
      .error (.invalid allowedHostsVar "either a list of hosts or the single value \"*\""
        ("\"*\" disables Host validation entirely, so combining it with specific " ++
          "hosts is contradictory"))
    else .ok []
  else do
    explicit.forM (validateAuthority crates allowedHostsVar)
    pure explicit

/-- The entry for `PUBLIC_HOST`, which is also the authority of the URL. -/
def publicEntry (host : String) (port : Option ℕ) : String :=
  match port with
  | some port => host ++ ":" ++ toString port
  | none => host

def parseAllowedHosts (bind : SocketAddr) : Except ConfigError (List String) := do
  match ← parseCsv vars allowedHostsVar with
  | some explicit => explicitHosts crates explicit
  | none =>
      let publicPort ← parsePort vars "PUBLIC_PORT"
      match optional vars "PUBLIC_HOST", publicPort with
      | none, some _ =>
          .error (.conflict
            ("PUBLIC_PORT is set without PUBLIC_HOST; it only qualifies a " ++
              "PUBLIC_HOST entry in the Host allowlist"))
      | none, none =>
          if bind.ip.isLoopback then .ok loopbackHosts
          else
            .error (.missing "PUBLIC_HOST"
              ("SERVER_HOST is not a loopback address, so the Host allowlist cannot " ++
                "be derived. Set PUBLIC_HOST to the hostname clients use to reach " ++
                "this server, or set REDMINE_MCP_ALLOWED_HOSTS explicitly (\"*\" " ++
                "disables Host validation entirely — only do this when a reverse " ++
                "proxy already validates Host)."))
      | some host, publicPort => do
          validateAuthority crates "PUBLIC_HOST" host
          pure ((loopbackHosts ++ [publicEntry host publicPort]).destutter (· ≠ ·))

/-! ## Deriving the public URL -/

def parsePublicScheme (publicPort : Option ℕ) : Except ConfigError String :=
  match optional vars "PUBLIC_SCHEME" with
  | none => .ok (if publicPort = some 443 then "https" else "http")
  | some "http" => .ok "http"
  | some "https" => .ok "https"
  | some other =>
      .error (.invalid "PUBLIC_SCHEME" "\"http\" or \"https\""
        ("got " ++ crates.debug other))

def publicBaseFromLoopbackBind (bind : SocketAddr) : Except ConfigError String :=
  if bind.ip.isLoopback then
    let host := match bind.ip with
      | .v6 _ => "[" ++ bind.ip.display ++ "]"
      | .v4 _ _ _ _ => bind.ip.display
    .ok ("http://" ++ (host ++ ":" ++ toString bind.port))
  else
    .error (.missing "PUBLIC_HOST"
      ("SERVER_HOST is not a loopback address, so the public URL used to build " ++
        "/files/\x7buuid\x7d links cannot be derived without PUBLIC_HOST"))

def publicBaseText (bind : SocketAddr) (publicHost : Option String)
    (publicPort : Option ℕ) (scheme : String) : Except ConfigError String :=
  match publicHost with
  | some host => .ok (scheme ++ "://" ++ publicEntry host publicPort)
  | none => publicBaseFromLoopbackBind bind

def parsePublicBase (bind : SocketAddr) : Except ConfigError Url := do
  let publicPort ← parsePort vars "PUBLIC_PORT"
  let scheme ← parsePublicScheme crates vars publicPort
  let raw ← publicBaseText bind (optional vars "PUBLIC_HOST") publicPort scheme
  match crates.url raw with
  | some url => .ok url
  | none =>
      .error (.invalid "PUBLIC_HOST"
        ("a value that, combined with PUBLIC_SCHEME/PUBLIC_PORT, forms a valid URL")
        (crates.debug raw ++ " could not be parsed as a URL"))

/-- The fields of the HTTP configuration that the host check depends on. -/
structure HttpConfig where
  bind : SocketAddr
  allowedHosts : List String
  publicBase : Url

end Derivation

/-! ## Checking a request -/

structure RequestAuthority where
  host : String
  port : Option ℕ
deriving DecidableEq

def normalizeHost (host : String) : String :=
  String.ofList ((RustText.trimMatches (· == '[') (· == ']') host.toList).map
    Char.toLower)

def parseAuthority (crates : Crates) (raw : String) : Option RequestAuthority :=
  (crates.authority (String.ofList (RustText.trim raw.toList))).map fun authority =>
    ⟨normalizeHost authority.host, authority.port⟩

def portMatches (allowed requested : Option ℕ) : Bool :=
  match allowed with
  | some port => requested == some port
  | none => true

def hostIsAllowed (crates : Crates) (host : RequestAuthority)
    (allowedHosts : List String) : Bool :=
  allowedHosts.isEmpty ||
    (allowedHosts.filterMap (parseAuthority crates)).any fun allowed =>
      allowed.host == host.host && portMatches allowed.port host.port

/-- The `Host` header of a request to a URL: its host, and its port unless it
is the default one. -/
def hostHeader (url : Url) : Option String :=
  url.host.map fun host => publicEntry host url.port

/-- A request addressed to the public URL passes the host check. -/
def admitsPublicBase (crates : Crates) (config : HttpConfig) : Bool :=
  match (hostHeader config.publicBase).bind (parseAuthority crates) with
  | some authority => hostIsAllowed crates authority config.allowedHosts
  | none => false

/-! ## What the crates promise -/

/-- An unreserved character or a sub-delimiter of a URI. -/
def isNameChar (c : Char) : Bool :=
  c.isAlphanum || "-._~!$&'()*+,;=".toList.contains c

def isBracketedChar (c : Char) : Bool :=
  c.isAlphanum || c == ':' || c == '.'

/-- A host name, or the bracketed text of an IPv6 address. -/
def isHost (host : String) : Bool :=
  match host.toList with
  | '[' :: rest =>
      rest.getLast? == some ']' && rest.dropLast.all isBracketedChar &&
        rest.count ':' ≤ 7
  | text => !text.isEmpty && text.all isNameChar

/-- The documented behaviour of the crates.  An authority is made of visible
characters; without brackets and user information it has at most one colon; a
host, alone or with a port, is an authority.  A URL that consists of a scheme
and an authority has the authority's host in its canonical form and its port
unless that is the default of the scheme. -/
structure Crates.Documented (crates : Crates) : Prop where
  authority_visible : ∀ text authority, crates.authority text = some authority →
    ∀ c ∈ text.toList, RustText.isWhitespace c = false
  authority_colons : ∀ text : String, '[' ∉ text.toList → '@' ∉ text.toList →
    1 < text.toList.count ':' → crates.authority text = none
  authority_port_lt : ∀ text authority, crates.authority text = some authority →
    ∀ port ∈ authority.port, port < 65536
  authority_host : ∀ host, isHost host = true →
    crates.authority host = some ⟨host, none⟩
  authority_host_port : ∀ host port, isHost host = true → port < 65536 →
    crates.authority (host ++ ":" ++ toString port) = some ⟨host, some port⟩
  url_parts : ∀ scheme entry authority url, scheme = "http" ∨ scheme = "https" →
    crates.authority entry = some authority →
    crates.url (scheme ++ "://" ++ entry) = some url →
    url.scheme = scheme ∧ url.host = some (crates.canonicalHost authority.host) ∧
      url.port = authority.port.filter fun port =>
        some port ≠ Url.knownDefaultPort scheme
  url_host : ∀ scheme entry authority url, scheme = "http" ∨ scheme = "https" →
    crates.authority entry = some authority →
    crates.url (scheme ++ "://" ++ entry) = some url →
    isHost (crates.canonicalHost authority.host) = true
  url_port : ∀ scheme host authority port url, scheme = "http" ∨ scheme = "https" →
    crates.authority host = some authority →
    crates.url (scheme ++ "://" ++ (host ++ ":" ++ toString port)) = some url →
    crates.authority (host ++ ":" ++ toString port) =
      some ⟨authority.host, some port⟩
  canonical_ipv4 : ∀ a b c d, crates.canonicalHost (IpAddr.displayV4 a b c d) =
    IpAddr.displayV4 a b c d
  canonical_ipv6_loopback : crates.canonicalHost "[::1]" = "[::1]"

/-! ## Which requests are allowed -/

section Allowed

variable {crates : Crates}

theorem normalizeHost_of_plain {host : String}
    (hplain : ∀ c ∈ host.toList, c ≠ '[' ∧ c ≠ ']' ∧ c.toLower = c) :
    normalizeHost host = host := by
  unfold normalizeHost
  rw [RustText.trimMatches_of_none]
  · rw [List.map_congr_left fun c hc => (hplain c hc).2.2, List.map_id',
      String.ofList_toList]
  · intro c hc
    simp [(hplain c hc).1]
  · intro c hc
    simp [(hplain c hc).2.1]

theorem Crates.Documented.parseAuthority_eq
    (hdoc : crates.Documented) {text : String} {authority : Authority}
    (hauthority : crates.authority text = some authority) :
    parseAuthority crates text =
      some ⟨normalizeHost authority.host, authority.port⟩ := by
  have hvisible := hdoc.authority_visible text authority hauthority
  unfold parseAuthority
  rw [RustText.trim, RustText.trimMatches_of_none hvisible hvisible,
    String.ofList_toList, hauthority, Option.map_some]

theorem Crates.Documented.parse_loopback (hdoc : crates.Documented) :
    loopbackHosts.filterMap (parseAuthority crates) =
      [⟨"localhost", none⟩, ⟨"127.0.0.1", none⟩] := by
  have hlocalhost := hdoc.parseAuthority_eq
    (hdoc.authority_host "localhost" (by decide))
  have hipv4 := hdoc.parseAuthority_eq (hdoc.authority_host "127.0.0.1" (by decide))
  have hipv6 : parseAuthority crates "::1" = none := by
    have hnone := hdoc.authority_colons "::1" (by decide) (by decide) (by decide)
    have htrim : String.ofList (RustText.trim "::1".toList) = "::1" := by decide
    rw [parseAuthority, htrim, hnone, Option.map_none]
  have hname : normalizeHost "localhost" = "localhost" := by decide
  have haddress : normalizeHost "127.0.0.1" = "127.0.0.1" := by decide
  rw [hname] at hlocalhost
  rw [haddress] at hipv4
  simp [loopbackHosts, hlocalhost, hipv4, hipv6]

theorem Crates.Documented.allowed_loopback
    (hdoc : crates.Documented) (host : RequestAuthority) :
    hostIsAllowed crates host loopbackHosts = true ↔
      host.host = "localhost" ∨ host.host = "127.0.0.1" := by
  unfold hostIsAllowed
  have hempty : loopbackHosts.isEmpty = false := rfl
  rw [hdoc.parse_loopback]
  simp only [hempty, portMatches, List.any_cons, List.any_nil, Bool.false_or,
    Bool.or_false, Bool.or_eq_true, Bool.and_true, beq_iff_eq]
  exact or_congr eq_comm eq_comm

theorem Crates.Documented.allowed_public
    (hdoc : crates.Documented) (host : RequestAuthority) {entry : String}
    {authority : Authority} (hentry : crates.authority entry = some authority) :
    hostIsAllowed crates host ((loopbackHosts ++ [entry]).destutter (· ≠ ·)) = true ↔
      (host.host = "localhost" ∨ host.host = "127.0.0.1") ∨
        normalizeHost authority.host = host.host ∧
          portMatches authority.port host.port = true := by
  have hne : entry ≠ "::1" := by
    rintro rfl
    rw [hdoc.authority_colons "::1" (by decide) (by decide) (by decide)] at hentry
    cases hentry
  have hdedup : (loopbackHosts ++ [entry]).destutter (· ≠ ·) =
      loopbackHosts ++ [entry] := by
    simp [loopbackHosts, List.destutter, List.destutter', hne.symm]
  have hparsed : (loopbackHosts ++ [entry]).filterMap (parseAuthority crates) =
      [⟨"localhost", none⟩, ⟨"127.0.0.1", none⟩,
        ⟨normalizeHost authority.host, authority.port⟩] := by
    rw [List.filterMap_append, hdoc.parse_loopback]
    simp [hdoc.parseAuthority_eq hentry]
  rw [hdedup]
  unfold hostIsAllowed
  have hempty : (loopbackHosts ++ [entry]).isEmpty = false := rfl
  have hany : portMatches none host.port = true := rfl
  rw [hparsed]
  simp only [hempty, hany, List.any_cons, List.any_nil, Bool.false_or,
    Bool.or_false, Bool.or_eq_true, Bool.and_true, Bool.and_eq_true, beq_iff_eq]
  rw [← or_assoc]
  exact or_congr (or_congr eq_comm eq_comm) Iff.rfl

theorem Crates.Documented.parse_hostHeader
    (hdoc : crates.Documented) {scheme entry : String} {authority : Authority} {url : Url}
    (hscheme : scheme = "http" ∨ scheme = "https")
    (hentry : crates.authority entry = some authority)
    (hurl : crates.url (scheme ++ "://" ++ entry) = some url) :
    (hostHeader url).bind (parseAuthority crates) =
      some ⟨normalizeHost (crates.canonicalHost authority.host),
        authority.port.filter fun port => some port ≠ Url.knownDefaultPort scheme⟩ := by
  obtain ⟨-, hhost, hport⟩ := hdoc.url_parts scheme entry authority url hscheme hentry hurl
  have hcanonical := hdoc.url_host scheme entry authority url hscheme hentry hurl
  have hheader : crates.authority
      (publicEntry (crates.canonicalHost authority.host) url.port) =
      some ⟨crates.canonicalHost authority.host, url.port⟩ := by
    cases hkept : url.port with
    | none => exact hdoc.authority_host _ hcanonical
    | some port =>
        have hmem : port ∈ authority.port := by
          rw [hport] at hkept
          exact (Option.filter_eq_some_iff.mp hkept).1
        exact hdoc.authority_host_port _ port hcanonical
          (hdoc.authority_port_lt entry authority hentry port hmem)
  rw [hostHeader, hhost, Option.map_some, Option.bind_some,
    hdoc.parseAuthority_eq hheader, hport]

end Allowed

/-! ## Reading a configuration that was accepted -/

section Accepted

variable {crates : Crates} {vars : EnvMap}

theorem parsePort_lt {var : String} {port : ℕ}
    (hport : parsePort vars var = .ok (some port)) : port < 65536 := by
  unfold parsePort at hport
  split at hport
  · cases hport
  · split at hport
    · cases hport
    · cases hport
    · rename_i found hne hparsed
      cases hport
      exact RustText.parseUnsigned_lt hparsed

theorem parseBind_ok {address : SocketAddr} (hbind : parseBind vars = .ok address) :
    parseIp vars = .ok address.ip ∧ address.port < 65536 := by
  unfold parseBind at hbind
  obtain ⟨ip, hip, hbind⟩ := RustText.question_mark_ok hbind
  obtain ⟨port, hport, hbind⟩ := RustText.question_mark_ok hbind
  cases hbind
  refine ⟨hip, ?_⟩
  cases port with
  | none =>
      have hdefault : defaultServerPort < 65536 := by decide
      exact hdefault
  | some port => exact parsePort_lt hport

theorem parseAllowedHosts_loopback
    (hunset : optional vars allowedHostsVar = none)
    (hhost : optional vars "PUBLIC_HOST" = none) {address : SocketAddr}
    {hosts : List String} (hhosts : parseAllowedHosts crates vars address = .ok hosts) :
    parsePort vars "PUBLIC_PORT" = .ok none ∧ address.ip.isLoopback = true ∧
      hosts = loopbackHosts := by
  unfold parseAllowedHosts at hhosts
  obtain ⟨explicit, hexplicit, hhosts⟩ := RustText.question_mark_ok hhosts
  rw [parseCsv, hunset] at hexplicit
  cases hexplicit
  obtain ⟨port, hport, hhosts⟩ := RustText.question_mark_ok hhosts
  rw [hhost] at hhosts
  cases port with
  | some port => cases hhosts
  | none =>
      simp only at hhosts
      split at hhosts
      · rename_i hloopback
        cases hhosts
        exact ⟨hport, hloopback, rfl⟩
      · cases hhosts

theorem parseAllowedHosts_public
    (hunset : optional vars allowedHostsVar = none) {host : String}
    (hhost : optional vars "PUBLIC_HOST" = some host) {address : SocketAddr}
    {hosts : List String} (hhosts : parseAllowedHosts crates vars address = .ok hosts) :
    ∃ port named, parsePort vars "PUBLIC_PORT" = .ok port ∧
      crates.authority host = some named ∧
      hosts = (loopbackHosts ++ [publicEntry host port]).destutter (· ≠ ·) := by
  unfold parseAllowedHosts at hhosts
  obtain ⟨explicit, hexplicit, hhosts⟩ := RustText.question_mark_ok hhosts
  rw [parseCsv, hunset] at hexplicit
  cases hexplicit
  obtain ⟨port, hport, hhosts⟩ := RustText.question_mark_ok hhosts
  rw [hhost] at hhosts
  obtain ⟨_, hvalid, hhosts⟩ := RustText.question_mark_ok hhosts
  cases hhosts
  unfold validateAuthority at hvalid
  split at hvalid
  · rename_i named hnamed
    exact ⟨port, named, hport, hnamed, rfl⟩
  · cases hvalid

theorem parsePublicScheme_ok {port : Option ℕ} {scheme : String}
    (hscheme : parsePublicScheme crates vars port = .ok scheme) :
    scheme = "http" ∨ scheme = "https" := by
  unfold parsePublicScheme at hscheme
  split at hscheme
  · cases hscheme
    split
    · exact Or.inr rfl
    · exact Or.inl rfl
  · cases hscheme
    exact Or.inl rfl
  · cases hscheme
    exact Or.inr rfl
  · cases hscheme

theorem parsePublicBase_ok {address : SocketAddr} {url : Url}
    (hbase : parsePublicBase crates vars address = .ok url) :
    ∃ port scheme raw, parsePort vars "PUBLIC_PORT" = .ok port ∧
      parsePublicScheme crates vars port = .ok scheme ∧
      publicBaseText address (optional vars "PUBLIC_HOST") port scheme = .ok raw ∧
      crates.url raw = some url := by
  unfold parsePublicBase at hbase
  obtain ⟨port, hport, hbase⟩ := RustText.question_mark_ok hbase
  obtain ⟨scheme, hscheme, hbase⟩ := RustText.question_mark_ok hbase
  obtain ⟨raw, hraw, hbase⟩ := RustText.question_mark_ok hbase
  split at hbase
  · rename_i found hurl
    cases hbase
    exact ⟨port, scheme, raw, hport, hscheme, hraw, hurl⟩
  · cases hbase

end Accepted

/-! ## When the public URL is admitted -/

/-- Without `PUBLIC_HOST` the server is bound to `127.0.0.1`.  With it, its
host in canonical form is `localhost` or `127.0.0.1`, or it is spelled in that
form and has no port, in `PUBLIC_PORT` or its own, that is the default of the
scheme. -/
def PublicHostListed (crates : Crates) (vars : EnvMap) : Prop :=
  match optional vars "PUBLIC_HOST" with
  | none => parseIp vars = .ok (.v4 127 0 0 1)
  | some host =>
      ∃ named port scheme, crates.authority host = some named ∧
        parsePort vars "PUBLIC_PORT" = .ok port ∧
        parsePublicScheme crates vars port = .ok scheme ∧
        ((normalizeHost (crates.canonicalHost named.host) = "localhost" ∨
            normalizeHost (crates.canonicalHost named.host) = "127.0.0.1") ∨
          normalizeHost named.host = normalizeHost (crates.canonicalHost named.host) ∧
            ∀ pinned ∈ port <|> named.port,
              some pinned ≠ Url.knownDefaultPort scheme)

section Admission

variable {crates : Crates}

theorem portMatches_filter (port : Option ℕ) (keep : ℕ → Bool) :
    portMatches port (port.filter keep) = true ↔ ∀ pinned ∈ port, keep pinned = true := by
  cases port with
  | none => simp [portMatches]
  | some port =>
      cases hkeep : keep port with
      | false => simp [portMatches, Option.filter, hkeep]
      | true => simp [portMatches, Option.filter, hkeep]

theorem Crates.Documented.admits_public
    (hdoc : crates.Documented) {scheme entry : String} {authority : Authority}
    {url : Url} (hscheme : scheme = "http" ∨ scheme = "https")
    (hentry : crates.authority entry = some authority)
    (hurl : crates.url (scheme ++ "://" ++ entry) = some url) (address : SocketAddr) :
    admitsPublicBase crates
        ⟨address, (loopbackHosts ++ [entry]).destutter (· ≠ ·), url⟩ = true ↔
      (normalizeHost (crates.canonicalHost authority.host) = "localhost" ∨
          normalizeHost (crates.canonicalHost authority.host) = "127.0.0.1") ∨
        normalizeHost authority.host =
            normalizeHost (crates.canonicalHost authority.host) ∧
          ∀ pinned ∈ authority.port, some pinned ≠ Url.knownDefaultPort scheme := by
  unfold admitsPublicBase
  simp only [hdoc.parse_hostHeader hscheme hentry hurl]
  rw [hdoc.allowed_public _ hentry, portMatches_filter]
  simp only [decide_eq_true_eq]

theorem Crates.Documented.admits_loopback
    (hdoc : crates.Documented) {host : String} {port : ℕ} {url : Url}
    (hhost : isHost host = true) (hport : port < 65536)
    (hcanonical : crates.canonicalHost host = host)
    (hurl : crates.url ("http://" ++ (host ++ ":" ++ toString port)) = some url)
    (address : SocketAddr) :
    admitsPublicBase crates ⟨address, loopbackHosts, url⟩ = true ↔
      normalizeHost host = "localhost" ∨ normalizeHost host = "127.0.0.1" := by
  have hentry := hdoc.authority_host_port host port hhost hport
  have hheader := hdoc.parse_hostHeader (Or.inl rfl) hentry hurl
  unfold admitsPublicBase
  simp only [hheader]
  rw [hdoc.allowed_loopback, hcanonical]

theorem isHost_displayV4 (a b c d : UInt8) : isHost (IpAddr.displayV4 a b c d) = true := by
  have hchars : ∀ char ∈ (IpAddr.displayV4 a b c d).toList, isNameChar char = true := by
    intro char hchar
    unfold isNameChar
    rcases IpAddr.mem_displayV4 hchar with hdigit | rfl
    · simp [Char.isAlphanum, hdigit]
    · decide
  unfold isHost
  split
  · rename_i rest heq
    have hbracket := hchars '[' (by rw [heq]; exact List.mem_cons_self)
    exact absurd hbracket (by decide)
  · rw [Bool.and_eq_true]
    constructor
    · rw [IpAddr.toList_displayV4]
      simp
    · exact List.all_eq_true.mpr hchars

theorem normalizeHost_displayV4 (a b c d : UInt8) :
    normalizeHost (IpAddr.displayV4 a b c d) = IpAddr.displayV4 a b c d := by
  apply normalizeHost_of_plain
  intro char hchar
  rcases IpAddr.mem_displayV4 hchar with hdigit | rfl
  · refine ⟨?_, ?_, ?_⟩
    · rintro rfl
      revert hdigit
      decide
    · rintro rfl
      revert hdigit
      decide
    · exact RustText.toLower_of_isDigit hdigit
  · decide

theorem Crates.Documented.admits_bind
    (hdoc : crates.Documented) {bound : SocketAddr} {raw : String} {url : Url}
    (hloopback : bound.ip.isLoopback = true) (hport : bound.port < 65536)
    (hraw : publicBaseFromLoopbackBind bound = .ok raw)
    (hurl : crates.url raw = some url) (address : SocketAddr) :
    admitsPublicBase crates ⟨address, loopbackHosts, url⟩ = true ↔
      bound.ip = .v4 127 0 0 1 := by
  unfold publicBaseFromLoopbackBind at hraw
  rw [if_pos hloopback] at hraw
  cases hip : bound.ip with
  | v4 a b c d =>
      simp only [hip, IpAddr.display] at hraw
      cases hraw
      rw [hdoc.admits_loopback (isHost_displayV4 a b c d) hport
        (hdoc.canonical_ipv4 a b c d) hurl, normalizeHost_displayV4]
      constructor
      · rintro (hname | haddress)
        · have hl : 'l' ∈ (IpAddr.displayV4 a b c d).toList := by
            rw [hname]
            decide
          rcases IpAddr.mem_displayV4 hl with hdigit | hdot
          · exact absurd hdigit (by decide)
          · exact absurd hdot (by decide)
        · have hsame : IpAddr.displayV4 a b c d = IpAddr.displayV4 127 0 0 1 := by
            rw [haddress]
            decide
          obtain ⟨rfl, rfl, rfl, rfl⟩ := IpAddr.displayV4_injective hsame
          rfl
      · rintro ⟨rfl, rfl, rfl, rfl⟩
        exact Or.inr (by decide)
  | v6 segments =>
      have hone : segments = ![0, 0, 0, 0, 0, 0, 0, 1] := by
        rw [hip] at hloopback
        exact of_decide_eq_true hloopback
      subst hone
      simp only [hip, IpAddr.display_loopbackV6] at hraw
      cases hraw
      have hbracketed : "[" ++ "::1" ++ "]" = "[::1]" := by decide
      rw [hbracketed] at hurl
      rw [hdoc.admits_loopback (by decide) hport hdoc.canonical_ipv6_loopback hurl]
      have hnormal : normalizeHost "[::1]" = "::1" := by decide
      rw [hnormal]
      simp

theorem Crates.Documented.authority_publicEntry
    (hdoc : crates.Documented) {scheme host : String} {port : Option ℕ}
    {named : Authority} {url : Url} (hscheme : scheme = "http" ∨ scheme = "https")
    (hnamed : crates.authority host = some named)
    (hurl : crates.url (scheme ++ "://" ++ publicEntry host port) = some url) :
    crates.authority (publicEntry host port) =
      some ⟨named.host, port <|> named.port⟩ := by
  cases port with
  | none => exact hnamed
  | some port => exact hdoc.url_port scheme host named port url hscheme hnamed hurl

/-- The derived allowlist admits the public URL that is derived from the same
variables exactly when it names its host and port as the URL does. -/
theorem admitsPublicBase_iff
    (hdoc : crates.Documented) {vars : EnvMap} {bound : SocketAddr}
    {config : HttpConfig}
    (hunset : optional vars allowedHostsVar = none)
    (hbind : parseBind vars = .ok bound)
    (hhosts : parseAllowedHosts crates vars bound = .ok config.allowedHosts)
    (hbase : parsePublicBase crates vars bound = .ok config.publicBase) :
    admitsPublicBase crates config = true ↔ PublicHostListed crates vars := by
  obtain ⟨hip, hserverPort⟩ := parseBind_ok hbind
  obtain ⟨port, scheme, raw, hport, hscheme, hraw, hurl⟩ := parsePublicBase_ok hbase
  have hknown := parsePublicScheme_ok hscheme
  obtain ⟨address, hosts, url⟩ := config
  unfold PublicHostListed
  cases hhost : optional vars "PUBLIC_HOST" with
  | none =>
      obtain ⟨-, hloopback, rfl⟩ := parseAllowedHosts_loopback hunset hhost hhosts
      rw [hhost] at hraw
      rw [hdoc.admits_bind hloopback hserverPort hraw hurl, hip]
      exact Except.ok.injEq .. ▸ Iff.rfl
  | some host =>
      obtain ⟨port', named, hport', hnamed, rfl⟩ :=
        parseAllowedHosts_public hunset hhost hhosts
      rw [hport] at hport'
      cases hport'
      rw [hhost] at hraw
      cases hraw
      have hentry := hdoc.authority_publicEntry hknown hnamed hurl
      rw [hdoc.admits_public hknown hentry hurl]
      constructor
      · intro hadmitted
        exact ⟨named, port, scheme, hnamed, hport, hscheme, hadmitted⟩
      · rintro ⟨named', port', scheme', hnamed', hport', hscheme', hlisted⟩
        rw [hnamed] at hnamed'
        cases hnamed'
        rw [hport] at hport'
        cases hport'
        rw [hscheme] at hscheme'
        cases hscheme'
        exact hlisted

end Admission

/-! ## An instance of the crates -/

namespace Sample

/-- The host at the start of an authority without user information, and what
follows it. -/
def cut : List Char → List Char × List Char
  | '[' :: rest =>
      match rest.dropWhile (· != ']') with
      | ']' :: after => ('[' :: (rest.takeWhile (· != ']') ++ [']']), after)
      | _ => ('[' :: rest, [])
  | text => (text.takeWhile (· != ':'), text.dropWhile (· != ':'))

def authorityOf (text : List Char) : Option Authority :=
  if isHost (String.ofList (cut text).1) then
    match (cut text).2 with
    | [] => some ⟨String.ofList (cut text).1, none⟩
    | ':' :: port =>
        (RustText.parseUnsigned 65536 port).map fun port =>
          ⟨String.ofList (cut text).1, some port⟩
    | _ => none
  else none

def authority (text : String) : Option Authority := authorityOf text.toList

def splitScheme (text : List Char) : Option (String × List Char) :=
  if "http://".toList.isPrefixOf text then some ("http", text.drop 7)
  else if "https://".toList.isPrefixOf text then some ("https", text.drop 8)
  else none

def urlOf (scheme : String) (authority : Authority) : Url where
  scheme := scheme
  username := ""
  password := none
  host := some authority.host
  port := authority.port.filter fun port => some port ≠ Url.knownDefaultPort scheme
  path := "/"
  query := none
  fragment := none

def crates : Crates where
  authority := authority
  url text := (splitScheme text.toList).bind fun (scheme, entry) =>
    (authorityOf entry).map (urlOf scheme)
  canonicalHost host := host
  debug text := text

theorem crates_authority : crates.authority = authority := rfl

theorem crates_canonicalHost (host : String) : crates.canonicalHost host = host := rfl

theorem cut_bracketed {inner rest : List Char} (hinner : ']' ∉ inner) :
    cut ('[' :: (inner ++ ']' :: rest)) = ('[' :: (inner ++ [']']), rest) := by
  have hne : ∀ c ∈ inner, (c != ']') = true := by
    intro c hc
    rw [bne_iff_ne]
    rintro rfl
    exact hinner hc
  simp [cut, List.dropWhile_append_of_pos hne, List.takeWhile_append_of_pos hne]

theorem cut_name {host rest : List Char} (hnonempty : host ≠ [])
    (hbracket : '[' ∉ host) (hcolon : ':' ∉ host)
    (hrest : rest = [] ∨ ∃ after, rest = ':' :: after) :
    cut (host ++ rest) = (host, rest) := by
  have hne : ∀ c ∈ host, (c != ':') = true := by
    intro c hc
    rw [bne_iff_ne]
    rintro rfl
    exact hcolon hc
  have hother : cut (host ++ rest) = ((host ++ rest).takeWhile (· != ':'),
      (host ++ rest).dropWhile (· != ':')) := by
    cases host with
    | nil => exact absurd rfl hnonempty
    | cons c cs =>
        have hc : c ≠ '[' := by
          rintro rfl
          exact hbracket List.mem_cons_self
        unfold cut
        split
        · rename_i heq
          exact absurd (List.cons.inj heq).1 hc
        · rfl
  rw [hother, List.takeWhile_append_of_pos hne, List.dropWhile_append_of_pos hne]
  rcases hrest with rfl | ⟨after, rfl⟩
  · simp
  · simp

theorem cut_append (host rest : List Char) (hhost : isHost (String.ofList host) = true)
    (hrest : rest = [] ∨ ∃ after, rest = ':' :: after) :
    cut (host ++ rest) = (host, rest) := by
  unfold isHost at hhost
  rw [String.toList_ofList] at hhost
  split at hhost
  · rename_i body
    simp only [Bool.and_eq_true, beq_iff_eq, List.all_eq_true] at hhost
    obtain ⟨⟨hlast, hinner⟩, -⟩ := hhost
    have hbody : body.dropLast ++ [']'] = body := by
      obtain ⟨init, hinit⟩ := List.getLast?_eq_some_iff.mp hlast
      rw [hinit, List.dropLast_concat]
    have hclosing : ']' ∉ body.dropLast := by
      intro hmem
      exact absurd (hinner _ hmem) (by decide)
    rw [← hbody, List.cons_append, List.append_assoc]
    exact cut_bracketed hclosing
  · rename_i text hother
    simp only [Bool.and_eq_true, Bool.not_eq_true', List.isEmpty_eq_false_iff,
      List.all_eq_true] at hhost
    obtain ⟨hnonempty, hchars⟩ := hhost
    refine cut_name hnonempty ?_ ?_ hrest
    · intro hmem
      exact absurd (hchars _ hmem) (by decide)
    · intro hmem
      exact absurd (hchars _ hmem) (by decide)

theorem cut_eq_append (text : List Char) : (cut text).1 ++ (cut text).2 = text := by
  unfold cut
  split
  · rename_i rest
    split
    · rename_i after hdrop
      have hsplit := List.takeWhile_append_dropWhile (p := (· != ']')) (l := rest)
      rw [hdrop] at hsplit
      simp only [List.cons_append, List.append_assoc, List.nil_append]
      rw [hsplit]
    · simp
  · exact List.takeWhile_append_dropWhile

theorem authorityOf_eq_some {text : List Char} {authority : Authority}
    (hauthority : authorityOf text = some authority) :
    isHost authority.host = true ∧
      ((text = authority.host.toList ∧ authority.port = none) ∨
        ∃ digits port, text = authority.host.toList ++ ':' :: digits ∧
          RustText.parseUnsigned 65536 digits = some port ∧
          authority.port = some port) := by
  have htext := cut_eq_append text
  unfold authorityOf at hauthority
  split at hauthority
  · rename_i hhost
    split at hauthority
    · rename_i hnil
      rw [hnil, List.append_nil] at htext
      cases hauthority
      refine ⟨hhost, Or.inl ⟨?_, rfl⟩⟩
      rw [String.toList_ofList, htext]
    · rename_i digits hdigits
      rw [hdigits] at htext
      obtain ⟨port, hport, rfl⟩ := Option.map_eq_some_iff.mp hauthority
      refine ⟨hhost, Or.inr ⟨digits, port, ?_, hport, rfl⟩⟩
      rw [String.toList_ofList, htext]
    · cases hauthority
  · cases hauthority

theorem authorityOf_host {host : String} (hhost : isHost host = true) :
    authorityOf host.toList = some ⟨host, none⟩ := by
  have hcut := cut_append host.toList []
    (by rw [String.ofList_toList, hhost]) (Or.inl rfl)
  rw [List.append_nil] at hcut
  simp [authorityOf, hcut, hhost]

theorem authorityOf_port {host : String} (hhost : isHost host = true)
    (digits : List Char) :
    authorityOf (host.toList ++ ':' :: digits) =
      (RustText.parseUnsigned 65536 digits).map fun port => ⟨host, some port⟩ := by
  have hcut := cut_append host.toList (':' :: digits)
    (by rw [String.ofList_toList, hhost]) (Or.inr ⟨digits, rfl⟩)
  simp [authorityOf, hcut, hhost]

theorem toList_hostPort (host : String) (port : ℕ) :
    (host ++ ":" ++ toString port).toList =
      host.toList ++ ':' :: (toString port).toList := by
  rw [String.toList_append, String.toList_append, List.append_assoc]
  rfl

theorem authority_host_port {host : String} {port : ℕ} (hhost : isHost host = true)
    (hport : port < 65536) :
    authority (host ++ ":" ++ toString port) = some ⟨host, some port⟩ := by
  rw [authority, toList_hostPort, authorityOf_port hhost, RustText.parseUnsigned_toString,
    if_pos hport, Option.map_some]

theorem mem_of_isHost {host : String} (hhost : isHost host = true) {c : Char}
    (hc : c ∈ host.toList) : isNameChar c = true ∨ c = ':' ∨ c = '[' ∨ c = ']' := by
  unfold isHost at hhost
  split at hhost
  · rename_i body heq
    simp only [Bool.and_eq_true, beq_iff_eq, List.all_eq_true] at hhost
    obtain ⟨⟨hlast, hinner⟩, -⟩ := hhost
    obtain ⟨init, hinit⟩ := List.getLast?_eq_some_iff.mp hlast
    rw [hinit, List.dropLast_concat] at hinner
    rw [heq, hinit] at hc
    rcases List.mem_cons.mp hc with rfl | hbody
    · exact Or.inr (Or.inr (Or.inl rfl))
    · rcases List.mem_append.mp hbody with hmem | hmem
      · have hbracketed := hinner c hmem
        simp only [isBracketedChar, Bool.or_eq_true, beq_iff_eq] at hbracketed
        rcases hbracketed with (halnum | rfl) | rfl
        · exact Or.inl (by simp [isNameChar, halnum])
        · exact Or.inr (Or.inl rfl)
        · exact Or.inl (by decide)
      · exact Or.inr (Or.inr (Or.inr (List.mem_singleton.mp hmem)))
  · simp only [Bool.and_eq_true, List.all_eq_true] at hhost
    exact Or.inl (hhost.2 c hc)

theorem isWhitespace_of_isNameChar {c : Char} (hname : isNameChar c = true) :
    RustText.isWhitespace c = false := by
  have hgraphic : 32 < c.toNat ∧ c.toNat < 127 := by
    unfold isNameChar at hname
    rcases Bool.or_eq_true_iff.mp hname with halnum | hsymbol
    · exact RustText.graphic_of_isAlphanum halnum
    · have hall : ("-._~!$&'()*+,;=".toList.all
          fun c => decide (32 < c.toNat ∧ c.toNat < 127)) = true := by decide
      exact of_decide_eq_true
        (List.all_eq_true.mp hall c (List.contains_iff_mem.mp hsymbol))
  exact RustText.isWhitespace_of_graphic hgraphic.1 hgraphic.2

theorem isWhitespace_of_isHost {host : String} (hhost : isHost host = true) {c : Char}
    (hc : c ∈ host.toList) : RustText.isWhitespace c = false := by
  rcases mem_of_isHost hhost hc with hname | rfl | rfl | rfl
  · exact isWhitespace_of_isNameChar hname
  · decide
  · decide
  · decide

theorem authority_visible {text : String} {found : Authority}
    (hfound : authority text = some found) :
    ∀ c ∈ text.toList, RustText.isWhitespace c = false := by
  intro c hc
  obtain ⟨hhost, ⟨htext, -⟩ | ⟨digits, port, htext, hport, -⟩⟩ :=
    authorityOf_eq_some hfound
  · rw [htext] at hc
    exact isWhitespace_of_isHost hhost hc
  · rw [htext] at hc
    rcases List.mem_append.mp hc with hname | hrest
    · exact isWhitespace_of_isHost hhost hname
    · rcases List.mem_cons.mp hrest with rfl | hdigit
      · decide
      · rcases RustText.mem_of_parseUnsigned hport hdigit with hnumber | rfl
        · exact isWhitespace_of_isNameChar (by simp [isNameChar, Char.isAlphanum, hnumber])
        · decide

theorem colon_notMem_port {digits : List Char} {port : ℕ}
    (hport : RustText.parseUnsigned 65536 digits = some port) : ':' ∉ digits := by
  intro hcolon
  rcases RustText.mem_of_parseUnsigned hport hcolon with hdigit | hplus
  · exact absurd hdigit (by decide)
  · exact absurd hplus (by decide)

theorem authority_colons {text : String} (hbracket : '[' ∉ text.toList)
    (hcolons : 1 < text.toList.count ':') : authority text = none := by
  by_contra hsome
  obtain ⟨found, hfound⟩ := Option.ne_none_iff_exists'.mp hsome
  obtain ⟨hhost, hform⟩ := authorityOf_eq_some hfound
  have hname : '[' ∉ found.host.toList → ':' ∉ found.host.toList := by
    intro hopen hcolon
    unfold isHost at hhost
    split at hhost
    · rename_i body heq
      rw [heq] at hopen
      exact hopen List.mem_cons_self
    · simp only [Bool.and_eq_true, List.all_eq_true] at hhost
      exact absurd (hhost.2 _ hcolon) (by decide)
  rcases hform with ⟨htext, -⟩ | ⟨digits, port, htext, hport, -⟩
  · rw [htext] at hbracket hcolons
    rw [List.count_eq_zero_of_not_mem (hname hbracket)] at hcolons
    omega
  · rw [htext] at hbracket hcolons
    have hopen : '[' ∉ found.host.toList := fun hmem =>
      hbracket (List.mem_append_left _ hmem)
    rw [List.count_append, List.count_cons_self,
      List.count_eq_zero_of_not_mem (hname hopen),
      List.count_eq_zero_of_not_mem (colon_notMem_port hport)] at hcolons
    omega

theorem url_eq {scheme : String} (hscheme : scheme = "http" ∨ scheme = "https")
    (entry : String) :
    crates.url (scheme ++ "://" ++ entry) = (authority entry).map (urlOf scheme) := by
  have hhttp : ("http" ++ "://" ++ entry).toList = "http://".toList ++ entry.toList := by
    rw [String.toList_append]
    rfl
  have hhttps :
      ("https" ++ "://" ++ entry).toList = "https://".toList ++ entry.toList := by
    rw [String.toList_append]
    rfl
  rcases hscheme with rfl | rfl
  · simp only [crates, hhttp, authority]
    rfl
  · simp only [crates, hhttps, authority]
    rfl

theorem authority_of_port {host : String} {named found : Authority} {port : ℕ}
    (hnamed : authority host = some named)
    (hfound : authority (host ++ ":" ++ toString port) = some found) :
    authority (host ++ ":" ++ toString port) = some ⟨named.host, some port⟩ := by
  obtain ⟨hhost, ⟨hplain, -⟩ | ⟨digits, own, hown, hparsed, -⟩⟩ :=
    authorityOf_eq_some hnamed
  · have hsame : host = named.host := String.toList_inj.mp hplain
    rw [authority, toList_hostPort, hsame, authorityOf_port hhost] at hfound
    obtain ⟨value, hvalue, -⟩ := Option.map_eq_some_iff.mp hfound
    rw [RustText.parseUnsigned_toString, Option.ite_none_right_eq_some] at hvalue
    rw [hsame]
    exact authority_host_port hhost hvalue.1
  · rw [authority, toList_hostPort, hown, List.append_assoc, List.cons_append,
      authorityOf_port hhost] at hfound
    obtain ⟨value, hvalue, -⟩ := Option.map_eq_some_iff.mp hfound
    exact absurd (List.mem_append_right _ List.mem_cons_self) (colon_notMem_port hvalue)

theorem crates_documented : crates.Documented where
  authority_visible text found hfound := by
    rw [crates_authority] at hfound
    exact authority_visible hfound
  authority_colons text hbracket _ hcolons := by
    rw [crates_authority]
    exact authority_colons hbracket hcolons
  authority_port_lt text found hfound := by
    intro port hport
    rw [crates_authority, authority] at hfound
    obtain ⟨-, ⟨-, hnone⟩ | ⟨digits, own, -, hparsed, hsome⟩⟩ :=
      authorityOf_eq_some hfound
    · rw [hnone] at hport
      cases hport
    · rw [hsome] at hport
      cases hport
      exact RustText.parseUnsigned_lt hparsed
  authority_host host hhost := by
    rw [crates_authority, authority]
    exact authorityOf_host hhost
  authority_host_port host port hhost hport := by
    rw [crates_authority]
    exact authority_host_port hhost hport
  url_parts scheme entry found url hscheme hfound hurl := by
    rw [crates_authority] at hfound
    rw [url_eq hscheme, hfound] at hurl
    cases hurl
    exact ⟨rfl, rfl, rfl⟩
  url_host scheme entry found url hscheme hfound hurl := by
    rw [crates_authority, authority] at hfound
    rw [crates_canonicalHost]
    exact (authorityOf_eq_some hfound).1
  url_port scheme host named port url hscheme hnamed hurl := by
    rw [url_eq hscheme] at hurl
    obtain ⟨found, hfound, -⟩ := Option.map_eq_some_iff.mp hurl
    rw [crates_authority] at hnamed ⊢
    exact authority_of_port hnamed hfound
  canonical_ipv4 a b c d := crates_canonicalHost _
  canonical_ipv6_loopback := crates_canonicalHost _

def env (pairs : List (String × String)) : EnvMap := fun var => pairs.lookup var

end Sample

end Config

end RuprogressMcp
