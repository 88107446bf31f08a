import RuprogressMcp.ProxyRedirect
import RuprogressMcp.RustText

/-!
# Redirect patterns as they are written

`RedirectPattern::parse` cuts a pattern into scheme, host, port and path by
hand, while a candidate goes through the URL parser.  A candidate that some
pattern admits agrees with the text of that pattern part by part.
-/

namespace RuprogressMcp

inductive PatternError where
  | noScheme (raw : String)
  | badScheme (scheme : String)
  | userinfo (raw : String)
  | query (raw : String)
  | fragment (raw : String)
  | noHost (raw : String)
  | wildcardHost (raw : String)
  | invalidPort (raw digits : String)
deriving DecidableEq, Repr

/-- The message of an error; the quoting of `{:?}` is a parameter. -/
def PatternError.message (quote : String → String) : PatternError → String
  | .noScheme raw => quote raw ++ " has no \"scheme://\" prefix"
  | .badScheme scheme =>
      "scheme " ++ quote scheme ++ " must be \"http\" or \"https\""
  | .userinfo raw => quote raw ++ " contains userinfo, which a pattern may not"
  | .query raw =>
      quote raw ++ " contains a query string, which a pattern may not"
  | .fragment raw =>
      quote raw ++ " contains a fragment, which a pattern may not"
  | .noHost raw => quote raw ++ " has no host"
  | .wildcardHost raw => quote raw ++
      " has a wildcard host that is not a single leading \"*.\" label"
  | .invalidPort raw digits =>
      quote raw ++ " has an invalid port " ++ quote digits

def defaultPort (scheme : List Char) : ℕ :=
  if scheme = "https".toList then 443 else 80

def parseHost (raw : String) (hostPart : List Char) :
    Except PatternError HostMatch :=
  match hostPart with
  | '*' :: '.' :: label =>
      if label = [] ∨ '*' ∈ label then .error (.wildcardHost raw)
      else .ok (.suffix (toAsciiLowercase (String.ofList label)))
  | _ =>
      if '*' ∈ hostPart then .error (.wildcardHost raw)
      else .ok (.exact (toAsciiLowercase (String.ofList hostPart)))

def parsePort (raw : String) (scheme : List Char) :
    Option (List Char) → Except PatternError PortMatch
  | none => .ok (.exact (defaultPort scheme))
  | some digits =>
      if digits = ['*'] then .ok .any
      else
        match RustText.parseUnsigned (2 ^ 16) digits with
        | some port => .ok (.exact port)
        | none => .error (.invalidPort raw (String.ofList digits))

def parsePath (path : List Char) : PathMatch :=
  if path.getLast? = some '*' then .pathPrefix (String.ofList path.dropLast)
  else if path = [] then .pathPrefix ""
  else .exact (String.ofList path)

def splitPath (rest : List Char) : List Char × List Char :=
  match RustText.splitOnce ['/'] rest with
  | some (authority, path) => (authority, '/' :: path)
  | none => (rest, [])

def splitPort (authority : List Char) : List Char × Option (List Char) :=
  match RustText.splitOnce [':'] authority with
  | some (host, port) => (host, some port)
  | none => (authority, none)

def RedirectPattern.parse (raw : String) :
    Except PatternError RedirectPattern :=
  match RustText.splitOnce "://".toList raw.toList with
  | none => .error (.noScheme raw)
  | some (scheme, rest) =>
      if ¬ (scheme = "http".toList ∨ scheme = "https".toList) then
        .error (.badScheme (String.ofList scheme))
      else if '@' ∈ rest then .error (.userinfo raw)
      else if '?' ∈ rest then .error (.query raw)
      else if '#' ∈ rest then .error (.fragment raw)
      else if (splitPath rest).1 = [] then .error (.noHost raw)
      else do
        let host ← parseHost raw (splitPort (splitPath rest).1).1
        let port ← parsePort raw scheme (splitPort (splitPath rest).1).2
        return {
          scheme := String.ofList scheme
          host := host
          port := port
          path := parsePath (splitPath rest).2 }

/-! ## The parts of a pattern -/

structure PatternParts where
  scheme : List Char
  host : List Char
  port : Option (List Char)
  path : List Char

def portText : Option (List Char) → List Char
  | none => []
  | some port => ':' :: port

/-- The pattern is these parts in a row, each ending where the next begins. -/
structure PatternParts.Spell (parts : PatternParts) (raw : String) : Prop where
  text : raw.toList = parts.scheme ++ "://".toList ++ parts.host ++
    portText parts.port ++ parts.path
  scheme : parts.scheme = "http".toList ∨ parts.scheme = "https".toList
  host : ':' ∉ parts.host ∧ '/' ∉ parts.host
  port : ∀ port ∈ parts.port, '/' ∉ port
  path : parts.path = [] ∨ parts.path.head? = some '/'

/-- A URL and its host agree with the parts. -/
structure PatternParts.Cover (parts : PatternParts) (url : Url)
    (host : String) : Prop where
  scheme : url.scheme = String.ofList parts.scheme
  host : parts.host.map Char.toLower = host.toList ∨
    ∃ suffix, parts.host = '*' :: '.' :: suffix ∧
      '.' :: suffix.map Char.toLower <:+ host.toList
  port : parts.port = some ['*'] ∨
    (∃ digits port, parts.port = some digits ∧
      RustText.parseUnsigned (2 ^ 16) digits = some port ∧
      url.portOrKnownDefault = some port) ∨
    (parts.port = none ∧
      url.portOrKnownDefault = Url.knownDefaultPort url.scheme)
  path : parts.path = [] ∨ parts.path = url.path.toList ∨
    ∃ rest, parts.path = rest ++ ['*'] ∧ rest <+: url.path.toList

theorem splitPath_spec (rest : List Char) :
    rest = (splitPath rest).1 ++ (splitPath rest).2 ∧
      '/' ∉ (splitPath rest).1 ∧
      ((splitPath rest).2 = [] ∨ (splitPath rest).2.head? = some '/') := by
  unfold splitPath
  cases hsplit : RustText.splitOnce ['/'] rest with
  | none =>
      exact ⟨(List.append_nil rest).symm,
        RustText.splitOnce_char_none hsplit, Or.inl rfl⟩
  | some parts =>
      refine ⟨?_, RustText.splitOnce_char_before hsplit, Or.inr rfl⟩
      have htext := RustText.splitOnce_eq hsplit
      rw [List.append_assoc] at htext
      exact htext

theorem splitPort_spec (authority : List Char) :
    authority = (splitPort authority).1 ++ portText (splitPort authority).2 ∧
      ':' ∉ (splitPort authority).1 := by
  unfold splitPort
  cases hsplit : RustText.splitOnce [':'] authority with
  | none =>
      exact ⟨(List.append_nil authority).symm,
        RustText.splitOnce_char_none hsplit⟩
  | some parts =>
      refine ⟨?_, RustText.splitOnce_char_before hsplit⟩
      have htext := RustText.splitOnce_eq hsplit
      rw [List.append_assoc] at htext
      exact htext

/-- What an accepted pattern was parsed from. -/
theorem RedirectPattern.parse_spec
    {raw : String} {pattern : RedirectPattern}
    (hparse : RedirectPattern.parse raw = .ok pattern) :
    ∃ parts : PatternParts, parts.Spell raw ∧
      pattern.scheme = String.ofList parts.scheme ∧
      parseHost raw parts.host = .ok pattern.host ∧
      parsePort raw parts.scheme parts.port = .ok pattern.port ∧
      pattern.path = parsePath parts.path := by
  unfold RedirectPattern.parse at hparse
  split at hparse
  next => cases hparse
  next scheme rest hsplit =>
    split_ifs at hparse with hscheme huserinfo hquery hfragment hhost
    obtain ⟨host, hhostOk, hparse⟩ := RustText.question_mark_ok hparse
    obtain ⟨port, hportOk, hparse⟩ := RustText.question_mark_ok hparse
    cases hparse
    obtain ⟨hpathText, hnoSlash, hpathStart⟩ := splitPath_spec rest
    obtain ⟨hportText, hnoColon⟩ := splitPort_spec (splitPath rest).1
    have hauthority : ∀ c ∈ (splitPort (splitPath rest).1).1 ++
        portText (splitPort (splitPath rest).1).2, c ≠ '/' := by
      rw [← hportText]
      rintro c hmem rfl
      exact hnoSlash hmem
    refine ⟨⟨scheme, (splitPort (splitPath rest).1).1,
      (splitPort (splitPath rest).1).2, (splitPath rest).2⟩,
      ⟨?_, ?_, ⟨hnoColon, ?_⟩, ?_, hpathStart⟩, rfl, hhostOk, hportOk, rfl⟩
    · simp only
      rw [List.append_assoc, List.append_assoc, ← List.append_assoc
        (splitPort (splitPath rest).1).1, ← hportText, ← hpathText]
      exact RustText.splitOnce_eq hsplit
    · exact hscheme
    · intro hmem
      exact hauthority '/' (List.mem_append_left _ hmem) rfl
    · intro port hport hmem
      apply hauthority '/' (List.mem_append_right _ ?_) rfl
      have hpart : (splitPort (splitPath rest).1).2 = some port := hport
      rw [hpart]
      exact List.mem_cons_of_mem _ hmem

/-! ## Agreement part by part -/

theorem toList_toAsciiLowercase (text : String) :
    (toAsciiLowercase text).toList = text.toList.map Char.toLower := by
  rw [toAsciiLowercase, String.toList_ofList]

theorem dot_suffix_of_accepts {host suffix : String}
    (haccepts : (HostMatch.suffix suffix).accepts host = true) :
    '.' :: suffix.toList <:+ host.toList := by
  simp only [HostMatch.accepts, Bool.and_eq_true, beq_iff_eq,
    List.isSuffixOf_iff_suffix] at haccepts
  obtain ⟨⟨before, hhost⟩, hlast⟩ := haccepts
  have hbefore : host.toList.take (host.length - suffix.length) = before := by
    rw [← String.length_toList, ← String.length_toList, ← hhost,
      List.length_append, Nat.add_sub_cancel, List.take_left]
  rw [hbefore] at hlast
  obtain ⟨rest, rfl⟩ := List.getLast?_eq_some_iff.mp hlast
  refine ⟨rest, ?_⟩
  rw [← hhost, List.append_assoc]
  rfl

theorem host_cover
    {raw host : String} {hostPart : List Char} {hostMatch : HostMatch}
    (hparse : parseHost raw hostPart = .ok hostMatch)
    (haccepts : hostMatch.accepts host = true) :
    hostPart.map Char.toLower = host.toList ∨
      ∃ suffix, hostPart = '*' :: '.' :: suffix ∧
        '.' :: suffix.map Char.toLower <:+ host.toList := by
  unfold parseHost at hparse
  split at hparse
  next label =>
    split_ifs at hparse
    cases hparse
    right
    refine ⟨label, rfl, ?_⟩
    have hsuffix := dot_suffix_of_accepts haccepts
    rw [toList_toAsciiLowercase, String.toList_ofList] at hsuffix
    exact hsuffix
  next =>
    split_ifs at hparse
    cases hparse
    left
    rw [eq_of_beq haccepts, toList_toAsciiLowercase, String.toList_ofList]

theorem knownDefaultPort_of_scheme {scheme : List Char}
    (hscheme : scheme = "http".toList ∨ scheme = "https".toList) :
    Url.knownDefaultPort (String.ofList scheme) = some (defaultPort scheme) := by
  rcases hscheme with rfl | rfl <;> decide

theorem port_cover
    {raw : String} {scheme : List Char} {port : Option (List Char)}
    {portMatch : PortMatch} {url : Url}
    (hscheme : scheme = "http".toList ∨ scheme = "https".toList)
    (hsame : url.scheme = String.ofList scheme)
    (hparse : parsePort raw scheme port = .ok portMatch)
    (haccepts : portMatch.accepts url.portOrKnownDefault = true) :
    port = some ['*'] ∨
      (∃ digits number, port = some digits ∧
        RustText.parseUnsigned (2 ^ 16) digits = some number ∧
        url.portOrKnownDefault = some number) ∨
      (port = none ∧
        url.portOrKnownDefault = Url.knownDefaultPort url.scheme) := by
  cases port with
  | none =>
      cases hparse
      refine Or.inr (Or.inr ⟨rfl, ?_⟩)
      rw [hsame, knownDefaultPort_of_scheme hscheme]
      exact eq_of_beq haccepts
  | some digits =>
      rw [parsePort] at hparse
      split at hparse
      next hany =>
        rw [hany]
        exact Or.inl rfl
      next =>
        split at hparse
        next number hnumber =>
          cases hparse
          exact Or.inr (Or.inl ⟨digits, number, rfl, hnumber,
            eq_of_beq haccepts⟩)
        next => cases hparse

theorem path_cover {path : List Char} {url : Url}
    (haccepts : (parsePath path).accepts url.path = true) :
    path = [] ∨ path = url.path.toList ∨
      ∃ rest, path = rest ++ ['*'] ∧ rest <+: url.path.toList := by
  unfold parsePath at haccepts
  split at haccepts
  next hstar =>
    obtain ⟨rest, rfl⟩ := List.getLast?_eq_some_iff.mp hstar
    refine Or.inr (Or.inr ⟨rest, rfl, ?_⟩)
    simpa [PathMatch.accepts] using haccepts
  next =>
    split at haccepts
    next hempty => exact Or.inl hempty
    next =>
      have heq : url.path = String.ofList path := eq_of_beq haccepts
      rw [heq, String.toList_ofList]
      exact Or.inr (Or.inl rfl)

theorem cover_of_matches
    {raw : String} {pattern : RedirectPattern} {url : Url} {host : String}
    (hparse : RedirectPattern.parse raw = .ok pattern)
    (hhost : url.host = some host) (hlower : toAsciiLowercase host = host)
    (hmatches : pattern.matches url = true) :
    ∃ parts : PatternParts, parts.Spell raw ∧ parts.Cover url host := by
  obtain ⟨parts, hspell, hscheme, hhostParse, hportParse, hpath⟩ :=
    RedirectPattern.parse_spec hparse
  simp only [RedirectPattern.matches, hhost, hlower, Bool.and_eq_true,
    beq_iff_eq] at hmatches
  obtain ⟨hsame, ⟨hhostOk, hportOk⟩, hpathOk⟩ := hmatches
  rw [hscheme] at hsame
  rw [hpath] at hpathOk
  exact ⟨parts, hspell, hsame, host_cover hhostParse hhostOk,
    port_cover hspell.scheme hsame hportParse hportOk, path_cover hpathOk⟩

/-! ## The policy -/

/-- What the floor demands of a URL with a host. -/
structure PassesFloor (url : Url) (host : String) : Prop where
  scheme : url.scheme = "http" ∨ url.scheme = "https"
  username : url.username = ""
  password : url.password = none
  fragment : url.fragment = none
  hostStr : url.host = some host
  loopback : url.scheme = "http" → isLoopbackHost host = true

theorem validateFloor_spec
    {parseUrl : String → Option Url} {candidate : String} {url : Url}
    (hfloor : validateFloor parseUrl candidate = some url) :
    parseUrl candidate = some url ∧ ∃ host, PassesFloor url host := by
  simp only [validateFloor, Option.bind_eq_bind, Option.bind_eq_some_iff,
    Option.guard_eq_some', Option.pure_def, Option.some.injEq,
    exists_const] at hfloor
  obtain ⟨parsed, hparsed, hscheme, ⟨husername, hpassword⟩, hfragment, host,
    hhost, hloopback, rfl⟩ := hfloor
  refine ⟨hparsed, host, hscheme, husername, hpassword, hfragment, hhost, ?_⟩
  intro hhttp
  exact hloopback.resolve_left fun hne => hne hhttp

theorem exists_raw_of_mapM
    {raws : List String} {patterns : List RedirectPattern}
    (hparse : raws.mapM RedirectPattern.parse = .ok patterns)
    {pattern : RedirectPattern} (hmem : pattern ∈ patterns) :
    ∃ raw ∈ raws, RedirectPattern.parse raw = .ok pattern := by
  induction raws generalizing patterns with
  | nil =>
      cases hparse
      cases hmem
  | cons raw raws ih =>
      rw [List.mapM_cons] at hparse
      obtain ⟨first, hfirst, hparse⟩ := RustText.question_mark_ok hparse
      obtain ⟨rest, hrest, hparse⟩ := RustText.question_mark_ok hparse
      cases hparse
      rcases List.mem_cons.mp hmem with rfl | hmem
      · exact ⟨raw, List.mem_cons_self, hfirst⟩
      · obtain ⟨other, hother, hparsed⟩ := ih hrest hmem
        exact ⟨other, List.mem_cons_of_mem _ hother, hparsed⟩

/-- A candidate that patterns permit passes the floor and agrees with the
text of one of them; and no policy permits what the policy `*` does not.  The
URL parser writes hosts in lower case. -/
theorem permits_agrees_with_raw_pattern
    (parseUrl : String → Option Url)
    (hlower : ∀ candidate url host, parseUrl candidate = some url →
      PassesFloor url host → toAsciiLowercase host = host) :
    (∀ (raws : List String) (patterns : List RedirectPattern)
        (candidate : String),
      raws.mapM RedirectPattern.parse = .ok patterns →
      (RedirectPolicy.patterns patterns).permits parseUrl candidate = true →
      ∃ url host, parseUrl candidate = some url ∧ PassesFloor url host ∧
        ∃ raw ∈ raws, ∃ parts : PatternParts,
          parts.Spell raw ∧ parts.Cover url host) ∧
    ∀ (policy : RedirectPolicy) (candidate : String),
      policy.permits parseUrl candidate = true →
        RedirectPolicy.any.permits parseUrl candidate = true := by
  constructor
  · intro raws patterns candidate hparse hpermits
    unfold RedirectPolicy.permits at hpermits
    cases hfloor : validateFloor parseUrl candidate with
    | none =>
        rw [hfloor] at hpermits
        cases hpermits
    | some url =>
        rw [hfloor] at hpermits
        obtain ⟨hurl, host, hpasses⟩ := validateFloor_spec hfloor
        obtain ⟨pattern, hmem, hmatches⟩ := List.any_eq_true.mp hpermits
        obtain ⟨raw, hraw, hparsed⟩ := exists_raw_of_mapM hparse hmem
        exact ⟨url, host, hurl, hpasses, raw, hraw,
          cover_of_matches hparsed hpasses.hostStr
            (hlower candidate url host hurl hpasses) hmatches⟩
  · intro policy candidate hpermits
    unfold RedirectPolicy.permits at hpermits ⊢
    cases hfloor : validateFloor parseUrl candidate with
    | none =>
        rw [hfloor] at hpermits
        cases hpermits
    | some url => rfl

namespace Sample

def callbackUrl : Url where
  scheme := "https"
  username := ""
  password := none
  host := some "app.example.com"
  port := none
  path := "/callback/done"
  query := none
  fragment := none

def parseCallback (raw : String) : Option Url :=
  if raw = "https://app.example.com/callback/done" then some callbackUrl
  else none

def callbackPattern : RedirectPattern where
  scheme := "https"
  host := .suffix "example.com"
  port := .exact 443
  path := .pathPrefix "/callback/"

theorem callback_agrees_with_pattern :
    ["https://*.Example.com/callback/*"].mapM RedirectPattern.parse =
        .ok [callbackPattern] ∧
      ∃ parts : PatternParts,
        parts.Spell "https://*.Example.com/callback/*" ∧
          parts.Cover callbackUrl "app.example.com" := by
  have hparse : ["https://*.Example.com/callback/*"].mapM
      RedirectPattern.parse = .ok [callbackPattern] := by
    decide +kernel
  refine ⟨hparse, ?_⟩
  obtain ⟨url, host, hurl, hpasses, raw, hraw, parts, hspell, hcover⟩ :=
    (permits_agrees_with_raw_pattern parseCallback (by
      intro candidate url host hurl hpasses
      unfold parseCallback at hurl
      split at hurl
      · cases hurl
        cases hpasses.hostStr
        decide
      · cases hurl)).1 _ _ "https://app.example.com/callback/done" hparse
        (by decide +kernel)
  rw [List.mem_singleton.mp hraw] at hspell
  cases hurl
  cases hpasses.hostStr
  exact ⟨parts, hspell, hcover⟩

end Sample

end RuprogressMcp
