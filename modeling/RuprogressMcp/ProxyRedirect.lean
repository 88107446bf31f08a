import RuprogressMcp.RustText
import RuprogressMcp.UrlRecord

/-!
# Redirect-URI policy

The policy of `oauth/proxy/redirect.rs`: an unconditional floor that every
candidate must pass, and patterns compared component by component.  Parsing a
candidate into a URL is a parameter.
-/

namespace RuprogressMcp

inductive HostMatch
  | exact (host : String)
  | suffix (host : String)
deriving DecidableEq

inductive PortMatch
  | any
  | exact (port : ℕ)
deriving DecidableEq

inductive PathMatch
  | exact (path : String)
  | pathPrefix (path : String)
deriving DecidableEq

structure RedirectPattern where
  scheme : String
  host : HostMatch
  port : PortMatch
  path : PathMatch
deriving DecidableEq

def toAsciiLowercase (s : String) : String :=
  String.ofList (s.toList.map Char.toLower)

def HostMatch.accepts (host : String) : HostMatch → Bool
  | exact expected => host == expected
  | suffix expected =>
      expected.toList.isSuffixOf host.toList &&
        (host.toList.take (host.length - expected.length)).getLast? ==
          some '.'

def PortMatch.accepts (port : Option ℕ) : PortMatch → Bool
  | any => true
  | exact expected => port == some expected

def PathMatch.accepts (path : String) : PathMatch → Bool
  | exact expected => path == expected
  | pathPrefix expected => expected.toList.isPrefixOf path.toList

def RedirectPattern.matches (pattern : RedirectPattern) (url : Url) : Bool :=
  url.scheme == pattern.scheme &&
    match url.host with
    | none => false
    | some host =>
        pattern.host.accepts (toAsciiLowercase host) &&
          pattern.port.accepts url.portOrKnownDefault &&
          pattern.path.accepts url.path

inductive RedirectPolicy
  | loopback
  | any
  | patterns (allowed : List RedirectPattern)

def loopbackPatterns : List RedirectPattern :=
  [{ scheme := "http", host := .exact "localhost", port := .any,
     path := .pathPrefix "" },
   { scheme := "http", host := .exact "127.0.0.1", port := .any,
     path := .pathPrefix "" }]

/-! ## Loopback hosts -/

def parseDigits (base : ℕ) (digit : Char → Option ℕ) (digits : List Char) :
    Option ℕ :=
  digits.foldlM (fun value c => (digit c).map (value * base + ·)) 0

def decimalDigit (c : Char) : Option ℕ :=
  if c.isDigit then some (c.toNat - '0'.toNat) else none

def parseOctet (digits : List Char) : Option ℕ := do
  guard (1 ≤ digits.length ∧ digits.length ≤ 3)
  guard (digits.length = 1 ∨ digits.head? ≠ some '0')
  let value ← parseDigits 10 decimalDigit digits
  guard (value ≤ 255)
  return value

def parseIpv4 (text : List Char) : Option (List ℕ) := do
  let parts := text.splitOn '.'
  guard (parts.length = 4)
  parts.mapM parseOctet

def parseGroup (digits : List Char) : Option ℕ := do
  guard (1 ≤ digits.length ∧ digits.length ≤ 4)
  parseDigits 16 RustText.hexValue digits

/-- The 16-bit groups of a colon-separated list; only its last part may be a
dotted IPv4 address, which stands for two groups. -/
def parseGroups (allowIpv4 : Bool) : List (List Char) → Option (List ℕ)
  | [] => some []
  | [part] =>
      match parseGroup part with
      | some group => some [group]
      | none =>
          if allowIpv4 then
            match parseIpv4 part with
            | some [a, b, c, d] => some [a * 256 + b, c * 256 + d]
            | _ => none
          else none
  | part :: rest => do
      let group ← parseGroup part
      let groups ← parseGroups allowIpv4 rest
      return group :: groups

/-- Split at the first occurrence of `::`. -/
def splitDoubleColon : List Char → Option (List Char × List Char)
  | ':' :: ':' :: rest => some ([], rest)
  | c :: rest =>
      (splitDoubleColon rest).map fun parts => (c :: parts.1, parts.2)
  | [] => none

def colonParts (text : List Char) : List (List Char) :=
  if text = [] then [] else text.splitOn ':'

def parseIpv6 (text : List Char) : Option (List ℕ) :=
  match splitDoubleColon text with
  | none => do
      let groups ← parseGroups true (colonParts text)
      guard (groups.length = 8)
      return groups
  | some (before, after) => do
      let head ← parseGroups false (colonParts before)
      let tail ← parseGroups true (colonParts after)
      guard (head.length + tail.length ≤ 7)
      return head ++ List.replicate (8 - head.length - tail.length) 0 ++ tail

def isLoopbackIp (text : List Char) : Bool :=
  match parseIpv4 text with
  | some octets => octets.head? == some 127
  | none =>
      match parseIpv6 text with
      | some groups => groups == [0, 0, 0, 0, 0, 0, 0, 1]
      | none => false

def isLoopbackHost (host : String) : Bool :=
  let bare :=
    ((host.toList.dropWhile (· == '[')).reverse.dropWhile (· == ']')).reverse
  bare.map Char.toLower == "localhost".toList || isLoopbackIp bare

example : isLoopbackHost "[::1]" = true ∧ isLoopbackHost "127.8.0.1" = true ∧
    isLoopbackHost "[::ffff:127.0.0.1]" = false ∧
    isLoopbackHost "127.0.0.01" = false := by decide

/-! ## The policy -/

/-- The unconditional floor: absolute, `http` or `https`, no credentials, no
fragment, and `http` only on a loopback host. -/
def validateFloor (parseUrl : String → Option Url) (candidate : String) :
    Option Url := do
  let url ← parseUrl candidate
  guard (url.scheme = "http" ∨ url.scheme = "https")
  guard (url.username = "" ∧ url.password = none)
  guard (url.fragment = none)
  let host ← url.host
  guard (url.scheme ≠ "http" ∨ isLoopbackHost host = true)
  return url

def RedirectPolicy.permits (policy : RedirectPolicy)
    (parseUrl : String → Option Url) (candidate : String) : Bool :=
  match validateFloor parseUrl candidate with
  | none => false
  | some url =>
      match policy with
      | .loopback => loopbackPatterns.any (·.matches url)
      | .any => true
      | .patterns allowed => allowed.any (·.matches url)

end RuprogressMcp
