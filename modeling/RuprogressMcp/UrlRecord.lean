import Mathlib.Tactic

/-!
# Parsed URLs

The components of a URL after parsing, with the accessors that the rest needs.
Parsing is left to the caller, and what form pairs are as a query to a
parameter.
-/

def utf8Bytes (s : String) : List UInt8 := s.toUTF8.data.toList

/-- A parsed absolute URL.  `port` is absent when it is the default port of
the scheme, and an IPv6 host is bracketed. -/
structure Url where
  scheme : String
  username : String
  password : Option String
  host : Option String
  port : Option ℕ
  path : String
  query : Option String
  fragment : Option String
deriving DecidableEq

namespace Url

def knownDefaultPort (scheme : String) : Option ℕ :=
  if scheme = "http" ∨ scheme = "ws" then some 80
  else if scheme = "https" ∨ scheme = "wss" then some 443
  else if scheme = "ftp" then some 21
  else none

def portOrKnownDefault (url : Url) : Option ℕ :=
  url.port <|> knownDefaultPort url.scheme

/-- Two URLs name the same endpoint: they differ at most in credentials,
query and fragment. -/
structure SameTarget (url target : Url) : Prop where
  scheme : url.scheme = target.scheme
  host : url.host = target.host
  port : url.port = target.port
  path : url.path = target.path

end Url

/-- A name and a value as bytes: a query need not encode a text. -/
abbrev FormPair := List UInt8 × List UInt8

/-- What a reader finds where a pair has been written. -/
def FormPair.of (pair : String × String) : FormPair :=
  (utf8Bytes pair.1, utf8Bytes pair.2)

/-- The `url` crate on `application/x-www-form-urlencoded` pairs:
`query_pairs_mut` appends them to a query and touches nothing else, and
`query_pairs` reads them back behind those that were there. -/
structure FormCodec where
  appendPairs : Url → List (String × String) → Url
  queryPairs : Url → List FormPair
  appendPairs_eq : ∀ url pairs, ∃ query,
    appendPairs url pairs = { url with query := some query }
  queryPairs_appendPairs : ∀ url pairs,
    queryPairs (appendPairs url pairs) = queryPairs url ++ pairs.map FormPair.of
  queryPairs_of_none : ∀ url, url.query = none → queryPairs url = []

theorem FormCodec.appendPairs_sameTarget (form : FormCodec) (url : Url)
    (pairs : List (String × String)) :
    Url.SameTarget (form.appendPairs url pairs) url := by
  obtain ⟨query, happended⟩ := form.appendPairs_eq url pairs
  rw [happended]
  exact ⟨rfl, rfl, rfl, rfl⟩

theorem FormCodec.fragment_appendPairs (form : FormCodec) (url : Url)
    (pairs : List (String × String)) :
    (form.appendPairs url pairs).fragment = url.fragment := by
  obtain ⟨query, happended⟩ := form.appendPairs_eq url pairs
  rw [happended]
