import RuprogressMcp.JsonValue

/-!
# The output contract of the tools

What every tool returns: a success payload, shortened to the configured caps
before it leaves the process, or an error envelope.  The payload's first
top-level array is cut to the item cap and then to the longest prefix whose
text fits the byte cap, found by bisection over prefixes that are moved to and
from a spare stack.
-/

namespace RuprogressMcp

/-- The value of a `u64` sum that stops at the largest `u64`. -/
def saturatingAdd (a b : ℕ) : ℕ := min (a + b) (2 ^ 64 - 1)

/-! ## Results and error codes -/

structure CallToolResult where
  structuredContent : Json
  isError : Bool
deriving DecidableEq

inductive ErrorCode where
  | unauthorized | forbidden | notFound | validationFailed | rateLimited
  | unreachable | unexpectedResponse | limitExceeded | misconfigured | readOnly
  | confirmationRequired | childrenPresent | fileTooLarge | storeFull
  | sourceRequired | unsupportedSource | pathNotAllowed | insufficientScope
  | internal
deriving DecidableEq

namespace ErrorCode

def isRetryable : ErrorCode → Bool
  | rateLimited | unreachable => true
  | _ => false

def name : ErrorCode → String
  | unauthorized => "UNAUTHORIZED"
  | forbidden => "FORBIDDEN"
  | notFound => "NOT_FOUND"
  | validationFailed => "VALIDATION_FAILED"
  | rateLimited => "RATE_LIMITED"
  | unreachable => "UNREACHABLE"
  | unexpectedResponse => "UNEXPECTED_RESPONSE"
  | limitExceeded => "LIMIT_EXCEEDED"
  | misconfigured => "MISCONFIGURED"
  | readOnly => "READ_ONLY"
  | confirmationRequired => "CONFIRMATION_REQUIRED"
  | childrenPresent => "CHILDREN_PRESENT"
  | fileTooLarge => "FILE_TOO_LARGE"
  | storeFull => "STORE_FULL"
  | sourceRequired => "SOURCE_REQUIRED"
  | unsupportedSource => "UNSUPPORTED_SOURCE"
  | pathNotAllowed => "PATH_NOT_ALLOWED"
  | insufficientScope => "INSUFFICIENT_SCOPE"
  | internal => "INTERNAL"

end ErrorCode

def optionToValue {α : Type} (toValue : α → Json) : Option α → Json
  | some a => toValue a
  | none => .null

def err (code : ErrorCode) (message : String) (hint : Option String) :
    CallToolResult where
  structuredContent := .obj (JsonObject.ofFields
    [("error", .str message), ("code", .str code.name),
      ("retryable", .bool code.isRetryable),
      ("hint", optionToValue Json.str hint)])
  isError := true

/-- An in-band error result with further fields in its envelope. -/
def errWith (code : ErrorCode) (message : String) (hint : Option String)
    (extra : JsonObject) : CallToolResult where
  structuredContent :=
    match (err code message hint).structuredContent with
    | .obj fields =>
        .obj (extra.foldl (fun object field =>
          JsonObject.insert field.1 field.2 object) fields)
    | value => value
  isError := true

/-! ## Pagination -/

/-- A page of a list endpoint of the Redmine client.  `offset` is that of the
first item. -/
structure Page (α : Type) where
  items : List α
  totalCount : ℕ
  offset : ℕ
  limit : ℕ
  truncated : Bool
deriving DecidableEq

structure Pagination where
  total : ℕ
  limit : ℕ
  offset : ℕ
  hasNext : Bool
  hasPrevious : Bool
  nextOffset : Option ℕ
  previousOffset : Option ℕ
  truncated : Bool
  hint : Option String
deriving DecidableEq

namespace Pagination

def fromPage {α : Type} (page : Page α) : Pagination :=
  let collectedEnd := saturatingAdd page.offset page.items.length
  let hasNext := decide (collectedEnd < page.totalCount)
  let hasPrevious := decide (0 < page.offset)
  { total := page.totalCount
    limit := page.limit
    offset := page.offset
    hasNext
    hasPrevious
    nextOffset := if hasNext then some collectedEnd else none
    previousOffset :=
      if hasPrevious then some (page.offset - page.limit) else none
    truncated := page.truncated
    hint := none }

def number (n : ℕ) : Json := .num (.posInt (UInt64.ofNat n))

/-- The serialized object; an absent hint is skipped. -/
def toObject (pagination : Pagination) : JsonObject :=
  JsonObject.ofFields <|
    [("total", number pagination.total), ("limit", number pagination.limit),
      ("offset", number pagination.offset),
      ("has_next", .bool pagination.hasNext),
      ("has_previous", .bool pagination.hasPrevious),
      ("next_offset", optionToValue number pagination.nextOffset),
      ("previous_offset", optionToValue number pagination.previousOffset),
      ("truncated", .bool pagination.truncated)] ++
    match pagination.hint with
    | some hint => [("hint", .str hint)]
    | none => []

end Pagination

/-! ## Response caps -/

structure OutputCaps where
  maxItems : ℕ
  maxBytes : ℕ
deriving DecidableEq

def truncationHint : String :=
  "response truncated to fit REDMINE_MCP_MAX_RESPONSE_ITEMS/_BYTES; " ++
    "narrow the query if this tool supports filtering"

/-- The first array among the values of the fields. -/
def firstArray : JsonObject → Option (List Json)
  | [] => none
  | (_, value) :: rest =>
      match value.asArray with
      | some items => some items
      | none => firstArray rest

def topLevelArray (value : Json) : Option (List Json) :=
  value.asObject.bind firstArray

/-- Overwrite the first array among the values of the fields. -/
def putFirstArray (items : List Json) : JsonObject → JsonObject
  | [] => []
  | (key, value) :: rest =>
      match value.asArray with
      | some _ => (key, .arr items) :: rest
      | none => (key, value) :: putFirstArray items rest

/-- Assignment through the reference to the top-level array. -/
def putTopLevelArray (items : List Json) : Json → Json
  | .obj fields => .obj (putFirstArray items fields)
  | value => value

def serializedLen (value : Json) : ℕ := value.textLen

/-- The array and the spare stack, top first, while a prefix is adjusted. -/
abbrev Shelf : Type := List Json × List Json

/-- Move the last item of the array to the spare stack. -/
def Shelf.shrink (shelf : Shelf) : Shelf :=
  match shelf.1.getLast? with
  | some item => (shelf.1.dropLast, item :: shelf.2)
  | none => shelf

/-- Move the top of the spare stack to the end of the array. -/
def Shelf.grow (shelf : Shelf) : Shelf :=
  match shelf.2 with
  | item :: spare => (shelf.1 ++ [item], spare)
  | [] => shelf

/-- The two loops of `set_prefix`: shrink while the array is longer than `k`,
then grow while it is shorter. -/
def Shelf.resize (k : ℕ) (shelf : Shelf) : Shelf :=
  let shelf := Shelf.shrink^[shelf.1.length - k] shelf
  Shelf.grow^[k - shelf.1.length] shelf

def setPrefix (value : Json) (spare : List Json) (k : ℕ) : Json × List Json :=
  match topLevelArray value with
  | some items =>
      let shelf := Shelf.resize k (items, spare)
      (putTopLevelArray shelf.1 value, shelf.2)
  | none => (value, spare)

structure Bisection where
  value : Json
  spare : List Json
  lo : ℕ
  hi : ℕ

def Bisection.round (maxBytes : ℕ) (b : Bisection) : Bisection :=
  let mid := (b.lo + b.hi) / 2
  let (value, spare) := setPrefix b.value b.spare mid
  if serializedLen value ≤ maxBytes then
    { b with value, spare, lo := mid + 1 }
  else { b with value, spare, hi := mid }

/-- Rounds while `lo < hi`; the fuel bounds their number. -/
def Bisection.loop (maxBytes : ℕ) : ℕ → Bisection → Bisection
  | 0, b => b
  | fuel + 1, b =>
      if b.lo < b.hi then Bisection.loop maxBytes fuel (b.round maxBytes)
      else b

/-- Cut the array, of the given length, to the longest prefix that fits. -/
def cutToBytes (value : Json) (maxBytes len : ℕ) : Json × Bool :=
  if maxBytes < serializedLen value then
    let b := Bisection.loop maxBytes len ⟨value, [], 0, len⟩
    let answer := b.lo - 1
    ((setPrefix b.value b.spare answer).1, decide (answer < len))
  else (value, false)

/-- The pagination object of a payload with the mark of a cut. -/
def markPagination (pagination : JsonObject) : JsonObject :=
  (pagination.insert "truncated" (.bool true)).insert
    "hint" (.str truncationHint)

def markTruncated (value : Json) : Json :=
  match value with
  | .obj fields =>
      match JsonObject.get fields "pagination" with
      | some (.obj pagination) =>
          .obj (JsonObject.update "pagination" (.obj (markPagination pagination))
            fields)
      | _ => value
  | _ => value

def applyCaps (value : Json) (caps : OutputCaps) : Json :=
  match topLevelArray value with
  | none => value
  | some items =>
      let cut := putTopLevelArray (items.take caps.maxItems) value
      let len := min items.length caps.maxItems
      let (result, shortened) := cutToBytes cut caps.maxBytes len
      if caps.maxItems < items.length || shortened then markTruncated result
      else result

def ok (value : Json) (caps : OutputCaps) : CallToolResult where
  structuredContent := applyCaps value caps
  isError := false

end RuprogressMcp
