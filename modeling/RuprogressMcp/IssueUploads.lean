import RuprogressMcp.IssueParams

/-!
# Uploads of an issue write

`resolve_and_mint_issue_uploads` makes two passes: the items are resolved to
their bytes one after the other, within a budget for all of them, and only
then is one token minted for each.  Reading a file, decoding base64 and
minting a token are part of the environment.
-/

namespace RuprogressMcp

abbrev Bytes := List UInt8

structure Upload where
  id : ℕ
  token : String
deriving DecidableEq

inductive Base64UploadError where
  | malformed (message : String)
  | tooLarge (result : CallToolResult)

/-- What the uploads ask of the outside.  A decoder and a reader are given the
context for their messages and the bytes that are left; the `n`-th token of a
call is minted from the bytes and the name of a file. -/
structure UploadSource where
  decodeUploadBase64 : String → String → ℕ → Except Base64UploadError Bytes
  readAndValidateUploadPath :
    String → ℕ → String → Except CallToolResult (Bytes × Option String)
  mintUploadToken : ℕ → Bytes → Option String → Except CallToolResult Upload

def uploadFileMaxBytes : ℕ := 50 * 1024 * 1024

def issueUploadsMaxTotalBytes : ℕ := 100 * 1024 * 1024

def sourceRequired (context : String) : CallToolResult :=
  err .sourceRequired
    (context ++ " requires exactly one of content_base64 or file_path")
    (some "set exactly one source field and retry")

def unsupportedSource : CallToolResult :=
  err .unsupportedSource
    ("source_url is not supported by this server; use content_base64 or " ++
      "file_path instead")
    (some ("fetch the URL's bytes yourself and pass them via " ++
      "content_base64, or stage the file locally and use file_path"))

structure ResolvedUpload where
  bytes : Bytes
  filename : Option String
  description : Option String

section

variable (source : UploadSource)

def resolveIssueUpload (idx : ℕ) (item : IssueUploadParams) (maxBytes : ℕ) :
    Except Refusal ResolvedUpload :=
  let context := "uploads[" ++ toString idx ++ "]"
  let sourcesSet := ([item.contentBase64.isSome, item.filePath.isSome,
    item.sourceUrl.isSome].filter id).length
  if sourcesSet ≠ 1 then .error (.inBand (sourceRequired context))
  else if item.sourceUrl.isSome then .error (.inBand unsupportedSource)
  else
    match item.contentBase64 with
    | some b64 =>
        if item.filename.isNone then
          .error (.protocol (context ++
            ": filename is required when using content_base64"))
        else
          match source.decodeUploadBase64 context b64 maxBytes with
          | .ok bytes => .ok ⟨bytes, item.filename, item.description⟩
          | .error (.malformed e) =>
              .error (.protocol (context ++
                ": content_base64 is not valid base64: " ++ e))
          | .error (.tooLarge result) => .error (.inBand result)
    | none =>
        match source.readAndValidateUploadPath context maxBytes
          (item.filePath.getD "") with
        | .ok (contents, inferred) =>
            .ok ⟨contents, item.filename <|> inferred, item.description⟩
        | .error result => .error (.inBand result)

/-- The first pass, with the position of the item and the bytes left. -/
def resolveIssueUploads : ℕ → ℕ → List IssueUploadParams →
    Except Refusal (List ResolvedUpload)
  | _, _, [] => .ok []
  | idx, remaining, item :: rest => do
      let resolved ← resolveIssueUpload source idx item
        (min remaining uploadFileMaxBytes)
      let later ← resolveIssueUploads (idx + 1)
        (remaining - resolved.bytes.length) rest
      return resolved :: later

def mintUploadTokens : ℕ → List ResolvedUpload →
    Except Refusal (List (UploadRef × ℕ))
  | _, [] => .ok []
  | idx, resolved :: rest => do
      let upload ← (source.mintUploadToken idx resolved.bytes
        resolved.filename).mapError Refusal.inBand
      let later ← mintUploadTokens (idx + 1) rest
      return (⟨upload.token, resolved.description⟩, upload.id) :: later

/-- The two passes over the items of a call. -/
def mintIssueUploads (uploads : List IssueUploadParams) :
    Except Refusal (List (UploadRef × ℕ)) := do
  let resolved ← resolveIssueUploads source 0 issueUploadsMaxTotalBytes uploads
  mintUploadTokens source 0 resolved

end

/-- The environment whose uploads go through the two passes. -/
def WriteEnv.withUploads (env : WriteEnv) (source : UploadSource) : WriteEnv :=
  { env with mintUploads := mintIssueUploads source }

variable {source : UploadSource}

/-- What an item holds: the bytes of its only source, read within the limit,
and the name of its file. -/
inductive HasContent (source : UploadSource) (idx maxBytes : ℕ)
    (item : IssueUploadParams) : Bytes → Option String → Prop where
  | base64 {b64 filename : String} {bytes : Bytes}
      (hcontent : item.contentBase64 = some b64)
      (hpath : item.filePath = none) (hurl : item.sourceUrl = none)
      (hfilename : item.filename = some filename)
      (hdecode : source.decodeUploadBase64 ("uploads[" ++ toString idx ++ "]")
        b64 maxBytes = .ok bytes) :
      HasContent source idx maxBytes item bytes (some filename)
  | file {raw : String} {bytes : Bytes} {inferred : Option String}
      (hcontent : item.contentBase64 = none)
      (hpath : item.filePath = some raw) (hurl : item.sourceUrl = none)
      (hread : source.readAndValidateUploadPath
        ("uploads[" ++ toString idx ++ "]") maxBytes raw =
          .ok (bytes, inferred)) :
      HasContent source idx maxBytes item bytes (item.filename <|> inferred)

/-- A resolved item keeps what it holds, with its own description. -/
theorem resolveIssueUpload_ok
    {idx maxBytes : ℕ} {item : IssueUploadParams} {resolved : ResolvedUpload}
    (hresolve : resolveIssueUpload source idx item maxBytes = .ok resolved) :
    HasContent source idx maxBytes item resolved.bytes resolved.filename ∧
      resolved.description = item.description := by
  simp only [resolveIssueUpload] at hresolve
  split at hresolve
  · cases hresolve
  rename_i hcount
  split at hresolve
  · cases hresolve
  rename_i hnotUrl
  have hurl : item.sourceUrl = none := by simpa using hnotUrl
  split at hresolve
  · rename_i b64 hcontent
    have hpath : item.filePath = none := by
      cases hpath : item.filePath with
      | none => rfl
      | some raw => simp [hcontent, hpath, hurl] at hcount
    split at hresolve
    · cases hresolve
    rename_i hnamed
    obtain ⟨filename, hfilename⟩ : ∃ filename, item.filename = some filename :=
      Option.ne_none_iff_exists'.mp (by simpa using hnamed)
    split at hresolve
    · rename_i bytes hdecode
      cases hresolve
      rw [hfilename]
      exact ⟨.base64 hcontent hpath hurl hfilename hdecode, rfl⟩
    · cases hresolve
    · cases hresolve
  · rename_i hcontent
    obtain ⟨raw, hpath⟩ : ∃ raw, item.filePath = some raw := by
      cases hpath : item.filePath with
      | none => simp [hcontent, hpath, hurl] at hcount
      | some raw => exact ⟨raw, rfl⟩
    split at hresolve
    · rename_i contents inferred hread
      cases hresolve
      rw [hpath, Option.getD_some] at hread
      exact ⟨.file hcontent hpath hurl hread, rfl⟩
    · cases hresolve

/-- The references of the items, in order: each has the token minted from the
item's own bytes and file name, and the item's description.  Items were
resolved before up to `idx`, and `remaining` bytes are left. -/
inductive MintedFor (source : UploadSource) :
    ℕ → ℕ → List IssueUploadParams → List UploadRef → Prop where
  | nil (idx remaining : ℕ) : MintedFor source idx remaining [] []
  | cons {idx remaining : ℕ} {item : IssueUploadParams}
      {rest : List IssueUploadParams} {refs : List UploadRef} {bytes : Bytes}
      {filename : Option String} {upload : Upload}
      (hcontent : HasContent source idx (min remaining uploadFileMaxBytes)
        item bytes filename)
      (hmint : source.mintUploadToken idx bytes filename = .ok upload)
      (hrest : MintedFor source (idx + 1) (remaining - bytes.length) rest
        refs) :
      MintedFor source idx remaining (item :: rest)
        (⟨upload.token, item.description⟩ :: refs)

theorem MintedFor.length
    {idx remaining : ℕ} {items : List IssueUploadParams}
    {refs : List UploadRef} (hminted : MintedFor source idx remaining items refs) :
    refs.length = items.length := by
  induction hminted with
  | nil => rfl
  | cons _ _ _ ih => rw [List.length_cons, List.length_cons, ih]

end RuprogressMcp
