import RuprogressMcp.UploadFiles

/-!
# Requests of an issue's uploads

The two passes over `uploads[]` with the requests that they send.  The first
pass touches the host only, so an item that cannot be resolved stops the call
before anything has left it; the second posts the resolved items one by one
and stops at the first that Redmine rejects.
-/

namespace RuprogressMcp

/-- One `POST /uploads.json`. -/
structure UploadPost where
  body : Bytes
  filename : Option String
deriving DecidableEq

def ResolvedUpload.post (resolved : ResolvedUpload) : UploadPost :=
  ⟨resolved.bytes, resolved.filename⟩

/-- The surroundings of a call.  `files` is what the file system does while
the item of a context is read, and `server` the answer to each request. -/
structure UploadWorld where
  roots : List (List Char)
  storeDir : List Char
  engine : Base64Engine
  files : String → FileHistory
  server : ℕ → UploadPost → Except RedmineError Upload
  displayStatus : ℕ → String

/-- How a failed request is reported. -/
def uploadFailure (displayStatus : ℕ → String) : RedmineError → CallToolResult
  | .api status errors =>
      if status = 413 ∨ status = 422 then uploadRejectedAsTooLarge
      else toToolError displayStatus (.api status errors)
  | error => toToolError displayStatus error

namespace UploadWorld

variable (world : UploadWorld)

def mintUploadToken (n : ℕ) (post : UploadPost) :
    Except CallToolResult Upload :=
  (world.server n post).mapError (uploadFailure world.displayStatus)

def source : UploadSource where
  decodeUploadBase64 := decodeUploadBase64 world.engine
  readAndValidateUploadPath context :=
    readAndValidateUploadPath world.roots world.storeDir (world.files context)
      context
  mintUploadToken n bytes filename := world.mintUploadToken n ⟨bytes, filename⟩

/-- What a call has sent, and what it returns. -/
structure Run where
  posts : List UploadPost
  result : Except Refusal (List UploadRef × List ℕ)

/-- The second pass, with the number of requests sent before. -/
def postUploads : ℕ → List ResolvedUpload → Run
  | _, [] => ⟨[], .ok ([], [])⟩
  | n, resolved :: rest =>
      match world.mintUploadToken n resolved.post with
      | .error result => ⟨[resolved.post], .error (.inBand result)⟩
      | .ok upload =>
          let later := postUploads (n + 1) rest
          ⟨resolved.post :: later.posts, later.result.map fun minted =>
            (⟨upload.token, resolved.description⟩ :: minted.1,
              upload.id :: minted.2)⟩

def resolveAndMintIssueUploads (uploads : Option (List IssueUploadParams)) :
    Run :=
  match uploads with
  | none => ⟨[], .ok ([], [])⟩
  | some uploads =>
      if 10 < uploads.length then
        ⟨[], .error (.protocol "uploads accepts at most 10 items")⟩
      else
        match resolveIssueUploads world.source 0 issueUploadsMaxTotalBytes
          uploads with
        | .error refusal => ⟨[], .error refusal⟩
        | .ok resolved => world.postUploads 0 resolved

/-! ## Results with and without the requests -/

variable {world}

theorem postUploads_result (n : ℕ) (resolved : List ResolvedUpload) :
    (world.postUploads n resolved).result =
      (mintUploadTokens world.source n resolved).map fun minted =>
        (minted.map Prod.fst, minted.map Prod.snd) := by
  induction resolved generalizing n with
  | nil => rfl
  | cons first rest ih =>
      unfold postUploads mintUploadTokens
      change _ = (((world.mintUploadToken n first.post).mapError
        Refusal.inBand) >>= _).map _
      cases hmint : world.mintUploadToken n first.post with
      | error result => rfl
      | ok upload =>
          simp only [ih (n + 1)]
          cases mintUploadTokens world.source (n + 1) rest with
          | error refusal => rfl
          | ok later => rfl

/-- The requests are all that is added to the two passes. -/
theorem resolveAndMintIssueUploads_result
    (env : WriteEnv) (uploads : Option (List IssueUploadParams)) :
    (world.resolveAndMintIssueUploads uploads).result =
      RuprogressMcp.resolveAndMintIssueUploads (env.withUploads world.source)
        uploads := by
  cases uploads with
  | none => rfl
  | some uploads =>
      simp only [resolveAndMintIssueUploads,
        RuprogressMcp.resolveAndMintIssueUploads, WriteEnv.withUploads,
        mintIssueUploads]
      split
      · rfl
      · cases resolveIssueUploads world.source 0 issueUploadsMaxTotalBytes
          uploads with
        | error refusal => rfl
        | ok resolved =>
            simp only [postUploads_result]
            cases hmint : mintUploadTokens world.source 0 resolved with
            | error refusal => simp [bind, Except.bind, hmint, Except.map]
            | ok minted =>
                simp [bind, Except.bind, hmint, Except.map, pure, Except.pure]

/-! ## Items that can be resolved -/

variable (world)

/-- The context of the item at a position. -/
def context (idx : ℕ) : String := "uploads[" ++ toString idx ++ "]"

/-- The item at a position has one source that can be read within the limit,
and this is what it is resolved to. -/
inductive ResolvesTo (idx maxBytes : ℕ) (item : IssueUploadParams) :
    ResolvedUpload → Prop where
  | base64 {b64 filename : String} {bytes : Bytes}
      (hcontent : item.contentBase64 = some b64)
      (hpath : item.filePath = none) (hurl : item.sourceUrl = none)
      (hfilename : item.filename = some filename)
      (hdecode : world.engine.decode b64.toList = .ok bytes)
      (hlen : bytes.length ≤ maxBytes) :
      ResolvesTo idx maxBytes item ⟨bytes, some filename, item.description⟩
  | file {raw : String} {canonical : List Char} {handle : FileId}
      {contents : Bytes}
      (hcontent : item.contentBase64 = none)
      (hpath : item.filePath = some raw) (hurl : item.sourceUrl = none)
      (hadmitted : Admitted world.roots world.storeDir
        (world.files (context idx)) maxBytes raw canonical handle)
      (hread : (world.files (context idx)).readToEnd handle = some contents) :
      ResolvesTo idx maxBytes item ⟨contents,
        item.filename <|> (UnixPath.fileName canonical).bind
          (world.files (context idx)).toStr, item.description⟩

/-- The bytes that an item may take after those resolved before it. -/
def limitAfter (before : List ResolvedUpload) : ℕ :=
  min (issueUploadsMaxTotalBytes -
    (before.map fun resolved => resolved.bytes.length).sum) uploadFileMaxBytes

/-- Every item is resolved, within what the items before it have left. -/
structure Validated (uploads : Option (List IssueUploadParams))
    (resolved : List ResolvedUpload) : Prop where
  count : (uploads.getD []).length ≤ 10
  length : resolved.length = (uploads.getD []).length
  each : ∀ (idx : ℕ) (item : IssueUploadParams),
    (uploads.getD [])[idx]? = some item →
    ∃ upload, resolved[idx]? = some upload ∧
      world.ResolvesTo idx (limitAfter (resolved.take idx)) item upload

variable {world}

theorem ResolvesTo.of_ok
    {idx maxBytes : ℕ} {item : IssueUploadParams} {resolved : ResolvedUpload}
    (hresolve : resolveIssueUpload world.source idx item maxBytes =
      .ok resolved) : world.ResolvesTo idx maxBytes item resolved := by
  obtain ⟨hcontent, hdescription⟩ := resolveIssueUpload_ok hresolve
  obtain ⟨bytes, filename, description⟩ := resolved
  cases hdescription
  cases hcontent with
  | base64 hcontent hpath hurl hfilename hdecode =>
      obtain ⟨hdecode, hlen⟩ :=
        decode_of_decodeUploadBase64 world.engine hdecode
      exact .base64 hcontent hpath hurl hfilename hdecode hlen
  | file hcontent hpath hurl hread =>
      obtain ⟨canonical, handle, hadmitted, hcontents, rfl⟩ :=
        readAndValidateUploadPath_eq_ok_iff.mp hread
      exact .file hcontent hpath hurl hadmitted hcontents

theorem ResolvesTo.ok
    {idx maxBytes : ℕ} {item : IssueUploadParams} {resolved : ResolvedUpload}
    (hmax : maxBytes ≤ uploadFileMaxBytes)
    (hresolves : world.ResolvesTo idx maxBytes item resolved) :
    resolveIssueUpload world.source idx item maxBytes = .ok resolved := by
  obtain ⟨named, content, path, url, description⟩ := item
  cases hresolves with
  | @base64 b64 filename bytes hcontent hpath hurl hfilename hdecode hlen =>
      cases hcontent
      cases hpath
      cases hurl
      cases hfilename
      -- the limit keeps the estimate of an accepted text far below 2 ^ 64
      have hfits : Base64.decodedLenEstimate b64.utf8ByteSize < 2 ^ 64 := by
        have hestimate := (estimate_of_decode world.engine hdecode).2
        unfold uploadFileMaxBytes at hmax
        omega
      have haccepted : world.source.decodeUploadBase64 (context idx) b64
          maxBytes = .ok bytes :=
        decodeUploadBase64_of_decode world.engine _ hdecode hlen hfits
      unfold context at haccepted
      simp only [resolveIssueUpload, haccepted]
      rfl
  | @file raw canonical handle contents hcontent hpath hurl hadmitted hread =>
      cases hcontent
      cases hpath
      cases hurl
      have haccepted : world.source.readAndValidateUploadPath (context idx)
          maxBytes raw = .ok (contents, (UnixPath.fileName canonical).bind
            (world.files (context idx)).toStr) :=
        readAndValidateUploadPath_eq_ok_iff.mpr
          ⟨canonical, handle, hadmitted, hread, rfl⟩
      unfold context at haccepted
      simp only [resolveIssueUpload, Option.getD_some, haccepted]
      rfl

theorem ResolvesTo.description
    {idx maxBytes : ℕ} {item : IssueUploadParams} {resolved : ResolvedUpload}
    (hresolves : world.ResolvesTo idx maxBytes item resolved) :
    resolved.description = item.description := by
  cases hresolves <;> rfl

/-! ## The first pass -/

theorem limitAfter_le (before : List ResolvedUpload) :
    limitAfter before ≤ uploadFileMaxBytes := min_le_right _ _

/-- The first pass behind the items that it has resolved. -/
theorem resolveIssueUploads_eq_ok_iff
    {before resolved : List ResolvedUpload} {items : List IssueUploadParams} :
    resolveIssueUploads world.source before.length
        (issueUploadsMaxTotalBytes -
          (before.map fun upload => upload.bytes.length).sum) items =
        .ok resolved ↔
      resolved.length = items.length ∧
        ∀ (idx : ℕ) (item : IssueUploadParams), items[idx]? = some item →
          ∃ upload, resolved[idx]? = some upload ∧
            world.ResolvesTo (before.length + idx)
              (limitAfter (before ++ resolved.take idx)) item upload := by
  induction items generalizing before resolved with
  | nil =>
      simp only [resolveIssueUploads, Except.ok.injEq, List.length_nil,
        List.length_eq_zero_iff, List.getElem?_nil]
      constructor
      · rintro rfl
        exact ⟨rfl, fun _ _ hnone => by cases hnone⟩
      · rintro ⟨rfl, -⟩
        rfl
  | cons item rest ih =>
      have hnext (first : ResolvedUpload) :
          issueUploadsMaxTotalBytes -
              (before.map fun upload => upload.bytes.length).sum -
              first.bytes.length =
            issueUploadsMaxTotalBytes -
              ((before ++ [first]).map fun upload => upload.bytes.length).sum := by
        rw [List.map_append, List.sum_append, List.map_singleton,
          List.sum_singleton]
        omega
      have hlength (first : ResolvedUpload) :
          before.length + 1 = (before ++ [first]).length := by simp
      constructor
      · intro hresolve
        obtain ⟨first, hfirst, hresolve⟩ := bind_eq_ok_iff.mp hresolve
        obtain ⟨later, hlater, hresolve⟩ := bind_eq_ok_iff.mp hresolve
        cases hresolve
        rw [hnext first, hlength first] at hlater
        obtain ⟨hlengths, heach⟩ := ih.mp hlater
        refine ⟨by simp [hlengths], ?_⟩
        intro idx other hother
        cases idx with
        | zero =>
            cases hother
            refine ⟨first, rfl, ?_⟩
            rw [List.take_zero, List.append_nil]
            exact .of_ok hfirst
        | succ idx =>
            obtain ⟨upload, hupload, hresolves⟩ := heach idx other hother
            refine ⟨upload, hupload, ?_⟩
            rw [List.length_append, List.append_assoc] at hresolves
            rw [List.take_succ_cons, Nat.add_comm idx 1, ← Nat.add_assoc]
            exact hresolves
      · rintro ⟨hlengths, heach⟩
        obtain ⟨first, hfirst, hresolves⟩ := heach 0 item rfl
        obtain ⟨head, later, rfl⟩ := List.exists_cons_of_length_eq_add_one hlengths
        cases hfirst
        rw [List.take_zero, List.append_nil] at hresolves
        refine bind_eq_ok_iff.mpr ⟨first, hresolves.ok (limitAfter_le _), ?_⟩
        refine bind_eq_ok_iff.mpr ⟨later, ?_, rfl⟩
        rw [hnext first, hlength first]
        refine ih.mpr ⟨by simpa using hlengths, ?_⟩
        intro idx other hother
        obtain ⟨upload, hupload, hresolves⟩ := heach (idx + 1) other hother
        refine ⟨upload, hupload, ?_⟩
        rw [List.length_append, List.append_assoc]
        rw [List.take_succ_cons, Nat.add_comm idx 1, ← Nat.add_assoc] at hresolves
        exact hresolves

/-! ## The second pass -/

variable (world)

/-- One request for each item in order, until the first that is rejected;
`n` requests were sent before. -/
inductive Sends (n : ℕ) (resolved : List ResolvedUpload) : Run → Prop where
  | completed {uploads : List Upload}
      (hlength : uploads.length = resolved.length)
      (haccepted : ∀ (idx : ℕ) (upload : ResolvedUpload),
        resolved[idx]? = some upload → ∃ minted, uploads[idx]? = some minted ∧
          world.server (n + idx) upload.post = .ok minted) :
      Sends n resolved ⟨resolved.map ResolvedUpload.post,
        .ok (List.zipWith (fun upload minted =>
          ⟨minted.token, upload.description⟩) resolved uploads,
          uploads.map Upload.id)⟩
  | rejected {last : ℕ} {upload : ResolvedUpload} {error : RedmineError}
      (hlast : resolved[last]? = some upload)
      (hbefore : ∀ (idx : ℕ) (other : ResolvedUpload), idx < last →
        resolved[idx]? = some other →
        ∃ minted, world.server (n + idx) other.post = .ok minted)
      (hrejected : world.server (n + last) upload.post = .error error) :
      Sends n resolved ⟨(resolved.take (last + 1)).map ResolvedUpload.post,
        .error (.inBand (uploadFailure world.displayStatus error))⟩

variable {world}

theorem Sends.cons
    {n : ℕ} {first : ResolvedUpload} {rest : List ResolvedUpload}
    {upload : Upload} {later : Run}
    (hfirst : world.server n first.post = .ok upload)
    (hsends : world.Sends (n + 1) rest later) :
    world.Sends n (first :: rest)
      ⟨first.post :: later.posts, later.result.map fun minted =>
        (⟨upload.token, first.description⟩ :: minted.1,
          upload.id :: minted.2)⟩ := by
  cases hsends with
  | @completed uploads hlength haccepted =>
      refine @completed world n _ (upload :: uploads) (by simp [hlength]) ?_
      intro idx other hother
      cases idx with
      | zero =>
          cases hother
          exact ⟨upload, rfl, hfirst⟩
      | succ idx =>
          obtain ⟨minted, hminted, hserver⟩ := haccepted idx other hother
          refine ⟨minted, hminted, ?_⟩
          rwa [Nat.add_assoc, Nat.add_comm 1] at hserver
  | @rejected last other error hlast hbefore hrejected =>
      refine @rejected world n _ (last + 1) other error hlast ?_ ?_
      · intro idx earlier hidx hearlier
        cases idx with
        | zero =>
            cases hearlier
            exact ⟨upload, hfirst⟩
        | succ idx =>
            obtain ⟨minted, hserver⟩ :=
              hbefore idx earlier (Nat.lt_of_succ_lt_succ hidx) hearlier
            refine ⟨minted, ?_⟩
            rwa [Nat.add_assoc, Nat.add_comm 1] at hserver
      · rwa [Nat.add_assoc, Nat.add_comm 1] at hrejected

theorem sends_postUploads (n : ℕ) (resolved : List ResolvedUpload) :
    world.Sends n resolved (world.postUploads n resolved) := by
  induction resolved generalizing n with
  | nil => exact @Sends.completed world n [] [] rfl fun _ _ hnone => by cases hnone
  | cons first rest ih =>
      unfold postUploads mintUploadToken
      cases hserver : world.server n first.post with
      | error error =>
          refine @Sends.rejected world n _ 0 first error rfl ?_ hserver
          intro idx _ hidx
          exact absurd hidx (Nat.not_lt_zero idx)
      | ok upload => exact Sends.cons hserver (ih (n + 1))

/-! ## The whole call -/

variable (world) in
/-- What a successful call returns: for each item, in order, the token and the
id minted from its own bytes and file name, with its own description. -/
structure Minted (uploads : Option (List IssueUploadParams))
    (refs : List UploadRef) (ids : List ℕ) : Prop where
  refs_length : refs.length = (uploads.getD []).length
  ids_length : ids.length = (uploads.getD []).length
  each : ∀ (idx : ℕ) (item : IssueUploadParams),
    (uploads.getD [])[idx]? = some item →
    ∃ maxBytes upload minted, world.ResolvesTo idx maxBytes item upload ∧
      world.server idx ⟨upload.bytes, upload.filename⟩ = .ok minted ∧
      refs[idx]? = some ⟨minted.token, item.description⟩ ∧
      ids[idx]? = some minted.id

theorem Sends.minted
    {uploads : Option (List IssueUploadParams)}
    {resolved : List ResolvedUpload} {run : Run} {refs : List UploadRef}
    {ids : List ℕ} (hvalidated : world.Validated uploads resolved)
    (hsends : world.Sends 0 resolved run) (hresult : run.result = .ok (refs, ids)) :
    world.Minted uploads refs ids := by
  cases hsends with
  | rejected => cases hresult
  | @completed minted hlength haccepted =>
      cases hresult
      refine ⟨?_, ?_, ?_⟩
      · rw [List.length_zipWith, hlength, min_self, hvalidated.length]
      · rw [List.length_map, hlength, hvalidated.length]
      · intro idx item hitem
        obtain ⟨upload, hupload, hresolves⟩ := hvalidated.each idx item hitem
        obtain ⟨own, hown, hserver⟩ := haccepted idx upload hupload
        rw [Nat.zero_add] at hserver
        refine ⟨_, upload, own, hresolves, hserver, ?_, ?_⟩
        · simp [List.getElem?_zipWith, hupload, hown, hresolves.description]
        · rw [List.getElem?_map, hown, Option.map_some]

theorem validated_of_resolve
    {items : List IssueUploadParams} {resolved : List ResolvedUpload}
    (hcount : items.length ≤ 10) :
    resolveIssueUploads world.source 0 issueUploadsMaxTotalBytes items =
        .ok resolved ↔
      world.Validated (some items) resolved := by
  have hpass := @resolveIssueUploads_eq_ok_iff world [] resolved items
  simp only [List.length_nil, List.map_nil, List.sum_nil, Nat.sub_zero,
    List.nil_append, Nat.zero_add] at hpass
  rw [hpass]
  constructor
  · rintro ⟨hlength, heach⟩
    exact ⟨hcount, hlength, heach⟩
  · intro hvalidated
    exact ⟨hvalidated.length, hvalidated.each⟩

/-- Nothing is sent unless every item can be resolved; then one request is
sent for each, in order and up to the first that is rejected, and what a
successful call returns belongs item by item to what it was given. -/
theorem uploads_validated_before_sent
    (world : UploadWorld) (uploads : Option (List IssueUploadParams)) :
    ((∀ resolved, ¬ world.Validated uploads resolved) →
      (world.resolveAndMintIssueUploads uploads).posts = [] ∧
        ∃ refusal, (world.resolveAndMintIssueUploads uploads).result =
          .error refusal) ∧
      ∀ resolved, world.Validated uploads resolved →
        world.Sends 0 resolved (world.resolveAndMintIssueUploads uploads) ∧
          ∀ refs ids, (world.resolveAndMintIssueUploads uploads).result =
            .ok (refs, ids) → world.Minted uploads refs ids := by
  cases uploads with
  | none =>
      have hempty : world.Validated none [] :=
        ⟨Nat.zero_le _, rfl, fun _ _ hnone => by cases hnone⟩
      refine ⟨fun hnot => absurd hempty (hnot []), ?_⟩
      intro resolved hvalidated
      obtain rfl := List.eq_nil_of_length_eq_zero hvalidated.length
      have hsends := @sends_postUploads world 0 []
      exact ⟨hsends, fun refs ids => hsends.minted hvalidated⟩
  | some items =>
      by_cases hcount : 10 < items.length
      · have hrun : world.resolveAndMintIssueUploads (some items) =
            ⟨[], .error (.protocol "uploads accepts at most 10 items")⟩ :=
          if_pos hcount
        rw [hrun]
        refine ⟨fun _ => ⟨rfl, _, rfl⟩, ?_⟩
        intro resolved hvalidated
        exact absurd hvalidated.count (Nat.not_le.mpr hcount)
      · have hiff := @validated_of_resolve world items
        cases hresolve : resolveIssueUploads world.source 0
            issueUploadsMaxTotalBytes items with
        | error refusal =>
            have hrun : world.resolveAndMintIssueUploads (some items) =
                ⟨[], .error refusal⟩ := by
              simp only [resolveAndMintIssueUploads, if_neg hcount, hresolve]
            rw [hrun]
            refine ⟨fun _ => ⟨rfl, refusal, rfl⟩, ?_⟩
            intro resolved hvalidated
            rw [← hiff (Nat.le_of_not_lt hcount), hresolve] at hvalidated
            cases hvalidated
        | ok resolved =>
            have hrun : world.resolveAndMintIssueUploads (some items) =
                world.postUploads 0 resolved := by
              simp only [resolveAndMintIssueUploads, if_neg hcount, hresolve]
            have hvalidated := (hiff (Nat.le_of_not_lt hcount)).mp hresolve
            rw [hrun]
            refine ⟨fun hnot => absurd hvalidated (hnot resolved), ?_⟩
            intro other hother
            rw [← hiff (Nat.le_of_not_lt hcount), hresolve] at hother
            cases hother
            have hsends := @sends_postUploads world 0 resolved
            exact ⟨hsends, fun refs ids => hsends.minted hvalidated⟩

namespace Sample

/-- A server that numbers its tokens, and no files. -/
def numbering : UploadWorld where
  roots := []
  storeDir := []
  engine := RuprogressMcp.Sample.base64Engine
  files _ :=
    { state := fun _ => ⟨fun _ => none, fun _ => none, fun _ => false,
        fun _ => []⟩
      fails := fun _ => true
      toStr := fun _ => none }
  server n _ := .ok ⟨42 + n, "token"⟩
  displayStatus status := toString status

def zerosItem : IssueUploadParams :=
  ⟨some "zeros.bin", some "AAAAAA==", none, none, none⟩

def zeros : ResolvedUpload := ⟨[0, 0, 0, 0], some "zeros.bin", none⟩

theorem zeros_validated : numbering.Validated (some [zerosItem]) [zeros] :=
  (validated_of_resolve (by decide)).mp rfl

theorem zeros_sent :
    numbering.Validated (some [zerosItem]) [zeros] ∧
      numbering.Sends 0 [zeros]
        (numbering.resolveAndMintIssueUploads (some [zerosItem])) ∧
      numbering.Minted (some [zerosItem]) [⟨"token", none⟩] [42] := by
  obtain ⟨hsends, hminted⟩ :=
    (uploads_validated_before_sent numbering (some [zerosItem])).2 [zeros]
      zeros_validated
  exact ⟨zeros_validated, hsends, hminted _ _ rfl⟩

end Sample

end UploadWorld

end RuprogressMcp
