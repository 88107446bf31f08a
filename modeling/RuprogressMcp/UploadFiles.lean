import RuprogressMcp.Base64Text
import RuprogressMcp.IssueUploads
import RuprogressMcp.RequiredFields
import RuprogressMcp.UnixPath

/-!
# Sources of uploads

The bytes of an upload come from base64 text or from a file of the host.  The
text is measured before it is decoded and after; a file goes through a chain
of checks on its path, its type, its identity and its size before it is read
from the handle that was checked.  Every system call finds the file system in
a state of its own, since other programs write to it in between.
-/

namespace RuprogressMcp

/-! ## Refusals -/

def localStorageError (context : String) : CallToolResult :=
  err .misconfigured ("the server could not " ++ context)
    (some ("this is a server configuration problem the model cannot fix; " ++
      "report it to the operator"))

def pathNotAllowed : CallToolResult :=
  err .pathNotAllowed
    ("file_path is not inside ATTACHMENTS_DIR or a directory listed in " ++
      "REDMINE_MCP_UPLOAD_FILE_ROOTS, does not exist, or is not a regular file")
    (some ("use content_base64 instead, or ask the operator to add this " ++
      "location to REDMINE_MCP_UPLOAD_FILE_ROOTS"))

def uploadTooLarge (context : String) (actual : Option ℕ) (limit : ℕ) :
    CallToolResult :=
  let (scope, hint) :=
    if limit = uploadFileMaxBytes then
      ("this server's per-file upload limit",
        "this server cannot upload a file this large; split the content or " ++
          "upload it to Redmine some other way")
    else
      ("the remaining aggregate budget for this call's uploads[]",
        "split the batch across multiple calls")
  let message :=
    match actual with
    | some actual =>
        context ++ ": the content is " ++ toString actual ++
          " bytes, larger than " ++ scope ++ " (" ++ toString limit ++ " bytes)"
    | none =>
        context ++ ": the content is larger than " ++ scope ++ " (" ++
          toString limit ++ " bytes)"
  err .fileTooLarge message (some hint)

def uploadRejectedAsTooLarge : CallToolResult :=
  err .fileTooLarge "Redmine rejected the upload as too large"
    (some ("the limit may be Redmine's own attachment_max_size setting, not " ++
      "this server's; ask the operator to check it"))

/-! ## Base64 -/

/-- The standard engine of the base64 crate: it accepts what is encoded with
the standard alphabet and padding, and has its own words for its errors. -/
structure Base64Engine where
  decode : List Char → Except String Bytes
  accepts : ∀ text bytes, decode text = .ok bytes ↔
    Base64.decode text = some bytes

/-- The estimate leaves room for the decoded bytes.  It is at most two bytes
too high, which is the slack. -/
def estimateAdmits (b64 : String) (maxBytes : ℕ) : Bool :=
  Base64.decodedLenEstimate b64.utf8ByteSize ≤ saturatingAdd maxBytes 2

def decodeUploadBase64 (engine : Base64Engine) (context b64 : String)
    (maxBytes : ℕ) : Except Base64UploadError Bytes :=
  if !estimateAdmits b64 maxBytes then
    .error (.tooLarge (uploadTooLarge context none maxBytes))
  else
    match engine.decode b64.toList with
    | .error e => .error (.malformed e)
    | .ok decoded =>
        if maxBytes < decoded.length then
          .error (.tooLarge
            (uploadTooLarge context (some decoded.length) maxBytes))
        else .ok decoded

/-- The bytes that are set aside for decoding, if it gets that far. -/
def decodeAllocation (b64 : String) (maxBytes : ℕ) : ℕ :=
  if estimateAdmits b64 maxBytes then
    Base64.decodedLenEstimate b64.utf8ByteSize
  else 0

/-- A text in memory, which is shorter than the address space. -/
structure HeldText where
  text : String
  fits : text.utf8ByteSize < 2 ^ 63

/-! ## Files -/

/-- A device number and an inode number. -/
abbrev FileId := ℕ × ℕ

structure FileSystem where
  canonicalize : List Char → Option (List Char)
  lookup : List Char → Option FileId
  isFile : FileId → Bool
  contents : FileId → Bytes

inductive SystemCall where
  | canonicalize
  | canonicalizeRoot (idx : ℕ)
  | metadata
  | openFile
  | fstat
  | metadataAgain
  | readToEnd
deriving DecidableEq

/-- What the system calls of one read find: the file system as it is at that
moment, or a failure.  `toStr` is the text of a file name, if it is UTF-8. -/
structure FileHistory where
  state : SystemCall → FileSystem
  fails : SystemCall → Bool
  toStr : List Char → Option String

structure Metadata where
  isFile : Bool
  len : ℕ
  id : FileId

def FileSystem.stat (fs : FileSystem) (id : FileId) : Metadata :=
  ⟨fs.isFile id, (fs.contents id).length, id⟩

namespace FileHistory

variable (history : FileHistory)

def answer {α : Type} (call : SystemCall) (result : FileSystem → Option α) :
    Option α :=
  if history.fails call then none else result (history.state call)

def canonicalize (path : List Char) : Option (List Char) :=
  history.answer .canonicalize fun fs => fs.canonicalize path

def metadata (call : SystemCall) (path : List Char) : Option Metadata :=
  history.answer call fun fs => (fs.lookup path).map fs.stat

def openFile (path : List Char) : Option FileId :=
  history.answer .openFile fun fs => fs.lookup path

def fstat (handle : FileId) : Option Metadata :=
  history.answer .fstat fun fs => some (fs.stat handle)

def readToEnd (handle : FileId) : Option Bytes :=
  history.answer .readToEnd fun fs => some (fs.contents handle)

/-- The canonical path lies in one of the directories. -/
def allows (roots : List (List Char)) (canonical : List Char) : Bool :=
  roots.zipIdx.any fun root =>
    ((history.answer (.canonicalizeRoot root.2) fun fs =>
      fs.canonicalize root.1).map (UnixPath.startsWith canonical)).getD false

end FileHistory

section Checks

variable {ε α : Type}

def okOr (refusal : ε) : Option α → Except ε α
  | some value => .ok value
  | none => .error refusal

def ensure (refusal : ε) (holds : Bool) : Except ε Unit :=
  if holds then .ok () else .error refusal

theorem okOr_eq_ok_iff {refusal : ε} {value : Option α} {result : α} :
    okOr refusal value = .ok result ↔ value = some result := by
  cases value <;> simp [okOr]

theorem ensure_eq_ok_iff {refusal : ε} {holds : Bool} {result : Unit} :
    ensure refusal holds = .ok result ↔ holds = true := by
  cases holds <;> simp [ensure]

end Checks

def readAndValidateUploadPath (roots : List (List Char)) (storeDir : List Char)
    (history : FileHistory) (context : String) (maxBytes : ℕ) (raw : String) :
    Except CallToolResult (Bytes × Option String) := do
  ensure pathNotAllowed (UnixPath.isAbsolute raw.toList)
  let canonical ← okOr pathNotAllowed (history.canonicalize raw.toList)
  ensure pathNotAllowed (history.allows (roots ++ [storeDir]) canonical)
  let preOpenMeta ← okOr pathNotAllowed (history.metadata .metadata canonical)
  ensure pathNotAllowed preOpenMeta.isFile
  ensure (uploadTooLarge context (some preOpenMeta.len) maxBytes)
    (preOpenMeta.len ≤ maxBytes)
  let handle ← okOr pathNotAllowed (history.openFile canonical)
  let handleMeta ← okOr pathNotAllowed (history.fstat handle)
  ensure pathNotAllowed handleMeta.isFile
  let pathMeta ← okOr pathNotAllowed (history.metadata .metadataAgain canonical)
  ensure pathNotAllowed (pathMeta.id = handleMeta.id)
  ensure (uploadTooLarge context (some handleMeta.len) maxBytes)
    (handleMeta.len ≤ maxBytes)
  let contents ← okOr (localStorageError "read the requested file_path")
    (history.readToEnd handle)
  return (contents, (UnixPath.fileName canonical).bind history.toStr)

/-! ## What an accepted file has passed -/

/-- Every check before the read is passed, with this path and this handle. -/
structure Admitted (roots : List (List Char)) (storeDir : List Char)
    (history : FileHistory) (maxBytes : ℕ) (raw : String)
    (canonical : List Char) (handle : FileId) : Prop where
  absolute : UnixPath.isAbsolute raw.toList = true
  canonicalized : history.canonicalize raw.toList = some canonical
  allowed : history.allows (roots ++ [storeDir]) canonical = true
  checked : ∃ preOpenMeta, history.metadata .metadata canonical = some preOpenMeta ∧
    preOpenMeta.isFile = true ∧ preOpenMeta.len ≤ maxBytes
  opened : history.openFile canonical = some handle
  stats : ∃ handleMeta, history.fstat handle = some handleMeta ∧
    handleMeta.isFile = true ∧ handleMeta.len ≤ maxBytes
  same : ∃ pathMeta, history.metadata .metadataAgain canonical = some pathMeta ∧
    pathMeta.id = handle

theorem fstat_id {history : FileHistory} {handle : FileId} {handleMeta : Metadata}
    (hfstat : history.fstat handle = some handleMeta) : handleMeta.id = handle := by
  simp only [FileHistory.fstat, FileHistory.answer, Option.ite_none_left_eq_some,
    Option.some.injEq] at hfstat
  rw [← hfstat.2]
  rfl

theorem readAndValidateUploadPath_eq_ok_iff
    {roots : List (List Char)} {storeDir : List Char} {history : FileHistory}
    {context : String} {maxBytes : ℕ} {raw : String} {contents : Bytes}
    {inferred : Option String} :
    readAndValidateUploadPath roots storeDir history context maxBytes raw =
        .ok (contents, inferred) ↔
      ∃ canonical handle,
        Admitted roots storeDir history maxBytes raw canonical handle ∧
        history.readToEnd handle = some contents ∧
        inferred = (UnixPath.fileName canonical).bind history.toStr := by
  simp only [readAndValidateUploadPath, bind_eq_ok_iff, okOr_eq_ok_iff,
    ensure_eq_ok_iff, decide_eq_true_eq, pure, Except.pure, Except.ok.injEq,
    Prod.mk.injEq]
  constructor
  · rintro ⟨_, habsolute, canonical, hcanonical, _, hallowed, preOpenMeta, hpre,
      _, hprefile, _, hprelen, handle, hopened, handleMeta, hfstat, _, hfile,
      pathMeta, hpath, _, hsame, _, hlen, _, hread, rfl, hinferred⟩
    refine ⟨canonical, handle, ?_, hread, hinferred.symm⟩
    constructor
    · exact habsolute
    · exact hcanonical
    · exact hallowed
    · exact ⟨preOpenMeta, hpre, hprefile, hprelen⟩
    · exact hopened
    · exact ⟨handleMeta, hfstat, hfile, hlen⟩
    · exact ⟨pathMeta, hpath, hsame.trans (fstat_id hfstat)⟩
  · rintro ⟨canonical, handle, hadmitted, hread, hinferred⟩
    obtain ⟨preOpenMeta, hpre, hprefile, hprelen⟩ := hadmitted.checked
    obtain ⟨handleMeta, hfstat, hfile, hlen⟩ := hadmitted.stats
    obtain ⟨pathMeta, hpath, hsame⟩ := hadmitted.same
    exact ⟨(), hadmitted.absolute, canonical, hadmitted.canonicalized, (),
      hadmitted.allowed, preOpenMeta, hpre, (), hprefile, (), hprelen, handle,
      hadmitted.opened, handleMeta, hfstat, (), hfile, pathMeta, hpath, (),
      hsame.trans (fstat_id hfstat).symm, (), hlen, contents, hread, rfl,
      hinferred.symm⟩

/-- When its handle was checked, an admitted file was within the limit. -/
theorem Admitted.len_le
    {roots : List (List Char)} {storeDir : List Char} {history : FileHistory}
    {maxBytes : ℕ} {raw : String} {canonical : List Char} {handle : FileId}
    (hadmitted : Admitted roots storeDir history maxBytes raw canonical handle) :
    ((history.state .fstat).contents handle).length ≤ maxBytes := by
  obtain ⟨handleMeta, hfstat, -, hlen⟩ := hadmitted.stats
  simp only [FileHistory.fstat, FileHistory.answer, Option.ite_none_left_eq_some,
    Option.some.injEq] at hfstat
  rw [← hfstat.2] at hlen
  exact hlen

/-! ## What an accepted text decodes to -/

section Decoding

variable (engine : Base64Engine) {b64 : String} {bytes : Bytes} {maxBytes : ℕ}

theorem estimate_of_decode (hdecode : engine.decode b64.toList = .ok bytes) :
    bytes.length ≤ Base64.decodedLenEstimate b64.utf8ByteSize ∧
      Base64.decodedLenEstimate b64.utf8ByteSize ≤ bytes.length + 2 := by
  have htext := Base64.decode_eq_some_iff.mp ((engine.accepts _ _).mp hdecode)
  rw [RustText.utf8ByteSize_eq_byteLen, htext, Base64.byteLen_encode]
  exact Base64.estimate_encode bytes

/-- A text whose bytes are within the limit passes the estimate, as long as
its own estimate is a machine number. -/
theorem estimateAdmits_of_decode
    (hdecode : engine.decode b64.toList = .ok bytes)
    (hlen : bytes.length ≤ maxBytes)
    (hfits : Base64.decodedLenEstimate b64.utf8ByteSize < 2 ^ 64) :
    estimateAdmits b64 maxBytes = true := by
  have hestimate := (estimate_of_decode engine hdecode).2
  apply decide_eq_true
  rw [saturatingAdd]
  omega

theorem decode_of_decodeUploadBase64 {context : String}
    (hok : decodeUploadBase64 engine context b64 maxBytes = .ok bytes) :
    engine.decode b64.toList = .ok bytes ∧ bytes.length ≤ maxBytes := by
  unfold decodeUploadBase64 at hok
  split at hok
  · cases hok
  split at hok
  · cases hok
  rename_i decoded hdecode
  split at hok
  · cases hok
  · rename_i hlen
    cases hok
    exact ⟨hdecode, Nat.le_of_not_lt hlen⟩

theorem decodeUploadBase64_of_decode (context : String)
    (hdecode : engine.decode b64.toList = .ok bytes)
    (hlen : bytes.length ≤ maxBytes)
    (hfits : Base64.decodedLenEstimate b64.utf8ByteSize < 2 ^ 64) :
    decodeUploadBase64 engine context b64 maxBytes = .ok bytes := by
  have hadmits := estimateAdmits_of_decode engine hdecode hlen hfits
  simp only [decodeUploadBase64, hadmits, Bool.not_true, Bool.false_eq_true,
    if_false, hdecode, if_neg (Nat.not_lt.mpr hlen)]

theorem HeldText.estimate_lt (b64 : HeldText) :
    Base64.decodedLenEstimate b64.text.utf8ByteSize < 2 ^ 64 := by
  have hfits := b64.fits
  unfold Base64.decodedLenEstimate
  omega

/-- The check of a text is exact: a text is accepted when it decodes to bytes
within the limit, and the estimate refuses none of these texts and sets aside
at most two bytes more than the limit. -/
theorem decodeUploadBase64_exact
    (engine : Base64Engine) (context : String) (b64 : HeldText)
    (maxBytes : UInt64) :
    (∀ bytes,
      decodeUploadBase64 engine context b64.text maxBytes.toNat = .ok bytes ↔
        engine.decode b64.text.toList = .ok bytes ∧
          bytes.length ≤ maxBytes.toNat) ∧
      (∀ bytes, engine.decode b64.text.toList = .ok bytes →
        bytes.length ≤ maxBytes.toNat →
        estimateAdmits b64.text maxBytes.toNat = true) ∧
      decodeAllocation b64.text maxBytes.toNat ≤ maxBytes.toNat + 2 := by
  refine ⟨?_, ?_, ?_⟩
  · intro bytes
    constructor
    · exact decode_of_decodeUploadBase64 engine
    · rintro ⟨hdecode, hlen⟩
      exact decodeUploadBase64_of_decode engine context hdecode hlen
        b64.estimate_lt
  · intro bytes hdecode hlen
    exact estimateAdmits_of_decode engine hdecode hlen b64.estimate_lt
  · unfold decodeAllocation
    split
    · rename_i hadmits
      have hle := of_decide_eq_true hadmits
      rw [saturatingAdd] at hle
      omega
    · exact Nat.zero_le _

end Decoding

namespace Sample

/-- An engine that names no offset in its errors. -/
def base64Engine : Base64Engine where
  decode text :=
    match Base64.decode text with
    | some bytes => .ok bytes
    | none => .error "Invalid padding"
  accepts text bytes := by
    cases Base64.decode text <;> simp

theorem zeros_decoded :
    decodeUploadBase64 base64Engine "upload_file" "AAAAAA==" 4 =
      .ok [0, 0, 0, 0] :=
  ((decodeUploadBase64_exact base64Engine "upload_file"
    ⟨"AAAAAA==", by decide⟩ 4).1 [0, 0, 0, 0]).mpr ⟨rfl, by decide⟩

end Sample

end RuprogressMcp
