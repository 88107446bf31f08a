import RuprogressMcp.UploadRequests

/-!
# What the uploads of a call keep in memory

Every item is resolved under a limit, the smaller of what is left for the call
and of what one file may take, and the items together stay below the limit of
the call if each keeps its own.  The size of a file is looked at twice before
the file is read, and the read goes on to the end of what is there by then.
-/

namespace RuprogressMcp

namespace UploadWorld

/-- An item that the first pass resolved, with the bytes that were left for
the call and the limit that it was resolved under. -/
structure ResolveStep where
  idx : ℕ
  item : IssueUploadParams
  remaining : ℕ
  maxBytes : ℕ
  resolved : ResolvedUpload

/-- The steps of the first pass, up to the first refusal. -/
def resolveSteps (world : UploadWorld) :
    ℕ → ℕ → List IssueUploadParams → List ResolveStep
  | _, _, [] => []
  | idx, remaining, item :: rest =>
      let maxBytes := min remaining uploadFileMaxBytes
      match resolveIssueUpload world.source idx item maxBytes with
      | .error _ => []
      | .ok resolved =>
          ⟨idx, item, remaining, maxBytes, resolved⟩ ::
            resolveSteps world (idx + 1) (remaining - resolved.bytes.length) rest

/-- The steps of a call, which resolves nothing when it has too many items. -/
def callSteps (world : UploadWorld) (uploads : Option (List IssueUploadParams)) :
    List ResolveStep :=
  if 10 < (uploads.getD []).length then []
  else world.resolveSteps 0 issueUploadsMaxTotalBytes (uploads.getD [])

/-- Every item is within the limit that it was given, so nothing is lost from
the bytes that are left, and the bytes are within the limits of a file and of
the call. -/
structure WithinLimits (steps : List ResolveStep) : Prop where
  item : ∀ step ∈ steps, step.resolved.bytes.length ≤ step.maxBytes
  remaining : ∀ step ∈ steps, step.resolved.bytes.length ≤ step.remaining
  file : ∀ step ∈ steps, step.resolved.bytes.length ≤ uploadFileMaxBytes
  call : (steps.map fun step => step.resolved.bytes.length).sum ≤
    issueUploadsMaxTotalBytes

/-- The item is a file that passed every check, and it was longer when it was
read than the limit that its checks were made with. -/
def Outgrows (world : UploadWorld) (step : ResolveStep) : Prop :=
  ∃ raw canonical handle contents,
    step.item.filePath = some raw ∧
      Admitted world.roots world.storeDir (world.files (context step.idx))
        step.maxBytes raw canonical handle ∧
      (world.files (context step.idx)).readToEnd handle = some contents ∧
      step.maxBytes < contents.length

/-! ## Steps -/

variable {world : UploadWorld} {idx remaining : ℕ}
  {items : List IssueUploadParams} {step : ResolveStep}

theorem step_of_mem (hmem : step ∈ world.resolveSteps idx remaining items) :
    step.maxBytes = min step.remaining uploadFileMaxBytes ∧
      world.ResolvesTo step.idx step.maxBytes step.item step.resolved := by
  induction items generalizing idx remaining with
  | nil => cases hmem
  | cons item rest ih =>
      unfold resolveSteps at hmem
      cases hresolve : resolveIssueUpload world.source idx item
          (min remaining uploadFileMaxBytes) with
      | error refusal =>
          simp only [hresolve] at hmem
          cases hmem
      | ok resolved =>
          simp only [hresolve] at hmem
          rcases List.mem_cons.mp hmem with rfl | hrest
          · exact ⟨rfl, .of_ok hresolve⟩
          · exact ih hrest

/-- An item exceeds its limit only as a file that has grown. -/
theorem length_le_iff
    {maxBytes : ℕ} {item : IssueUploadParams} {resolved : ResolvedUpload}
    (hresolves : world.ResolvesTo idx maxBytes item resolved) :
    resolved.bytes.length ≤ maxBytes ↔
      ¬ world.Outgrows ⟨idx, item, remaining, maxBytes, resolved⟩ := by
  cases hresolves with
  | base64 hcontent hpath hurl hfilename hdecode hlen =>
      refine iff_of_true hlen ?_
      rintro ⟨raw, _, _, _, hraw, -⟩
      rw [hpath] at hraw
      cases hraw
  | @file raw canonical handle contents hcontent hpath hurl hadmitted hread =>
      constructor
      · rintro hle ⟨other, path, opened, found, hother, hagain, hfound, hlong⟩
        cases hpath.symm.trans hother
        cases hadmitted.canonicalized.symm.trans hagain.canonicalized
        cases hadmitted.opened.symm.trans hagain.opened
        cases hread.symm.trans hfound
        exact absurd hle (Nat.not_le.mpr hlong)
      · intro hnot
        refine Nat.le_of_not_lt fun hlong => hnot ?_
        exact ⟨raw, canonical, handle, contents, hpath, hadmitted, hread, hlong⟩

/-- Items within their limits never take more than what was left. -/
theorem sum_resolveSteps_le
    (hitems : ∀ step ∈ world.resolveSteps idx remaining items,
      step.resolved.bytes.length ≤ step.maxBytes) :
    ((world.resolveSteps idx remaining items).map fun step =>
      step.resolved.bytes.length).sum ≤ remaining := by
  induction items generalizing idx remaining with
  | nil => exact Nat.zero_le _
  | cons item rest ih =>
      unfold resolveSteps at hitems ⊢
      cases hresolve : resolveIssueUpload world.source idx item
          (min remaining uploadFileMaxBytes) with
      | error refusal =>
          simp only [hresolve]
          exact Nat.zero_le _
      | ok resolved =>
          simp only [hresolve] at hitems ⊢
          have hfirst : resolved.bytes.length ≤ min remaining uploadFileMaxBytes :=
            hitems _ List.mem_cons_self
          have hrest := ih fun step hstep =>
            hitems step (List.mem_cons_of_mem _ hstep)
          rw [List.map_cons, List.sum_cons]
          change resolved.bytes.length + _ ≤ remaining
          omega

/-- The steps are those of the first pass. -/
theorem resolveSteps_of_ok {resolved : List ResolvedUpload}
    (hresolve : resolveIssueUploads world.source idx remaining items =
      .ok resolved) :
    (world.resolveSteps idx remaining items).map ResolveStep.resolved =
      resolved := by
  induction items generalizing idx remaining resolved with
  | nil =>
      cases hresolve
      rfl
  | cons item rest ih =>
      obtain ⟨first, hfirst, hresolve⟩ := bind_eq_ok_iff.mp hresolve
      obtain ⟨later, hlater, hresolve⟩ := bind_eq_ok_iff.mp hresolve
      cases hresolve
      unfold resolveSteps
      simp only [hfirst, List.map_cons, ih hlater]

/-! ## Calls -/

theorem WithinLimits.of_items
    {uploads : Option (List IssueUploadParams)}
    (hitems : ∀ step ∈ world.callSteps uploads,
      step.resolved.bytes.length ≤ step.maxBytes) :
    WithinLimits (world.callSteps uploads) := by
  have hmax : ∀ step ∈ world.callSteps uploads,
      step.maxBytes = min step.remaining uploadFileMaxBytes := by
    intro step hmem
    unfold callSteps at hmem
    split at hmem
    · cases hmem
    · exact (step_of_mem hmem).1
  constructor
  · exact hitems
  · intro step hmem
    have hle := hitems step hmem
    rw [hmax step hmem] at hle
    exact hle.trans (min_le_left _ _)
  · intro step hmem
    have hle := hitems step hmem
    rw [hmax step hmem] at hle
    exact hle.trans (min_le_right _ _)
  · unfold callSteps at hitems ⊢
    split
    · exact Nat.zero_le _
    · rename_i hcount
      rw [if_neg hcount] at hitems
      exact sum_resolveSteps_le hitems

/-- The limits hold in a call exactly when none of its files grows beyond its
limit between the checks and the read. -/
theorem uploads_within_limits_iff
    (world : UploadWorld) (uploads : Option (List IssueUploadParams)) :
    WithinLimits (world.callSteps uploads) ↔
      ∀ step ∈ world.callSteps uploads, ¬ world.Outgrows step := by
  have hresolves : ∀ step ∈ world.callSteps uploads,
      world.ResolvesTo step.idx step.maxBytes step.item step.resolved := by
    intro step hmem
    unfold callSteps at hmem
    split at hmem
    · cases hmem
    · exact (step_of_mem hmem).2
  constructor
  · intro hwithin step hmem
    exact (length_le_iff (hresolves step hmem)).mp (hwithin.item step hmem)
  · intro hnone
    apply WithinLimits.of_items
    intro step hmem
    exact (length_le_iff (hresolves step hmem)).mpr (hnone step hmem)

/-! ## A file that grows -/

namespace Sample

/-- Another program writes to the file after its handle was checked. -/
def growingContents (grown : Bytes) : SystemCall → Bytes
  | .readToEnd => grown
  | _ => [0]

def growingFile (grown : Bytes) : FileHistory where
  state call := {
    canonicalize := some
    lookup := fun _ => some (1, 7)
    isFile := fun _ => true
    contents := fun _ => growingContents grown call }
  fails _ := false
  toStr name := some (String.ofList name)

def growing (grown : Bytes) : UploadWorld where
  roots := []
  storeDir := "/srv/attachments".toList
  engine := RuprogressMcp.Sample.base64Engine
  files _ := growingFile grown
  server _ _ := .error .transport
  displayStatus status := toString status

def growingItem : IssueUploadParams where
  filename := none
  contentBase64 := none
  filePath := some "/srv/attachments/report.log"
  sourceUrl := none
  description := none

theorem growing_admitted (grown : Bytes) :
    Admitted (growing grown).roots (growing grown).storeDir
      ((growing grown).files (context 0)) uploadFileMaxBytes
      "/srv/attachments/report.log" "/srv/attachments/report.log".toList
      (1, 7) where
  absolute := by decide
  canonicalized := rfl
  allowed := by rfl
  checked := ⟨⟨true, 1, (1, 7)⟩, rfl, rfl, by decide⟩
  opened := rfl
  stats := ⟨⟨true, 1, (1, 7)⟩, rfl, rfl, by decide⟩
  same := ⟨⟨true, 1, (1, 7)⟩, rfl, rfl⟩

theorem not_withinLimits_growing
    {grown : Bytes} (hlong : uploadFileMaxBytes < grown.length) :
    ¬ WithinLimits ((growing grown).callSteps (some [growingItem])) := by
  have hresolves : (growing grown).ResolvesTo 0 uploadFileMaxBytes growingItem
      ⟨grown, _, none⟩ :=
    .file rfl rfl rfl (growing_admitted grown) rfl
  have hlimit : min issueUploadsMaxTotalBytes uploadFileMaxBytes =
      uploadFileMaxBytes := by decide
  have hresolve := hresolves.ok le_rfl
  intro hwithin
  have hstep : ∀ step ∈ (growing grown).callSteps (some [growingItem]),
      step.resolved.bytes.length ≤ step.maxBytes := hwithin.item
  unfold callSteps resolveSteps at hstep
  rw [if_neg (by decide)] at hstep
  simp only [Option.getD_some, hlimit, hresolve] at hstep
  exact absurd (hstep _ List.mem_cons_self) (Nat.not_le.mpr hlong)

theorem growing_file_exceeds_its_limit :
    ¬ WithinLimits ((growing (List.replicate (uploadFileMaxBytes + 1) 0)).callSteps
      (some [growingItem])) := by
  apply not_withinLimits_growing
  rw [List.length_replicate]
  exact Nat.lt_succ_self _

end Sample

end UploadWorld

end RuprogressMcp
