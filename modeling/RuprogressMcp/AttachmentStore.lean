import RuprogressMcp.RustText
import RuprogressMcp.TableTotals
import RuprogressMcp.ToolOutput
import RuprogressMcp.TransitionRuns

/-!
# The local attachment store

Downloads, lookups and sweeps that share one store.  The quota and the index
live in memory behind one lock; the files live in one directory per UUID.  A
step is one section under the lock or one operation on the file system, so
every interleaving of the tasks is a sequence of steps.  Dropping the future
of a download releases its quota at once, while a file system operation that
it was waiting for may still complete.
-/

namespace RuprogressMcp

namespace Attachments

/-- The text of a UUID, which is also the name of its directory. -/
abbrev Uuid : Type := String

/-! ## Names -/

def maxBasenameLen : ℕ := 200

/-- The components of a Unix path that name an entry of a directory. -/
def normalComponents (name : String) : List (List Char) :=
  (name.toList.splitOn '/').filter fun part => part ∉ [[], ['.'], ['.', '.']]

def sanitizeBasename (name : String) : String :=
  let raw := (normalComponents name).getLast?.getD []
  let cleaned := raw.filter fun c => !RustText.isControl c
  let truncated := (RustText.trim cleaned).take maxBasenameLen
  if truncated.isEmpty then "attachment" else String.ofList truncated

inductive Target where
  | uuidDir (uuid : Uuid)
  | storeDir
deriving DecidableEq

def Target.covers : Target → Uuid → Bool
  | .uuidDir uuid, other => uuid == other
  | .storeDir, _ => true

/-- The UUID directory joined with a name. -/
structure EntryPath where
  uuid : Uuid
  name : String
deriving DecidableEq

namespace EntryPath

/-- A last component `.` is not a component, so the parent of such a path is
the parent of the UUID directory. -/
def parent (path : EntryPath) : Target :=
  if path.name = "." then .storeDir else .uuidDir path.uuid

def fileName (path : EntryPath) : Option String :=
  if path.name = "." then some path.uuid
  else if path.name = ".." then none
  else some path.name

/-- The path does not name a directory. -/
def creatable (path : EntryPath) : Bool :=
  path.name ≠ "." && path.name ≠ ".."

end EntryPath

/-! ## The index and the quota -/

structure Limits where
  expiresAfter : ℕ
  maxDownloadBytes : ℕ
  maxStoreBytes : ℕ
  /-- The latest point in time that a calendar date can hold. -/
  maxUtc : ℕ

structure StoredFile where
  uuid : Uuid
  attachmentId : ℕ
  filename : String
  contentType : Option String
  size : ℕ
  path : EntryPath
  expiresAt : ℕ
  createdAt : ℕ
deriving DecidableEq

structure Inner where
  entries : Table Uuid StoredFile
  inFlight : ℕ

namespace Inner

/-- A sum of `u64` values, which wraps. -/
def committedLocked (inner : Inner) : ℕ :=
  inner.entries.total (·.size) % 2 ^ 64

/-- The admission rule of `try_reserve` and `extend`: whether `additional`
bytes fit, and the state after the attempt. -/
def admits (limits : Limits) (inner : Inner) (additional : ℕ) : Bool × Inner :=
  let projected :=
    saturatingAdd (saturatingAdd inner.committedLocked inner.inFlight) additional
  if limits.maxStoreBytes < projected then (false, inner)
  else (true, { inner with inFlight := saturatingAdd inner.inFlight additional })

/-- The drop of an armed guard. -/
def release (inner : Inner) (bytes : ℕ) : Inner :=
  { inner with inFlight := inner.inFlight - bytes }

def commit (inner : Inner) (stored : StoredFile) (bytes : ℕ) : Inner where
  entries := inner.entries.insert stored.uuid stored
  inFlight := inner.inFlight - bytes

def isExpired (limits : Limits) (now : ℕ) (inner : Inner) (id : Uuid) : Bool :=
  (inner.entries.lookup id).any fun stored =>
    limits.expiresAfter ≤ now - stored.createdAt

def get (limits : Limits) (now : ℕ) (inner : Inner) (id : Uuid) :
    Option StoredFile :=
  if inner.isExpired limits now id then none else inner.entries.lookup id

def removeAll (inner : Inner) (uuids : List Uuid) : Inner :=
  { inner with
    entries := uuids.foldl (fun entries uuid => entries.erase uuid) inner.entries }

end Inner

/-! ## The directory -/

/-- A file under the store directory.  The writer runs behind the task: bytes
handed to it reach the disk later, or never. -/
structure DiskFile where
  size : ℕ
  handed : ℕ
deriving DecidableEq

structure Directory where
  mtime : ℕ
  file : Option DiskFile
deriving DecidableEq

abbrev Disk : Type := Table Uuid Directory

namespace Disk

def makeDir (now : ℕ) (disk : Disk) (uuid : Uuid) : Disk :=
  if uuid ∈ disk then disk else disk.insert uuid ⟨now, none⟩

/-- `File::create` in a directory that exists. -/
def createFile (now : ℕ) (disk : Disk) (uuid : Uuid) : Disk :=
  Table.modify uuid (fun dir =>
    ⟨if dir.file.isNone then now else dir.mtime, some ⟨0, 0⟩⟩) disk

/-- The open file of a download has been handed this many bytes. -/
def hand (disk : Disk) (uuid : Uuid) (handed : ℕ) : Disk :=
  Table.modify uuid (fun dir =>
    { dir with file := dir.file.map fun file => { file with handed := handed } }) disk

def fileAt (disk : Disk) (uuid : Uuid) : Option DiskFile :=
  (AList.lookup uuid disk).bind (·.file)

/-- The total size of the files under the store directory. -/
def bytes (disk : Disk) : ℕ :=
  Table.total (fun dir => (dir.file.map (·.size)).getD 0) disk

end Disk

/-! ## Downloads -/

/-- What a download waits for.  `dropping` is the end of the function, where
the reservation goes out of scope. -/
inductive DownloadPhase where
  | reserving | requesting | creating | streaming | aborting | dropping | finished
deriving DecidableEq

/-- A reservation and the task that fills it.  Once its guard is no longer
armed only the file system operation that was under way can still happen. -/
structure Download where
  uuid : Uuid
  attachmentId : ℕ
  name : String
  contentType : Option String
  bytes : ℕ
  armed : Bool
  written : ℕ
  phase : DownloadPhase
deriving DecidableEq

def Download.path (download : Download) : EntryPath :=
  ⟨download.uuid, download.name⟩

structure DownloadRequest where
  attachmentId : ℕ
  filename : String
  contentType : Option String
  bytes : ℕ

/-- The reservation of an admitted request. -/
def DownloadRequest.reservation (request : DownloadRequest) (uuid : Uuid) :
    Download where
  uuid := uuid
  attachmentId := request.attachmentId
  name := sanitizeBasename request.filename
  contentType := request.contentType
  bytes := request.bytes
  armed := true
  written := 0
  phase := .reserving

/-- How `create_dir_all` and the change of permissions after it end. -/
inductive MakeDirOutcome where
  | failed | unrestricted | made
deriving DecidableEq

inductive Progress where
  | makeDir (outcome : MakeDirOutcome)
  | answer (success : Bool)
  | createFile (success : Bool)
  | chunk (length : ℕ)
  | fail
  | commit
  | abortReturns
  | drop
  | cancel

/-- The state of a download and of what it shares with others, after a step. -/
structure DownloadEffect where
  download : Download
  inner : Inner
  disk : Disk
  returned : List StoredFile

namespace Download

def stored (limits : Limits) (now : ℕ) (download : Download) : StoredFile where
  uuid := download.uuid
  attachmentId := download.attachmentId
  filename := download.path.fileName.getD "attachment"
  contentType := download.contentType
  size := download.written
  path := download.path
  expiresAt := min (now + limits.expiresAfter) limits.maxUtc
  createdAt := now

/-- A task that was dropped does not go on. -/
def goOn (download : Download) (phase : DownloadPhase) : Download :=
  { download with phase := if download.armed then phase else .finished }

/-- The guard is dropped or disarmed, and the task is over. -/
def disarmed (download : Download) : Download :=
  { download with armed := false, phase := .finished }

/-- Dropping the future leaves a pending file system operation behind. -/
def cancelled (download : Download) : Download :=
  { download with
    armed := false
    phase := match download.phase with
      | .reserving => .reserving
      | .creating => .creating
      | .aborting => .aborting
      | _ => .finished }

/-- A chunk of the stream: the caps are checked before it is written. -/
def receive (limits : Limits) (inner : Inner) (download : Download) (length : ℕ) :
    Download × Inner :=
  let written := saturatingAdd download.written length
  if limits.maxDownloadBytes < written then
    ({ download with phase := .aborting }, inner)
  else if download.bytes < written then
    let deficit := written - download.bytes
    match inner.admits limits deficit with
    | (true, inner) =>
        ({ download with
            written := written
            bytes := saturatingAdd download.bytes deficit }, inner)
    | (false, inner) => ({ download with phase := .aborting }, inner)
  else ({ download with written := written }, inner)

def advance (limits : Limits) (now : ℕ) (inner : Inner) (disk : Disk)
    (download : Download) : Progress → Option DownloadEffect
  | .makeDir outcome =>
      if download.phase = .reserving then
        match outcome with
        | .failed => some ⟨download.goOn .dropping, inner, disk, []⟩
        | .unrestricted =>
            some ⟨download.goOn .dropping, inner, disk.makeDir now download.uuid, []⟩
        | .made =>
            some ⟨download.goOn .requesting, inner, disk.makeDir now download.uuid, []⟩
      else none
  | .answer success =>
      if download.phase = .requesting ∧ download.armed then
        some ⟨download.goOn (if success then .creating else .aborting), inner, disk, []⟩
      else none
  | .createFile false =>
      if download.phase = .creating then
        some ⟨download.goOn .aborting, inner, disk, []⟩
      else none
  | .createFile true =>
      if download.phase = .creating ∧ download.path.creatable ∧ download.uuid ∈ disk then
        some ⟨download.goOn .streaming, inner, disk.createFile now download.uuid, []⟩
      else none
  | .chunk length =>
      if download.phase = .streaming ∧ download.armed then
        let (after, inner) := download.receive limits inner length
        some ⟨after, inner, disk.hand download.uuid after.written, []⟩
      else none
  | .fail =>
      if download.phase = .streaming ∧ download.armed then
        some ⟨download.goOn .aborting, inner, disk, []⟩
      else none
  | .commit =>
      if download.phase = .streaming ∧ download.armed then
        let stored := download.stored limits now
        some ⟨download.disarmed, inner.commit stored download.bytes, disk, [stored]⟩
      else none
  | .abortReturns =>
      if download.phase = .aborting ∧ download.armed then
        some ⟨download.goOn .dropping, inner, disk, []⟩
      else none
  | .drop =>
      if download.phase = .dropping ∧ download.armed then
        some ⟨download.disarmed, inner.release download.bytes, disk, []⟩
      else none
  | .cancel =>
      if download.phase ≠ .dropping ∧ download.armed then
        some ⟨download.cancelled, inner.release download.bytes, disk, []⟩
      else none

end Download

/-! ## Sweeps -/

inductive SweepPhase where
  | listing
  | examined (uuid : Uuid) (modified : ℕ)
  | condemned (uuid : Uuid)
  | removing (uuid : Uuid) (bytes : ℕ)
  | finished
deriving DecidableEq

structure Sweep where
  phase : SweepPhase
  expiredUuids : List Uuid
  removedFiles : ℕ
  removedBytes : ℕ
deriving DecidableEq

def Sweep.start : Sweep := ⟨.listing, [], 0, 0⟩

inductive SweepAction where
  | examine (uuid : Uuid)
  | judge
  | measure
  | removed (success : Bool)
  | finish

namespace Sweep

/-- One step of a sweep.  Entries that cannot be read are skipped. -/
def advance (limits : Limits) (now : ℕ) (inner : Inner) (disk : Disk)
    (sweep : Sweep) : SweepAction → Option (Sweep × Inner)
  | .examine uuid =>
      match sweep.phase, AList.lookup uuid disk with
      | .listing, some dir =>
          some ({ sweep with phase := .examined uuid dir.mtime }, inner)
      | _, _ => none
  | .judge =>
      match sweep.phase with
      | .examined uuid modified =>
          if now - modified < limits.expiresAfter then
            some ({ sweep with phase := .listing }, inner)
          else some ({ sweep with phase := .condemned uuid }, inner)
      | _ => none
  | .measure =>
      match sweep.phase with
      | .condemned uuid =>
          let bytes := ((disk.fileAt uuid).map (·.size)).getD 0
          some ({ sweep with phase := .removing uuid bytes }, inner)
      | _ => none
  | .removed false =>
      match sweep.phase with
      | .removing _ _ => some ({ sweep with phase := .listing }, inner)
      | _ => none
  | .removed true =>
      match sweep.phase with
      | .removing uuid bytes =>
          if uuid ∈ disk then none
          else
            some (
              { phase := .listing
                expiredUuids := sweep.expiredUuids ++ [uuid]
                removedFiles := saturatingAdd sweep.removedFiles 1
                removedBytes := saturatingAdd sweep.removedBytes bytes }, inner)
      | _ => none
  | .finish =>
      match sweep.phase with
      | .listing =>
          some ({ sweep with phase := .finished }, inner.removeAll sweep.expiredUuids)
      | _ => none

end Sweep

/-! ## The store and its steps -/

structure State where
  now : ℕ
  inner : Inner
  disk : Disk
  downloads : Table ℕ Download
  sweeps : Table ℕ Sweep
  /-- The directories that `get` is removing. -/
  removals : List Target
  /-- The UUIDs drawn so far and those found in the directory at the start. -/
  drawn : List Uuid
  returned : List StoredFile

/-- A process starts with what its predecessor left in the directory. -/
def State.initial (now : ℕ) (orphans : Disk) : State where
  now := now
  inner := ⟨∅, 0⟩
  disk := orphans
  downloads := ∅
  sweeps := ∅
  removals := []
  drawn := AList.keys orphans
  returned := []

/-- Who is in a call of `remove_dir_all`. -/
inductive Remover where
  | download (id : ℕ)
  | get (target : Target)
  | sweep (id : ℕ)
deriving DecidableEq

inductive Event where
  | elapse (duration : ℕ)
  | reserve (id : ℕ) (uuid : Uuid) (request : DownloadRequest)
  | download (id : ℕ) (progress : Progress)
  | land (uuid : Uuid) (size : ℕ)
  | get (id : Uuid)
  | unlink (remover : Remover) (uuid : Uuid)
  | rmdir (remover : Remover) (uuid : Uuid)
  | startSweep (id : ℕ)
  | sweep (id : ℕ) (action : SweepAction)

namespace State

/-- `try_reserve`, and the draw of a UUID when it succeeds. -/
def reserve (limits : Limits) (state : State) (id : ℕ) (uuid : Uuid)
    (request : DownloadRequest) : State :=
  match state.inner.admits limits request.bytes with
  | (false, inner) => { state with inner := inner }
  | (true, inner) =>
      { state with
        inner := inner
        downloads := state.downloads.insert id (request.reservation uuid)
        drawn := uuid :: state.drawn }

def get (limits : Limits) (state : State) (id : Uuid) : State :=
  if state.inner.isExpired limits state.now id then
    match state.inner.entries.lookup id with
    | some stored =>
        { state with
          inner := { state.inner with entries := state.inner.entries.erase id }
          removals := stored.path.parent :: state.removals }
    | none => state
  else state

/-- The directory that a remover is removing. -/
def removing (state : State) : Remover → Option Target
  | .download id =>
      match state.downloads.lookup id with
      | some download =>
          if download.phase = .aborting then some download.path.parent else none
      | none => none
  | .get target => if target ∈ state.removals then some target else none
  | .sweep id =>
      match state.sweeps.lookup id with
      | some sweep =>
          match sweep.phase with
          | .removing uuid _ => some (.uuidDir uuid)
          | _ => none
      | none => none

def next (limits : Limits) (state : State) : Event → Option State
  | .elapse duration => some { state with now := state.now + duration }
  | .reserve id uuid request =>
      if id ∈ state.downloads then none
      else some (state.reserve limits id uuid request)
  | .download id progress =>
      match state.downloads.lookup id with
      | some download =>
          match download.advance limits state.now state.inner state.disk progress with
          | some effect =>
              some { state with
                inner := effect.inner
                disk := effect.disk
                downloads := state.downloads.insert id effect.download
                returned := effect.returned ++ state.returned }
          | none => none
      | none => none
  | .land uuid size =>
      match AList.lookup uuid state.disk with
      | some ⟨mtime, some file⟩ =>
          if file.size ≤ size ∧ size ≤ file.handed then
            some { state with
              disk := state.disk.insert uuid ⟨mtime, some { file with size := size }⟩ }
          else none
      | _ => none
  | .get id => some (state.get limits id)
  | .unlink remover uuid =>
      match state.removing remover, AList.lookup uuid state.disk with
      | some target, some ⟨_, some _⟩ =>
          if target.covers uuid then
            some { state with disk := state.disk.insert uuid ⟨state.now, none⟩ }
          else none
      | _, _ => none
  | .rmdir remover uuid =>
      match state.removing remover, AList.lookup uuid state.disk with
      | some target, some ⟨_, none⟩ =>
          if target.covers uuid then
            some { state with disk := state.disk.erase uuid }
          else none
      | _, _ => none
  | .startSweep id =>
      if id ∈ state.sweeps then none
      else some { state with sweeps := state.sweeps.insert id Sweep.start }
  | .sweep id action =>
      match state.sweeps.lookup id with
      | some sweep =>
          match sweep.advance limits state.now state.inner state.disk action with
          | some (after, inner) =>
              some { state with
                inner := inner
                sweeps := state.sweeps.insert id after }
          | none => none
      | none => none

end State

/-! ## What a step does -/

/-- Everything that a step of a download can do. -/
inductive Advanced (limits : Limits) (now : ℕ) (inner : Inner) (disk : Disk)
    (download : Download) : Progress → DownloadEffect → Prop where
  | moved {progress : Progress} (phase : DownloadPhase)
      (hactive : download.phase ≠ .finished)
      (hphase : phase ≠ .reserving ∧ phase ≠ .streaming) :
      Advanced limits now inner disk download progress
        ⟨{ download with phase := phase }, inner, disk, []⟩
  | madeDir {progress : Progress} (phase : DownloadPhase)
      (hreserving : download.phase = .reserving)
      (hphase : phase ≠ .reserving ∧ phase ≠ .streaming) :
      Advanced limits now inner disk download progress
        ⟨{ download with phase := phase }, inner, disk.makeDir now download.uuid, []⟩
  | created {progress : Progress}
      (hcreating : download.phase = .creating)
      (hcreatable : download.path.creatable = true) (hmem : download.uuid ∈ disk) :
      Advanced limits now inner disk download progress
        ⟨download.goOn .streaming, inner, disk.createFile now download.uuid, []⟩
  | received (length : ℕ)
      (hstreaming : download.phase = .streaming) (harmed : download.armed = true) :
      Advanced limits now inner disk download (.chunk length)
        ⟨(download.receive limits inner length).1,
          (download.receive limits inner length).2,
          disk.hand download.uuid (download.receive limits inner length).1.written, []⟩
  | committed
      (hstreaming : download.phase = .streaming) (harmed : download.armed = true) :
      Advanced limits now inner disk download .commit
        ⟨download.disarmed,
          inner.commit (download.stored limits now) download.bytes, disk,
          [download.stored limits now]⟩
  | released {progress : Progress} (phase : DownloadPhase)
      (hprogress : progress = .drop ∨ progress = .cancel)
      (harmed : download.armed = true)
      (hphase : phase = .finished ∨ (phase = download.phase ∧ phase ≠ .streaming)) :
      Advanced limits now inner disk download progress
        ⟨{ download with armed := false, phase := phase },
          inner.release download.bytes, disk, []⟩

theorem Download.goOn_phase_ne
    (download : Download) {phase : DownloadPhase}
    (hphase : phase ≠ .reserving ∧ phase ≠ .streaming) :
    ∃ after, download.goOn phase = { download with phase := after } ∧
      after ≠ .reserving ∧ after ≠ .streaming := by
  refine ⟨if download.armed then phase else .finished, rfl, ?_⟩
  split
  · exact hphase
  · decide

theorem Download.advance_spec
    {limits : Limits} {now : ℕ} {inner : Inner} {disk : Disk} {download : Download}
    {progress : Progress} {effect : DownloadEffect}
    (hadvance : download.advance limits now inner disk progress = some effect) :
    Advanced limits now inner disk download progress effect := by
  have hmoved : ∀ (phase : DownloadPhase) (other : Progress),
      download.phase ≠ .finished → phase ≠ .reserving ∧ phase ≠ .streaming →
      Advanced limits now inner disk download other
        ⟨download.goOn phase, inner, disk, []⟩ := by
    intro phase other hactive hphase
    obtain ⟨after, hgoOn, hafter⟩ := download.goOn_phase_ne hphase
    rw [hgoOn]
    exact .moved after hactive hafter
  have hmadeDir : ∀ (phase : DownloadPhase) (other : Progress),
      phase ≠ .reserving ∧ phase ≠ .streaming → download.phase = .reserving →
      Advanced limits now inner disk download other
        ⟨download.goOn phase, inner, disk.makeDir now download.uuid, []⟩ := by
    intro phase other hphase hreserving
    obtain ⟨after, hgoOn, hafter⟩ := download.goOn_phase_ne hphase
    rw [hgoOn]
    exact .madeDir after hreserving hafter
  cases progress with
  | makeDir outcome =>
      simp only [Download.advance, Option.ite_none_right_eq_some] at hadvance
      obtain ⟨hreserving, hadvance⟩ := hadvance
      cases outcome with
      | failed =>
          cases hadvance
          exact hmoved _ _ (by simp [hreserving]) (by decide)
      | unrestricted =>
          cases hadvance
          exact hmadeDir _ _ (by decide) hreserving
      | made =>
          cases hadvance
          exact hmadeDir _ _ (by decide) hreserving
  | answer success =>
      simp only [Download.advance, Option.ite_none_right_eq_some] at hadvance
      obtain ⟨⟨hphase, -⟩, hadvance⟩ := hadvance
      cases hadvance
      exact hmoved _ _ (by simp [hphase]) (by cases success <;> decide)
  | createFile success =>
      cases success with
      | false =>
          simp only [Download.advance, Option.ite_none_right_eq_some] at hadvance
          obtain ⟨hphase, hadvance⟩ := hadvance
          cases hadvance
          exact hmoved _ _ (by simp [hphase]) (by decide)
      | true =>
          simp only [Download.advance, Option.ite_none_right_eq_some] at hadvance
          obtain ⟨⟨hcreating, hcreatable, hmem⟩, hadvance⟩ := hadvance
          cases hadvance
          exact .created hcreating hcreatable hmem
  | chunk length =>
      simp only [Download.advance, Option.ite_none_right_eq_some] at hadvance
      obtain ⟨⟨hstreaming, harmed⟩, hadvance⟩ := hadvance
      cases hadvance
      exact .received length hstreaming harmed
  | fail | abortReturns =>
      simp only [Download.advance, Option.ite_none_right_eq_some] at hadvance
      obtain ⟨⟨hphase, -⟩, hadvance⟩ := hadvance
      cases hadvance
      exact hmoved _ _ (by simp [hphase]) (by decide)
  | commit =>
      simp only [Download.advance, Option.ite_none_right_eq_some] at hadvance
      obtain ⟨⟨hstreaming, harmed⟩, hadvance⟩ := hadvance
      cases hadvance
      exact .committed hstreaming harmed
  | drop =>
      simp only [Download.advance, Option.ite_none_right_eq_some] at hadvance
      obtain ⟨⟨-, harmed⟩, hadvance⟩ := hadvance
      cases hadvance
      exact .released .finished (Or.inl rfl) harmed (Or.inl rfl)
  | cancel =>
      simp only [Download.advance, Option.ite_none_right_eq_some] at hadvance
      obtain ⟨⟨-, harmed⟩, hadvance⟩ := hadvance
      cases hadvance
      refine .released _ (Or.inr rfl) harmed ?_
      cases download.phase <;> simp

/-- Everything that a step of a sweep can do. -/
inductive Swept (limits : Limits) (now : ℕ) (inner : Inner) (disk : Disk)
    (sweep : Sweep) : SweepAction → Sweep × Inner → Prop where
  | examined {uuid : Uuid} {dir : Directory}
      (hphase : sweep.phase = .listing) (hdir : AList.lookup uuid disk = some dir) :
      Swept limits now inner disk sweep (.examine uuid)
        ({ sweep with phase := .examined uuid dir.mtime }, inner)
  | spared {action : SweepAction} :
      Swept limits now inner disk sweep action
        ({ sweep with phase := .listing }, inner)
  | condemned {uuid : Uuid} {modified : ℕ}
      (hphase : sweep.phase = .examined uuid modified)
      (hage : limits.expiresAfter ≤ now - modified) :
      Swept limits now inner disk sweep .judge
        ({ sweep with phase := .condemned uuid }, inner)
  | measured {uuid : Uuid} (bytes : ℕ)
      (hphase : sweep.phase = .condemned uuid) :
      Swept limits now inner disk sweep .measure
        ({ sweep with phase := .removing uuid bytes }, inner)
  | removed {uuid : Uuid} {bytes : ℕ} (files total : ℕ)
      (hphase : sweep.phase = .removing uuid bytes) (hgone : uuid ∉ disk) :
      Swept limits now inner disk sweep (.removed true)
        (⟨.listing, sweep.expiredUuids ++ [uuid], files, total⟩, inner)
  | finished (hphase : sweep.phase = .listing) :
      Swept limits now inner disk sweep .finish
        ({ sweep with phase := .finished }, inner.removeAll sweep.expiredUuids)

theorem Sweep.advance_spec
    {limits : Limits} {now : ℕ} {inner : Inner} {disk : Disk} {sweep : Sweep}
    {action : SweepAction} {after : Sweep × Inner}
    (hadvance : sweep.advance limits now inner disk action = some after) :
    Swept limits now inner disk sweep action after := by
  cases action with
  | examine uuid =>
      simp only [Sweep.advance] at hadvance
      split at hadvance
      · rename_i hphase hdir
        cases hadvance
        exact .examined hphase hdir
      · cases hadvance
  | judge =>
      simp only [Sweep.advance] at hadvance
      split at hadvance
      · rename_i hphase
        split at hadvance
        · cases hadvance
          exact .spared
        · rename_i hage
          cases hadvance
          exact .condemned hphase (not_lt.mp hage)
      · cases hadvance
  | measure =>
      simp only [Sweep.advance] at hadvance
      split at hadvance
      · rename_i hphase
        cases hadvance
        exact .measured _ hphase
      · cases hadvance
  | removed success =>
      cases success with
      | false =>
          simp only [Sweep.advance] at hadvance
          split at hadvance
          · cases hadvance
            exact .spared
          · cases hadvance
      | true =>
          simp only [Sweep.advance] at hadvance
          split at hadvance
          · rename_i hphase
            split at hadvance
            · cases hadvance
            · rename_i hgone
              cases hadvance
              exact .removed _ _ hphase hgone
          · cases hadvance
  | finish =>
      simp only [Sweep.advance] at hadvance
      split at hadvance
      · rename_i hphase
        cases hadvance
        exact .finished hphase
      · cases hadvance

theorem Inner.admits_false
    {limits : Limits} {inner after : Inner} {additional : ℕ}
    (hadmits : inner.admits limits additional = (false, after)) : after = inner := by
  unfold Inner.admits at hadmits
  simp only at hadmits
  split at hadmits
  · exact ((Prod.mk.injEq ..).mp hadmits).2.symm
  · exact absurd ((Prod.mk.injEq ..).mp hadmits).1 (by simp)

/-- Everything that a step of the store can do. -/
inductive Stepped (limits : Limits) (state : State) : Event → State → Prop where
  | elapsed (duration : ℕ) :
      Stepped limits state (.elapse duration)
        { state with now := state.now + duration }
  | refused {id : ℕ} {uuid : Uuid} {request : DownloadRequest} {inner : Inner}
      (hnew : state.downloads.lookup id = none)
      (hadmits : state.inner.admits limits request.bytes = (false, inner)) :
      Stepped limits state (.reserve id uuid request) state
  | reserved {id : ℕ} {uuid : Uuid} {request : DownloadRequest} {inner : Inner}
      (hnew : state.downloads.lookup id = none)
      (hadmits : state.inner.admits limits request.bytes = (true, inner)) :
      Stepped limits state (.reserve id uuid request)
        { state with
          inner := inner
          downloads := state.downloads.insert id (request.reservation uuid)
          drawn := uuid :: state.drawn }
  | advanced {id : ℕ} {progress : Progress} {download : Download}
      {effect : DownloadEffect}
      (hlookup : state.downloads.lookup id = some download)
      (hadvance : Advanced limits state.now state.inner state.disk download progress
        effect) :
      Stepped limits state (.download id progress)
        { state with
          inner := effect.inner
          disk := effect.disk
          downloads := state.downloads.insert id effect.download
          returned := effect.returned ++ state.returned }
  | landed {uuid : Uuid} {size mtime : ℕ} {file : DiskFile}
      (hlookup : AList.lookup uuid state.disk = some ⟨mtime, some file⟩)
      (hhanded : size ≤ file.handed) :
      Stepped limits state (.land uuid size)
        { state with
          disk := state.disk.insert uuid ⟨mtime, some { file with size := size }⟩ }
  | found {id : Uuid}
      (hlive : state.inner.isExpired limits state.now id = false) :
      Stepped limits state (.get id) state
  | expired {id : Uuid} {stored : StoredFile}
      (hlookup : state.inner.entries.lookup id = some stored)
      (hage : limits.expiresAfter ≤ state.now - stored.createdAt) :
      Stepped limits state (.get id)
        { state with
          inner := { state.inner with entries := state.inner.entries.erase id }
          removals := stored.path.parent :: state.removals }
  | unlinked {remover : Remover} {uuid : Uuid} {target : Target} {dir : Directory}
      (hremoving : state.removing remover = some target)
      (hcovers : target.covers uuid = true)
      (hlookup : AList.lookup uuid state.disk = some dir) :
      Stepped limits state (.unlink remover uuid)
        { state with disk := state.disk.insert uuid ⟨state.now, none⟩ }
  | rmdired {remover : Remover} {uuid : Uuid} {target : Target}
      (hremoving : state.removing remover = some target)
      (hcovers : target.covers uuid = true) :
      Stepped limits state (.rmdir remover uuid)
        { state with disk := state.disk.erase uuid }
  | started {id : ℕ} (hnew : state.sweeps.lookup id = none) :
      Stepped limits state (.startSweep id)
        { state with sweeps := state.sweeps.insert id Sweep.start }
  | swept {id : ℕ} {action : SweepAction} {sweep after : Sweep} {inner : Inner}
      (hlookup : state.sweeps.lookup id = some sweep)
      (hadvance : Swept limits state.now state.inner state.disk sweep action
        (after, inner)) :
      Stepped limits state (.sweep id action)
        { state with
          inner := inner
          sweeps := state.sweeps.insert id after }

theorem State.get_spec (limits : Limits) (state : State) (id : Uuid) :
    Stepped limits state (.get id) (state.get limits id) := by
  unfold State.get
  by_cases hexpired : state.inner.isExpired limits state.now id = true
  · rw [if_pos hexpired]
    cases hlookup : state.inner.entries.lookup id with
    | none => simp [Inner.isExpired, hlookup] at hexpired
    | some stored =>
        have hage : limits.expiresAfter ≤ state.now - stored.createdAt := by
          simpa [Inner.isExpired, hlookup] using hexpired
        exact .expired hlookup hage
  · rw [if_neg hexpired]
    exact .found (by simpa using hexpired)

theorem State.next_spec
    {limits : Limits} {state after : State} {event : Event}
    (hnext : state.next limits event = some after) :
    Stepped limits state event after := by
  cases event with
  | elapse duration =>
      cases hnext
      exact .elapsed duration
  | reserve id uuid request =>
      simp only [State.next, Option.ite_none_left_eq_some] at hnext
      obtain ⟨hnotMem, hnext⟩ := hnext
      have hnew : state.downloads.lookup id = none := AList.lookup_eq_none.mpr hnotMem
      cases hnext
      unfold State.reserve
      cases hadmits : state.inner.admits limits request.bytes with
      | mk admitted inner =>
          cases admitted with
          | false =>
              simp only [Inner.admits_false hadmits]
              exact .refused hnew hadmits
          | true => exact .reserved hnew hadmits
  | download id progress =>
      simp only [State.next] at hnext
      split at hnext
      · rename_i hlookup
        split at hnext
        · rename_i hadvance
          cases hnext
          exact .advanced hlookup (Download.advance_spec hadvance)
        · cases hnext
      · cases hnext
  | land uuid size =>
      simp only [State.next] at hnext
      split at hnext
      · rename_i hlookup
        simp only [Option.ite_none_right_eq_some] at hnext
        obtain ⟨⟨-, hhanded⟩, hnext⟩ := hnext
        cases hnext
        exact .landed hlookup hhanded
      · cases hnext
  | get id =>
      cases hnext
      exact state.get_spec limits id
  | unlink remover uuid =>
      simp only [State.next] at hnext
      split at hnext
      · rename_i hremoving hlookup
        simp only [Option.ite_none_right_eq_some] at hnext
        obtain ⟨hcovers, hnext⟩ := hnext
        cases hnext
        exact .unlinked hremoving hcovers hlookup
      · cases hnext
  | rmdir remover uuid =>
      simp only [State.next] at hnext
      split at hnext
      · rename_i hremoving hlookup
        simp only [Option.ite_none_right_eq_some] at hnext
        obtain ⟨hcovers, hnext⟩ := hnext
        cases hnext
        exact .rmdired hremoving hcovers
      · cases hnext
  | startSweep id =>
      simp only [State.next, Option.ite_none_left_eq_some] at hnext
      obtain ⟨hnotMem, hnext⟩ := hnext
      cases hnext
      exact .started (AList.lookup_eq_none.mpr hnotMem)
  | sweep id action =>
      simp only [State.next] at hnext
      split at hnext
      · rename_i hlookup
        split at hnext
        · rename_i hadvance
          cases hnext
          exact .swept hlookup (Sweep.advance_spec hadvance)
        · cases hnext
      · cases hnext

/-- A run of the store from a given start. -/
abbrev Run (limits : Limits) (now : ℕ) (orphans : Disk) : Type :=
  Transition.Run (State.next limits) (State.initial now orphans)

end Attachments

end RuprogressMcp
