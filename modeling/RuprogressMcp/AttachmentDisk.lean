import RuprogressMcp.AttachmentOwners
import RuprogressMcp.AttachmentQuota

/-!
# The bytes on disk

Every byte handed to a file is paid for by the reservation that writes it or,
after the commit, by the entry in the index, as long as both give their quota
back only when the file is gone.  The store then keeps its bound on disk as
well as in memory.  A sweep removes the directory first and the entry later; a
dropped future, a failed removal and the lookup of an expired entry may do it
the other way round.
-/

namespace RuprogressMcp

namespace Attachments

/-- The bytes handed to the file of a UUID. -/
def Disk.handedAt (disk : Disk) (uuid : Uuid) : ℕ :=
  ((disk.fileAt uuid).map (·.handed)).getD 0

/-- The step gives no quota back while bytes that it paid for may be on disk:
a download is cancelled or dropped, and an expired entry taken out of the
index, only when no file with bytes is left under its UUID. -/
def releasesAfterRemoval (limits : Limits) (state : State) : Event → Bool
  | .download id .cancel | .download id .drop =>
      (state.downloads.lookup id).all fun download =>
        state.disk.handedAt download.uuid = 0
  | .get id =>
      !state.inner.isExpired limits state.now id || state.disk.handedAt id = 0
  | _ => true

/-! ## The invariant -/

/-- The UUID that a sweep is looking at. -/
def SweepPhase.current : SweepPhase → Option Uuid
  | .examined uuid _ | .condemned uuid | .removing uuid _ => some uuid
  | .listing | .finished => none

def Sweep.Mentions (sweep : Sweep) (uuid : Uuid) : Prop :=
  uuid ∈ sweep.expiredUuids ∨ sweep.phase.current = some uuid

/-- The directory of a UUID was made by its download. -/
def Made (downloads : Table ℕ Download) (uuid : Uuid) : Prop :=
  ∃ id download, downloads.lookup id = some download ∧ download.uuid = uuid ∧
    download.phase ≠ .reserving

/-- The guard of a UUID has been disarmed or dropped. -/
def Disarmed (downloads : Table ℕ Download) (uuid : Uuid) : Prop :=
  ∃ id download, downloads.lookup id = some download ∧ download.uuid = uuid ∧
    download.armed = false

/-- The bytes of a file are paid for by its download or by its entry. -/
def Paid (state : State) (uuid : Uuid) (file : DiskFile) : Prop :=
  file.handed = 0 ∨
    (∃ id download, state.downloads.lookup id = some download ∧
      download.uuid = uuid ∧ download.armed = true ∧
      file.handed ≤ download.written) ∨
    ∃ stored, state.inner.entries.lookup uuid = some stored ∧
      file.handed ≤ stored.size

structure DiskPaid (state : State) : Prop where
  made_dir : ∀ uuid, uuid ∈ state.disk → Made state.downloads uuid
  made_swept : ∀ id sweep, state.sweeps.lookup id = some sweep →
    ∀ uuid, sweep.Mentions uuid → Made state.downloads uuid
  gone : ∀ id sweep, state.sweeps.lookup id = some sweep →
    ∀ uuid ∈ sweep.expiredUuids, uuid ∉ state.disk
  disarmed : ∀ uuid stored, state.inner.entries.lookup uuid = some stored →
    Disarmed state.downloads uuid
  size_le : ∀ uuid file, state.disk.fileAt uuid = some file → file.size ≤ file.handed
  paid : ∀ uuid file, state.disk.fileAt uuid = some file → Paid state uuid file

section Disks

variable {disk : Disk} {uuid other : Uuid} {file : DiskFile}

theorem Disk.mem_of_fileAt (hfile : disk.fileAt uuid = some file) : uuid ∈ disk := by
  unfold Disk.fileAt at hfile
  obtain ⟨dir, hdir, -⟩ := Option.bind_eq_some_iff.mp hfile
  exact Table.mem_of_lookup hdir

theorem Disk.fileAt_insert (dir : Directory) :
    Disk.fileAt (disk.insert uuid dir) other =
      if other = uuid then dir.file else disk.fileAt other := by
  unfold Disk.fileAt
  by_cases heq : other = uuid
  · rw [if_pos heq, heq, AList.lookup_insert, Option.bind_some]
  · rw [if_neg heq, AList.lookup_insert_ne heq]

theorem Disk.fileAt_erase :
    Disk.fileAt (disk.erase uuid) other =
      if other = uuid then none else disk.fileAt other := by
  unfold Disk.fileAt
  by_cases heq : other = uuid
  · rw [if_pos heq, heq, AList.lookup_erase, Option.bind_none]
  · rw [if_neg heq, AList.lookup_erase_ne heq]

theorem Disk.fileAt_makeDir (now : ℕ) :
    (disk.makeDir now uuid).fileAt other = disk.fileAt other := by
  unfold Disk.makeDir
  split
  · rfl
  · rename_i hnotMem
    have hnone : AList.lookup uuid disk = none := AList.lookup_eq_none.mpr hnotMem
    rw [Disk.fileAt_insert]
    split
    · rename_i heq
      rw [heq, Disk.fileAt, hnone, Option.bind_none]
    · rfl

theorem Disk.mem_makeDir {now : ℕ} (hmem : other ∈ disk.makeDir now uuid) :
    other = uuid ∨ other ∈ disk := by
  unfold Disk.makeDir at hmem
  split at hmem
  · exact Or.inr hmem
  · exact (AList.mem_insert _).mp hmem

theorem Disk.fileAt_modify (change : Directory → Directory) :
    Disk.fileAt (Table.modify uuid change disk) other =
      if other = uuid then (AList.lookup uuid disk).bind fun dir => (change dir).file
      else disk.fileAt other := by
  unfold Table.modify
  cases hlookup : AList.lookup uuid disk with
  | none =>
      simp only
      split
      · rename_i heq
        rw [heq, Disk.fileAt, hlookup]
        rfl
      · rfl
  | some dir =>
      simp only
      rw [Disk.fileAt_insert]
      rfl

theorem Disk.fileAt_createFile_self {now : ℕ} (hmem : uuid ∈ disk) :
    (disk.createFile now uuid).fileAt uuid = some ⟨0, 0⟩ := by
  obtain ⟨dir, hdir⟩ := Table.mem_iff_lookup.mp hmem
  rw [Disk.createFile, Disk.fileAt_modify, if_pos rfl, hdir, Option.bind_some]

theorem Disk.fileAt_createFile
    (now : ℕ) (hfile : (disk.createFile now uuid).fileAt other = some file) :
    (other = uuid ∧ file = ⟨0, 0⟩) ∨ disk.fileAt other = some file := by
  unfold Disk.createFile at hfile
  rw [Disk.fileAt_modify] at hfile
  split at hfile
  · rename_i heq
    obtain ⟨dir, -, hfile⟩ := Option.bind_eq_some_iff.mp hfile
    exact Or.inl ⟨heq, (Option.some.injEq ..).mp hfile.symm⟩
  · exact Or.inr hfile

theorem Disk.fileAt_hand
    {handed : ℕ} (hfile : (disk.hand uuid handed).fileAt other = some file) :
    (other = uuid ∧ ∃ before, disk.fileAt uuid = some before ∧
        file = { before with handed := handed }) ∨
      other ≠ uuid ∧ disk.fileAt other = some file := by
  unfold Disk.hand at hfile
  rw [Disk.fileAt_modify] at hfile
  split at hfile
  · rename_i heq
    obtain ⟨dir, hdir, hfile⟩ := Option.bind_eq_some_iff.mp hfile
    obtain ⟨before, hbefore, hfile⟩ := Option.map_eq_some_iff.mp hfile
    refine Or.inl ⟨heq, before, ?_, hfile.symm⟩
    rw [Disk.fileAt, hdir, Option.bind_some, hbefore]
  · rename_i hne
    exact Or.inr ⟨hne, hfile⟩

theorem Disk.handed_eq_zero
    (hhanded : disk.handedAt uuid = 0) (hfile : disk.fileAt uuid = some file) :
    file.handed = 0 := by
  unfold Disk.handedAt at hhanded
  rw [hfile] at hhanded
  exact hhanded

end Disks

/-! ## Where things come from in a step -/

section Origins

variable {limits : Limits} {state after : State} {event : Event}

theorem Made.step
    (hstep : Stepped limits state event after) {uuid : Uuid}
    (hmade : Made state.downloads uuid) : Made after.downloads uuid := by
  obtain ⟨id, download, hlookup, huuid, hphase⟩ := hmade
  obtain ⟨later, hlater, hsucceeds⟩ := hstep.survives hlookup
  exact ⟨id, later, hlater, hsucceeds.uuid.trans huuid, hsucceeds.made hphase⟩

theorem Disarmed.step
    (hstep : Stepped limits state event after) {uuid : Uuid}
    (hdisarmed : Disarmed state.downloads uuid) : Disarmed after.downloads uuid := by
  obtain ⟨id, download, hlookup, huuid, harmed⟩ := hdisarmed
  obtain ⟨later, hlater, hsucceeds⟩ := hstep.survives hlookup
  exact ⟨id, later, hlater, hsucceeds.uuid.trans huuid, hsucceeds.disarmed harmed⟩

theorem Stepped.mem_disk
    (hstep : Stepped limits state event after) {uuid : Uuid}
    (hmem : uuid ∈ after.disk) :
    uuid ∈ state.disk ∨
      ∃ id download later, state.downloads.lookup id = some download ∧
        download.uuid = uuid ∧ download.phase = .reserving ∧
        after.downloads.lookup id = some later ∧ later.uuid = uuid ∧
        later.phase ≠ .reserving := by
  cases hstep with
  | elapsed | refused | reserved | found | expired | started | swept =>
      exact Or.inl hmem
  | landed hlookup =>
      rcases (AList.mem_insert _).mp hmem with rfl | hold
      · exact Or.inl (Table.mem_of_lookup hlookup)
      · exact Or.inl hold
  | unlinked hremoving hcovers hlookup =>
      rcases (AList.mem_insert _).mp hmem with rfl | hold
      · exact Or.inl (Table.mem_of_lookup hlookup)
      · exact Or.inl hold
  | rmdired => exact Or.inl (AList.mem_erase.mp hmem).2
  | @advanced id progress download effect hlookup hadvance =>
      cases hadvance with
      | moved | committed | released => exact Or.inl hmem
      | created => exact Or.inl (Table.mem_modify.mp hmem)
      | received => exact Or.inl (Table.mem_modify.mp hmem)
      | madeDir phase hreserving hphase =>
          rcases Disk.mem_makeDir hmem with rfl | hold
          · exact Or.inr ⟨id, download, { download with phase := phase }, hlookup, rfl,
              hreserving, AList.lookup_insert _, rfl, hphase.1⟩
          · exact Or.inl hold

theorem Stepped.mentions
    (hstep : Stepped limits state event after) {id : ℕ} {sweep : Sweep} {uuid : Uuid}
    (hlookup : after.sweeps.lookup id = some sweep) (hmentions : sweep.Mentions uuid) :
    (∃ before, state.sweeps.lookup id = some before ∧ before.Mentions uuid) ∨
      uuid ∈ state.disk := by
  cases hstep with
  | elapsed | refused | reserved | advanced | landed | found | expired | unlinked
  | rmdired => exact Or.inl ⟨sweep, hlookup, hmentions⟩
  | started =>
      rcases Table.lookup_insert_iff.mp hlookup with ⟨rfl, rfl⟩ | ⟨-, hold⟩
      · simp [Sweep.Mentions, Sweep.start, SweepPhase.current] at hmentions
      · exact Or.inl ⟨sweep, hold, hmentions⟩
  | @swept other action before later inner hbefore hadvance =>
      rcases Table.lookup_insert_iff.mp hlookup with ⟨rfl, rfl⟩ | ⟨-, hold⟩
      · cases hadvance with
        | examined hphase hdir =>
            rcases hmentions with hexpired | hcurrent
            · exact Or.inl ⟨before, hbefore, Or.inl hexpired⟩
            · cases hcurrent
              exact Or.inr (Table.mem_of_lookup hdir)
        | spared | finished =>
            rcases hmentions with hexpired | hcurrent
            · exact Or.inl ⟨before, hbefore, Or.inl hexpired⟩
            · cases hcurrent
        | condemned hphase | measured bytes hphase =>
            refine Or.inl ⟨before, hbefore, hmentions.imp_right fun hcurrent => ?_⟩
            rw [hphase]
            exact hcurrent
        | removed files total hphase hgone =>
            refine Or.inl ⟨before, hbefore, ?_⟩
            rcases hmentions with hexpired | hcurrent
            · rcases List.mem_append.mp hexpired with hold | hnew
              · exact Or.inl hold
              · refine Or.inr ?_
                rw [hphase, List.mem_singleton.mp hnew]
                rfl
            · cases hcurrent
      · exact Or.inl ⟨sweep, hold, hmentions⟩

theorem Stepped.expiredUuids
    (hstep : Stepped limits state event after) {id : ℕ} {sweep : Sweep} {uuid : Uuid}
    (hlookup : after.sweeps.lookup id = some sweep)
    (hexpired : uuid ∈ sweep.expiredUuids) :
    (∃ before, state.sweeps.lookup id = some before ∧ uuid ∈ before.expiredUuids) ∨
      uuid ∉ state.disk ∧ after.disk = state.disk := by
  cases hstep with
  | elapsed | refused | reserved | advanced | landed | found | expired | unlinked
  | rmdired => exact Or.inl ⟨sweep, hlookup, hexpired⟩
  | started =>
      rcases Table.lookup_insert_iff.mp hlookup with ⟨rfl, rfl⟩ | ⟨-, hold⟩
      · simp [Sweep.start] at hexpired
      · exact Or.inl ⟨sweep, hold, hexpired⟩
  | @swept other action before later inner hbefore hadvance =>
      rcases Table.lookup_insert_iff.mp hlookup with ⟨rfl, rfl⟩ | ⟨-, hold⟩
      · cases hadvance with
        | examined | spared | condemned | measured | finished =>
            exact Or.inl ⟨before, hbefore, hexpired⟩
        | removed files total hphase hgone =>
            rcases List.mem_append.mp hexpired with hold | hnew
            · exact Or.inl ⟨before, hbefore, hold⟩
            · rw [List.mem_singleton.mp hnew]
              exact Or.inr ⟨hgone, rfl⟩
      · exact Or.inl ⟨sweep, hold, hexpired⟩

theorem Stepped.entry
    (hstep : Stepped limits state event after) {uuid : Uuid} {stored : StoredFile}
    (hlookup : after.inner.entries.lookup uuid = some stored) :
    state.inner.entries.lookup uuid = some stored ∨
      ∃ id download, state.downloads.lookup id = some download ∧
        download.uuid = uuid ∧ download.armed = true ∧
        stored = download.stored limits state.now ∧
        after.downloads.lookup id = some download.disarmed ∧
        stored ∈ after.returned := by
  cases hstep with
  | elapsed | refused | landed | found | unlinked | rmdired | started =>
      exact Or.inl hlookup
  | reserved hnew hadmits =>
      simp only [admits_entries hadmits] at hlookup
      exact Or.inl hlookup
  | expired => exact Or.inl (Table.lookup_erase_iff.mp hlookup).2
  | @advanced id progress download effect hbefore hadvance =>
      cases hadvance with
      | moved | madeDir | created | released => exact Or.inl hlookup
      | received =>
          simp only [receive_entries] at hlookup
          exact Or.inl hlookup
      | committed hstreaming harmed =>
          rcases Table.lookup_insert_iff.mp hlookup with ⟨rfl, rfl⟩ | ⟨-, hold⟩
          · exact Or.inr ⟨id, download, hbefore, rfl, harmed, rfl,
              AList.lookup_insert _, List.mem_cons_self⟩
          · exact Or.inl hold
  | swept hbefore hadvance =>
      cases hadvance with
      | examined | spared | condemned | measured | removed => exact Or.inl hlookup
      | finished => exact Or.inl ((lookup_removeAll _ _).mp hlookup).2

/-- How a file of the next state differs from one of this state. -/
inductive FileChange (limits : Limits) (state after : State) (uuid : Uuid) :
    DiskFile → Prop where
  | same {file : DiskFile} (hfile : state.disk.fileAt uuid = some file) :
      FileChange limits state after uuid file
  | created : FileChange limits state after uuid ⟨0, 0⟩
  | landed {file : DiskFile} {size : ℕ} (hfile : state.disk.fileAt uuid = some file)
      (hsize : size ≤ file.handed) :
      FileChange limits state after uuid { file with size := size }
  | handed {file : DiskFile} {id : ℕ} {download later : Download}
      (hfile : state.disk.fileAt uuid = some file)
      (hlookup : state.downloads.lookup id = some download)
      (huuid : download.uuid = uuid) (harmed : download.armed = true)
      (hlater : after.downloads.lookup id = some later)
      (huuid' : later.uuid = uuid) (harmed' : later.armed = true)
      (hwritten : download.written ≤ later.written) :
      FileChange limits state after uuid { file with handed := later.written }

theorem Stepped.file
    (hmax : limits.maxStoreBytes < 2 ^ 64 - 1) (hledger : Ledger limits state)
    (hstep : Stepped limits state event after) {uuid : Uuid} {file : DiskFile}
    (hfile : after.disk.fileAt uuid = some file) :
    FileChange limits state after uuid file := by
  cases hstep with
  | elapsed | refused | reserved | found | expired | started | swept =>
      exact .same hfile
  | @landed other size mtime before hlookup hhanded =>
      have hbefore : state.disk.fileAt other = some before := by
        rw [Disk.fileAt, hlookup, Option.bind_some]
      rw [Disk.fileAt_insert] at hfile
      split at hfile
      · rename_i heq
        cases hfile
        rw [heq]
        exact .landed hbefore hhanded
      · exact .same hfile
  | unlinked =>
      rw [Disk.fileAt_insert] at hfile
      split at hfile
      · cases hfile
      · exact .same hfile
  | rmdired =>
      rw [Disk.fileAt_erase] at hfile
      split at hfile
      · cases hfile
      · exact .same hfile
  | @advanced id progress download effect hlookup hadvance =>
      cases hadvance with
      | moved | committed | released => exact .same hfile
      | madeDir =>
          rw [Disk.fileAt_makeDir] at hfile
          exact .same hfile
      | created =>
          rcases Disk.fileAt_createFile state.now hfile with ⟨-, rfl⟩ | hold
          · exact .created
          · exact .same hold
      | received length hstreaming harmed =>
          rcases Disk.fileAt_hand hfile with ⟨rfl, before, hbefore, rfl⟩ | ⟨-, hold⟩
          · have hcovered := hledger.written_le id download hlookup harmed
            have hbytes := hledger.bytes_le hlookup harmed
            have hbound := hledger.bound
            refine .handed hbefore hlookup rfl harmed (AList.lookup_insert _)
              (receive_uuid ..) ?_ (receive_written_le _ _ _ _ (by omega))
            rw [receive_armed, harmed]
          · exact .same hold

end Origins

/-! ## Payment is kept up -/

section Payment

variable {limits : Limits} {state after : State} {event : Event}

theorem DiskPaid.not_entry
    (hdisk : DiskPaid state) (howner : OneOwner state) {id : ℕ} {download : Download}
    (hlookup : state.downloads.lookup id = some download)
    (harmed : download.armed = true) :
    state.inner.entries.lookup download.uuid = none := by
  cases hentry : state.inner.entries.lookup download.uuid with
  | none => rfl
  | some stored =>
      obtain ⟨other, found, hfound, huuid, hdisarmed⟩ :=
        hdisk.disarmed download.uuid stored hentry
      rw [howner.eq hfound hlookup huuid, harmed] at hdisarmed
      cases hdisarmed

theorem DiskPaid.handed_le
    (hdisk : DiskPaid state) (howner : OneOwner state) {id : ℕ} {download : Download}
    {file : DiskFile} (hlookup : state.downloads.lookup id = some download)
    (harmed : download.armed = true)
    (hfile : state.disk.fileAt download.uuid = some file) :
    file.handed ≤ download.written := by
  rcases hdisk.paid download.uuid file hfile with
    hzero | ⟨other, found, hfound, huuid, -, hle⟩ | ⟨stored, hentry, -⟩
  · omega
  · rw [howner.eq hfound hlookup huuid] at hle
    exact hle
  · rw [hdisk.not_entry howner hlookup harmed] at hentry
    cases hentry

theorem Disk.handedAt_of_cancel
    {id : ℕ} {progress : Progress} {download : Download}
    (hprogress : progress = .drop ∨ progress = .cancel)
    (hlookup : state.downloads.lookup id = some download)
    (hrelease : releasesAfterRemoval limits state (.download id progress) = true) :
    state.disk.handedAt download.uuid = 0 := by
  rcases hprogress with rfl | rfl
  · simpa [releasesAfterRemoval, hlookup] using hrelease
  · simpa [releasesAfterRemoval, hlookup] using hrelease

theorem Paid.advance_owner
    (hmax : limits.maxStoreBytes < 2 ^ 64 - 1) (hledger : Ledger limits state)
    {id : ℕ} {progress : Progress} {download : Download} {effect : DownloadEffect}
    (hrelease : releasesAfterRemoval limits state (.download id progress) = true)
    (hlookup : state.downloads.lookup id = some download)
    (hadvance : Advanced limits state.now state.inner state.disk download progress
      effect)
    (harmed : download.armed = true)
    (hdownloads : after.downloads = state.downloads.insert id effect.download)
    (hinner : after.inner = effect.inner) {file : DiskFile}
    (hfile : state.disk.fileAt download.uuid = some file)
    (hle : file.handed ≤ download.written) :
    Paid after download.uuid file := by
  have hlater : after.downloads.lookup id = some effect.download := by
    rw [hdownloads, AList.lookup_insert]
  cases hadvance with
  | moved | madeDir | created =>
      exact Or.inr (Or.inl ⟨id, _, hlater, rfl, harmed, hle⟩)
  | received length hstreaming =>
      have hcovered := hledger.written_le id download hlookup harmed
      have hbytes := hledger.bytes_le hlookup harmed
      have hbound := hledger.bound
      have hwritten := receive_written_le limits state.inner download length (by omega)
      refine Or.inr (Or.inl ⟨id, _, hlater, receive_uuid .., ?_, le_trans hle hwritten⟩)
      rw [receive_armed, harmed]
  | committed =>
      refine Or.inr (Or.inr ⟨download.stored limits state.now, ?_, hle⟩)
      rw [hinner]
      exact AList.lookup_insert _
  | released phase hprogress =>
      have hhanded := Disk.handedAt_of_cancel hprogress hlookup hrelease
      exact Or.inl (Disk.handed_eq_zero hhanded hfile)

theorem Paid.advance_entry
    (howner : OneOwner state) (hdisk : DiskPaid state)
    {id : ℕ} {progress : Progress} {download : Download} {effect : DownloadEffect}
    (hlookup : state.downloads.lookup id = some download)
    (hadvance : Advanced limits state.now state.inner state.disk download progress
      effect)
    (hinner : after.inner = effect.inner) {uuid : Uuid} {file : DiskFile}
    {stored : StoredFile} (hentry : state.inner.entries.lookup uuid = some stored)
    (hle : file.handed ≤ stored.size) :
    Paid after uuid file := by
  refine Or.inr (Or.inr ⟨stored, ?_, hle⟩)
  rw [hinner]
  cases hadvance with
  | moved | madeDir | created | released => exact hentry
  | received =>
      simp only [receive_entries]
      exact hentry
  | committed hstreaming harmed =>
      refine Table.lookup_insert_iff.mpr (Or.inr ⟨?_, hentry⟩)
      rintro rfl
      have hnone := hdisk.not_entry howner hlookup harmed
      rw [show (download.stored limits state.now).uuid = download.uuid from rfl,
        hnone] at hentry
      cases hentry

theorem Paid.step
    (hmax : limits.maxStoreBytes < 2 ^ 64 - 1) (hledger : Ledger limits state)
    (howner : OneOwner state) (hdisk : DiskPaid state)
    (hrelease : releasesAfterRemoval limits state event = true)
    (hstep : Stepped limits state event after)
    {uuid : Uuid} {file : DiskFile} (hfile : state.disk.fileAt uuid = some file) :
    Paid after uuid file := by
  have hpaid := hdisk.paid uuid file hfile
  cases hstep with
  | elapsed | refused | landed | found | unlinked | rmdired | started => exact hpaid
  | @reserved id other request inner hnew hadmits =>
      rcases hpaid with hzero | ⟨id', download, hlookup, hrest⟩ | ⟨stored, hentry, hle⟩
      · exact Or.inl hzero
      · refine Or.inr (Or.inl ⟨id', download, ?_, hrest⟩)
        refine Table.lookup_insert_iff.mpr (Or.inr ⟨?_, hlookup⟩)
        rintro rfl
        rw [hnew] at hlookup
        cases hlookup
      · refine Or.inr (Or.inr ⟨stored, ?_, hle⟩)
        simp only [admits_entries hadmits]
        exact hentry
  | @expired id stored hlookup hage =>
      rcases hpaid with hzero | howned | ⟨found, hentry, hle⟩
      · exact Or.inl hzero
      · exact Or.inr (Or.inl howned)
      · by_cases heq : uuid = id
        · subst heq
          have hexpired : state.inner.isExpired limits state.now uuid = true := by
            simpa [Inner.isExpired, hlookup] using hage
          have hhanded : state.disk.handedAt uuid = 0 := by
            simpa [releasesAfterRemoval, hexpired] using hrelease
          exact Or.inl (Disk.handed_eq_zero hhanded hfile)
        · exact Or.inr (Or.inr ⟨found, Table.lookup_erase_iff.mpr ⟨heq, hentry⟩, hle⟩)
  | @swept id action sweep later inner hlookup hadvance =>
      cases hadvance with
      | examined | spared | condemned | measured | removed => exact hpaid
      | finished =>
          rcases hpaid with hzero | howned | ⟨stored, hentry, hle⟩
          · exact Or.inl hzero
          · exact Or.inr (Or.inl howned)
          · refine Or.inr (Or.inr ⟨stored, (lookup_removeAll _ _).mpr ⟨?_, hentry⟩, hle⟩)
            intro hexpired
            exact hdisk.gone id sweep hlookup uuid hexpired (Disk.mem_of_fileAt hfile)
  | @advanced id progress download effect hlookup hadvance =>
      rcases hpaid with
        hzero | ⟨id', found, hfound, rfl, harmed, hle⟩ | ⟨stored, hentry, hle⟩
      · exact Or.inl hzero
      · by_cases heq : id' = id
        · subst heq
          rw [hlookup] at hfound
          cases hfound
          exact Paid.advance_owner hmax hledger hrelease hlookup hadvance harmed rfl rfl
            hfile hle
        · refine Or.inr (Or.inl ⟨id', found, ?_, rfl, harmed, hle⟩)
          exact Table.lookup_insert_iff.mpr (Or.inr ⟨heq, hfound⟩)
      · exact Paid.advance_entry howner hdisk hlookup hadvance rfl hentry hle

theorem DiskPaid.initial (now : ℕ) : DiskPaid (State.initial now ∅) := by
  have hdisk : ∀ uuid : Uuid, AList.lookup uuid (State.initial now ∅).disk = none :=
    fun _ => rfl
  have hsweeps : ∀ id, (State.initial now ∅).sweeps.lookup id = none := fun _ => rfl
  have hentries : ∀ uuid, (State.initial now ∅).inner.entries.lookup uuid = none :=
    fun _ => rfl
  have hfiles : ∀ uuid, (State.initial now ∅).disk.fileAt uuid = none := fun _ => rfl
  constructor
  · intro uuid hmem
    exact absurd hmem (AList.lookup_eq_none.mp (hdisk uuid))
  · intro id sweep hlookup
    rw [hsweeps] at hlookup
    cases hlookup
  · intro id sweep hlookup
    rw [hsweeps] at hlookup
    cases hlookup
  · intro uuid stored hlookup
    rw [hentries] at hlookup
    cases hlookup
  · intro uuid file hfile
    rw [hfiles] at hfile
    cases hfile
  · intro uuid file hfile
    rw [hfiles] at hfile
    cases hfile

theorem DiskPaid.step
    (hmax : limits.maxStoreBytes < 2 ^ 64 - 1) (hledger : Ledger limits state)
    (howner : OneOwner state) (hdisk : DiskPaid state)
    (hrelease : releasesAfterRemoval limits state event = true)
    (hstep : Stepped limits state event after) : DiskPaid after where
  made_dir := by
    intro uuid hmem
    rcases hstep.mem_disk hmem with hold | ⟨id, -, later, -, -, -, hlater, huuid, hphase⟩
    · exact (hdisk.made_dir uuid hold).step hstep
    · exact ⟨id, later, hlater, huuid, hphase⟩
  made_swept := by
    intro id sweep hlookup uuid hmentions
    rcases hstep.mentions hlookup hmentions with ⟨before, hbefore, hold⟩ | hmem
    · exact (hdisk.made_swept id before hbefore uuid hold).step hstep
    · exact (hdisk.made_dir uuid hmem).step hstep
  gone := by
    intro id sweep hlookup uuid hexpired hmem
    rcases hstep.expiredUuids hlookup hexpired with
      ⟨before, hbefore, hold⟩ | ⟨hgone, hsame⟩
    · rcases hstep.mem_disk hmem with
        hmem | ⟨other, download, -, hdownload, huuid, hreserving, -⟩
      · exact hdisk.gone id before hbefore uuid hold hmem
      · obtain ⟨made, found, hfound, huuid', hphase⟩ :=
          hdisk.made_swept id before hbefore uuid (Or.inl hold)
        rw [howner.eq hfound hdownload (huuid'.trans huuid.symm)] at hphase
        exact hphase hreserving
    · rw [hsame] at hmem
      exact hgone hmem
  disarmed := by
    intro uuid stored hlookup
    rcases hstep.entry hlookup with hold | ⟨id, download, -, huuid, -, -, hlater, -⟩
    · exact (hdisk.disarmed uuid stored hold).step hstep
    · exact ⟨id, download.disarmed, hlater, huuid, rfl⟩
  size_le := by
    intro uuid file hfile
    cases hstep.file hmax hledger hfile with
    | same hold => exact hdisk.size_le uuid file hold
    | created => exact le_refl _
    | landed hold hsize => exact hsize
    | @handed before id download later hold hlookup huuid harmed _ _ _ hwritten =>
        subst huuid
        have hsize := hdisk.size_le download.uuid before hold
        have hhanded := hdisk.handed_le howner hlookup harmed hold
        simp only
        omega
  paid := by
    intro uuid file hfile
    cases hstep.file hmax hledger hfile with
    | same hold => exact Paid.step hmax hledger howner hdisk hrelease hstep hold
    | created => exact Or.inl rfl
    | landed hold =>
        have hpaid := Paid.step hmax hledger howner hdisk hrelease hstep hold
        exact hpaid
    | @handed before id download later _ _ _ _ hlater huuid harmed _ =>
        exact Or.inr (Or.inl ⟨id, later, hlater, huuid, harmed, le_refl _⟩)

theorem DiskPaid.bytes_le
    (hledger : Ledger limits state) (hdisk : DiskPaid state) :
    state.disk.bytes ≤ limits.maxStoreBytes := by
  have hpaid : Table.PaidBy (fun dir : Directory => (dir.file.map (·.size)).getD 0)
      (fun (download : Download) uuid => download.uuid = uuid) Download.held
      (fun stored : StoredFile => stored.size) state.disk state.downloads
      state.inner.entries := by
    intro uuid dir hdir
    cases hfile : dir.file with
    | none => exact Or.inl (by simp [hfile])
    | some file =>
        have hat : state.disk.fileAt uuid = some file := by
          rw [Disk.fileAt, hdir, Option.bind_some, hfile]
        have hsize := hdisk.size_le uuid file hat
        simp only [hfile, Option.map_some, Option.getD_some]
        rcases hdisk.paid uuid file hat with
          hzero | ⟨id, download, hlookup, huuid, harmed, hle⟩ | ⟨stored, hentry, hle⟩
        · exact Or.inl (by omega)
        · have hcovered := hledger.written_le id download hlookup harmed
          refine Or.inr (Or.inl ⟨id, download, hlookup, huuid, ?_⟩)
          rw [Download.held_of_armed harmed]
          omega
        · exact Or.inr (Or.inr ⟨stored, hentry, by omega⟩)
  have htotal := hpaid.total_le fun _ _ _ hfirst hsecond => hfirst.symm.trans hsecond
  have hinFlight := hledger.inFlight_eq
  have hbound := hledger.bound
  unfold liveBytes at hinFlight
  unfold committedBytes at hbound
  unfold Disk.bytes
  omega

end Payment

/-! ## Runs -/

/-- While quota is given back last, the files under a store directory that was
empty at the start stay within the bound of the store. -/
theorem disk_within_bound
    {limits : Limits} (hmax : limits.maxStoreBytes < 2 ^ 64 - 1) {now : ℕ}
    (run : Run limits now ∅)
    (hfresh : ∀ n, drawsFresh (run.state n) (run.label n) = true)
    (hrelease : ∀ n,
      releasesAfterRemoval limits (run.state n) (run.label n) = true) (n : ℕ) :
    (run.state n).disk.bytes ≤ limits.maxStoreBytes := by
  have hinvariant : ∀ n, OneOwner (run.state n) ∧ DiskPaid (run.state n) := by
    intro n
    induction n with
    | zero =>
        rw [run.start]
        exact ⟨OneOwner.initial now ∅, DiskPaid.initial now⟩
    | succ n ih =>
        have hstep := State.next_spec (run.step n)
        have hledger := Ledger.reachable hmax run n
        exact ⟨ih.1.step hstep (hfresh n),
          ih.2.step hmax hledger ih.1 (hrelease n) hstep⟩
  exact (hinvariant n).2.bytes_le (Ledger.reachable hmax run n)

namespace Sample

/-- One download is committed; another fails, and its directory is removed
before its reservation is dropped. -/
def commitAndAbort : List Event :=
  opening 0 "a" 6 ++ opening 1 "b" 6 ++
    [.download 0 (.chunk 6), .land "a" 6, .download 1 (.chunk 6), .land "b" 4,
      .download 0 .commit, .download 1 .fail, .unlink (.download 1) "b",
      .rmdir (.download 1) "b", .download 1 .abortReturns, .download 1 .drop]

theorem commitAndAbort_within_bound :
    limits.maxStoreBytes < 2 ^ 64 - 1 ∧
      ∀ n, ((run commitAndAbort (by decide +kernel)).state n).disk.bytes ≤
        limits.maxStoreBytes := by
  refine ⟨by decide, fun n => disk_within_bound (by decide) _ ?_ ?_ n⟩
  · exact Transition.Run.ofLabels_checked (by decide +kernel) fun _ => rfl
  · exact Transition.Run.ofLabels_checked (by decide +kernel) fun _ => rfl

/-- The future of the first download is dropped after its last chunk; its file
stays, and the second download gets the whole quota. -/
def cancelledDownload : List Event :=
  opening 0 "a" 10 ++
    [.download 0 (.chunk 10), .land "a" 10, .download 0 .cancel] ++
    opening 1 "b" 10 ++ [.download 1 (.chunk 10), .land "b" 10]

theorem cancelled_download_exceeds_bound :
    ¬ ∀ (run : Run limits 0 ∅) (n : ℕ),
      (run.state n).disk.bytes ≤ limits.maxStoreBytes := by
  intro hbound
  have hlast := hbound (run cancelledDownload (by decide +kernel)) 13
  revert hlast
  decide +kernel

end Sample

end Attachments

end RuprogressMcp
