import RuprogressMcp.AttachmentDisk

/-!
# How long a committed file is served

A committed file is promised until its `expires_at`.  Lookups judge its age
from the commit, while a sweep judges it from the last change of the UUID
directory, which is the creation of the file and so lies before the commit.
The promise holds in the runs whose sweeps find no directory that is old by
the second measure and still in use by the first.
-/

namespace RuprogressMcp

namespace Attachments

/-! ## The promise and its condition -/

/-- A reservation for the UUID is live. -/
def State.isLive (state : State) (uuid : Uuid) : Bool :=
  state.downloads.entries.any fun entry => entry.2.armed && entry.2.uuid == uuid

/-- A download is writing the file of the UUID. -/
def State.isFilling (state : State) (uuid : Uuid) : Bool :=
  state.downloads.entries.any fun entry =>
    entry.2.armed && entry.2.uuid == uuid && entry.2.phase == .streaming

/-- The index has a file for the UUID that has not expired. -/
def State.isServing (state : State) (uuid : Uuid) : Bool :=
  (state.inner.entries.lookup uuid).any fun stored => state.now < stored.expiresAt

/-- A sweep that finds a directory old enough finds it unused, and the abort
of a download whose file is called `.`, which removes the whole store, removes
no directory that is being filled or served. -/
def sparesUsed (limits : Limits) (state : State) : Event → Bool
  | .sweep id .judge =>
      (state.sweeps.lookup id).all fun sweep =>
        match sweep.phase with
        | .examined uuid modified =>
            state.now - modified < limits.expiresAfter ||
              (!state.isLive uuid && !state.isServing uuid)
        | _ => true
  | .unlink (.download id) uuid | .rmdir (.download id) uuid =>
      (state.downloads.lookup id).all fun download =>
        download.path.parent ≠ .storeDir ||
          (!state.isFilling uuid && !state.isServing uuid)
  | _ => true

/-- Every file that `commit` returned is found and on disk until it expires. -/
def Promised (limits : Limits) (state : State) : Prop :=
  ∀ stored ∈ state.returned, state.now < stored.expiresAt →
    state.inner.get limits state.now stored.uuid = some stored ∧
      ∃ file, state.disk.fileAt stored.uuid = some file

/-- The step is not a sweep that removes the directory of a live reservation. -/
def SweepSparesLive (state : State) (event : Event) : Prop :=
  ∀ id uuid, event = .unlink (.sweep id) uuid ∨ event = .rmdir (.sweep id) uuid →
    state.isLive uuid = false

/-! ## The invariant -/

/-- Nothing about the UUID has to be kept any more. -/
structure Settled (state : State) (uuid : Uuid) : Prop where
  disarmed : ∀ id download, state.downloads.lookup id = some download →
    download.uuid = uuid → download.armed = false
  expired : ∀ stored ∈ state.returned, stored.uuid = uuid →
    stored.expiresAt ≤ state.now

/-- The sweep has decided to remove the directory. -/
def Sweep.Condemns (sweep : Sweep) (uuid : Uuid) : Prop :=
  uuid ∈ sweep.expiredUuids ∨ sweep.phase = .condemned uuid ∨
    ∃ bytes, sweep.phase = .removing uuid bytes

/-- What is known of a file that `commit` returned. -/
structure Returned (limits : Limits) (state : State) (stored : StoredFile) : Prop where
  owner : ∃ id download, state.downloads.lookup id = some download ∧
    download.uuid = stored.uuid ∧ download.armed = false ∧ download.phase = .finished
  created : stored.createdAt ≤ state.now
  expires : stored.expiresAt ≤ stored.createdAt + limits.expiresAfter
  parent : stored.path.parent = .uuidDir stored.uuid

structure Serving (limits : Limits) (state : State) : Prop where
  filling : ∀ id download, state.downloads.lookup id = some download →
    download.armed = true → download.phase = .streaming →
    download.path.parent = .uuidDir download.uuid ∧
      ∃ file, state.disk.fileAt download.uuid = some file
  returned : ∀ stored ∈ state.returned, Returned limits state stored
  served : ∀ stored ∈ state.returned, state.now < stored.expiresAt →
    state.inner.entries.lookup stored.uuid = some stored ∧
      ∃ file, state.disk.fileAt stored.uuid = some file
  entry : ∀ uuid stored, state.inner.entries.lookup uuid = some stored →
    stored ∈ state.returned ∧ stored.uuid = uuid
  dir_drawn : ∀ uuid, uuid ∈ state.disk → uuid ∈ state.drawn
  swept_drawn : ∀ id sweep, state.sweeps.lookup id = some sweep →
    ∀ uuid, sweep.Mentions uuid → uuid ∈ state.drawn
  condemned : ∀ id sweep, state.sweeps.lookup id = some sweep →
    ∀ uuid, sweep.Condemns uuid → Settled state uuid
  removal : ∀ target ∈ state.removals,
    ∃ uuid, target = .uuidDir uuid ∧ uuid ∈ state.drawn ∧ Settled state uuid

/-! ## Reading the condition -/

section Reading

variable {state : State} {uuid : Uuid}

theorem State.isLive_eq_false
    (hlive : state.isLive uuid = false) {id : ℕ} {download : Download}
    (hlookup : state.downloads.lookup id = some download)
    (huuid : download.uuid = uuid) : download.armed = false := by
  by_contra harmed
  have hmem := Table.lookup_eq_some_iff_mem_entries.mp hlookup
  have htrue : state.isLive uuid = true :=
    List.any_eq_true.mpr ⟨_, hmem, by simp [huuid, harmed]⟩
  rw [htrue] at hlive
  cases hlive

theorem State.isLive_of_settled (hsettled : Settled state uuid) :
    state.isLive uuid = false := by
  rw [State.isLive, List.any_eq_false]
  intro entry hmem
  have hlookup : state.downloads.lookup entry.1 = some entry.2 :=
    Table.lookup_eq_some_iff_mem_entries.mpr hmem
  have hdisarmed := hsettled.disarmed entry.1 entry.2 hlookup
  simp only [Bool.and_eq_true, beq_iff_eq, not_and]
  intro harmed huuid
  rw [hdisarmed huuid] at harmed
  cases harmed

theorem State.isFilling_eq_false
    (hfilling : state.isFilling uuid = false) {id : ℕ} {download : Download}
    (hlookup : state.downloads.lookup id = some download)
    (huuid : download.uuid = uuid) (harmed : download.armed = true) :
    download.phase ≠ .streaming := by
  intro hphase
  have hmem := Table.lookup_eq_some_iff_mem_entries.mp hlookup
  have htrue : state.isFilling uuid = true :=
    List.any_eq_true.mpr ⟨_, hmem, by simp [huuid, harmed, hphase]⟩
  rw [htrue] at hfilling
  cases hfilling

theorem Serving.expired_of_not_serving
    {limits : Limits} (hserving : Serving limits state)
    (hnot : state.isServing uuid = false) {stored : StoredFile}
    (hmem : stored ∈ state.returned) (huuid : stored.uuid = uuid) :
    stored.expiresAt ≤ state.now := by
  by_contra hlater
  obtain ⟨hentry, -⟩ := hserving.served stored hmem (not_le.mp hlater)
  rw [huuid] at hentry
  rw [State.isServing, hentry, Option.any_some] at hnot
  exact hlater (not_lt.mp (of_decide_eq_false hnot))

end Reading

/-! ## Where things come from in a step -/

section Origins

variable {limits : Limits} {state after : State} {event : Event}

theorem Stepped.now_le (hstep : Stepped limits state event after) :
    state.now ≤ after.now := by
  cases hstep with
  | elapsed => exact Nat.le_add_right _ _
  | _ => exact le_refl _

/-- A download that commits in a step, and the file that it returns. -/
structure Commits (limits : Limits) (state after : State) (id : ℕ)
    (download : Download) (stored : StoredFile) : Prop where
  lookup : state.downloads.lookup id = some download
  armed : download.armed = true
  streaming : download.phase = .streaming
  stored_eq : stored = download.stored limits state.now
  later : after.downloads.lookup id = some download.disarmed
  entry : after.inner.entries.lookup stored.uuid = some stored
  disk : after.disk = state.disk
  now : after.now = state.now

theorem Stepped.returned
    (hstep : Stepped limits state event after) {stored : StoredFile}
    (hmem : stored ∈ after.returned) :
    stored ∈ state.returned ∨
      ∃ id download, Commits limits state after id download stored := by
  cases hstep with
  | @advanced id progress download effect hlookup hadvance =>
      rcases List.mem_append.mp hmem with hnew | hold
      · cases hadvance with
        | committed hstreaming harmed =>
            obtain rfl := List.mem_singleton.mp hnew
            exact Or.inr ⟨id, download, hlookup, harmed, hstreaming, rfl,
              AList.lookup_insert _, AList.lookup_insert _, rfl, rfl⟩
        | moved | madeDir | created | received | released => cases hnew
      · exact Or.inl hold
  | _ => exact Or.inl hmem

theorem Stepped.returned_subset
    (hstep : Stepped limits state event after) {stored : StoredFile}
    (hmem : stored ∈ state.returned) : stored ∈ after.returned := by
  cases hstep with
  | advanced => exact List.mem_append_right _ hmem
  | _ => exact hmem

theorem Stepped.filling
    (hstep : Stepped limits state event after) {id : ℕ} {download : Download}
    (hlookup : after.downloads.lookup id = some download)
    (harmed : download.armed = true) (hphase : download.phase = .streaming) :
    (∃ before, state.downloads.lookup id = some before ∧ before.armed = true ∧
        before.phase = .streaming ∧ before.path = download.path) ∨
      download.path.parent = .uuidDir download.uuid ∧
        ∃ file, after.disk.fileAt download.uuid = some file := by
  cases hstep with
  | elapsed | refused | landed | found | expired | unlinked | rmdired | started | swept =>
      exact Or.inl ⟨download, hlookup, harmed, hphase, rfl⟩
  | reserved =>
      rcases Table.lookup_insert_iff.mp hlookup with ⟨rfl, rfl⟩ | ⟨-, hold⟩
      · cases hphase
      · exact Or.inl ⟨download, hold, harmed, hphase, rfl⟩
  | @advanced other progress before effect hbefore hadvance =>
      rcases Table.lookup_insert_iff.mp hlookup with ⟨rfl, rfl⟩ | ⟨-, hold⟩
      · cases hadvance with
        | moved phase hactive hne => exact absurd hphase hne.2
        | madeDir phase hreserving hne => exact absurd hphase hne.2
        | created hcreating hcreatable hmem =>
            refine Or.inr ⟨?_, ⟨0, 0⟩, ?_⟩
            · have hname : before.name ≠ "." := by
                obtain ⟨hdot, -⟩ := Bool.and_eq_true_iff.mp hcreatable
                exact of_decide_eq_true hdot
              exact if_neg hname
            · exact Disk.fileAt_createFile_self hmem
        | received length hstreaming hbeforeArmed =>
            refine Or.inl ⟨before, hbefore, hbeforeArmed, hstreaming, ?_⟩
            simp only [Download.path, receive_uuid, receive_name]
        | committed => cases harmed
        | released => cases harmed
      · exact Or.inl ⟨download, hold, harmed, hphase, rfl⟩

/-- The removal of a UUID's directory by a remover that is at work on it. -/
def Removes (state : State) (event : Event) (uuid : Uuid) : Prop :=
  ∃ remover target,
    (event = .unlink remover uuid ∨ event = .rmdir remover uuid) ∧
      state.removing remover = some target ∧ target.covers uuid = true

theorem Stepped.file_kept
    (hstep : Stepped limits state event after) {uuid : Uuid} {file : DiskFile}
    (hfile : state.disk.fileAt uuid = some file) :
    (∃ later, after.disk.fileAt uuid = some later) ∨ Removes state event uuid := by
  cases hstep with
  | elapsed | refused | reserved | found | expired | started | swept =>
      exact Or.inl ⟨file, hfile⟩
  | landed =>
      refine Or.inl ?_
      simp only [Disk.fileAt_insert]
      split
      · exact ⟨_, rfl⟩
      · exact ⟨file, hfile⟩
  | @unlinked remover other target dir hremoving hcovers =>
      by_cases heq : uuid = other
      · subst heq
        exact Or.inr ⟨remover, target, Or.inl rfl, hremoving, hcovers⟩
      · refine Or.inl ⟨file, ?_⟩
        simp only [Disk.fileAt_insert, if_neg heq]
        exact hfile
  | @rmdired remover other target hremoving hcovers =>
      by_cases heq : uuid = other
      · subst heq
        exact Or.inr ⟨remover, target, Or.inr rfl, hremoving, hcovers⟩
      · refine Or.inl ⟨file, ?_⟩
        simp only [Disk.fileAt_erase, if_neg heq]
        exact hfile
  | advanced hlookup hadvance =>
      refine Or.inl ?_
      obtain ⟨dir, hdir, hdirFile⟩ := Option.bind_eq_some_iff.mp hfile
      cases hadvance with
      | moved | committed | released => exact ⟨file, hfile⟩
      | madeDir =>
          simp only [Disk.fileAt_makeDir]
          exact ⟨file, hfile⟩
      | created =>
          simp only [Disk.createFile, Disk.fileAt_modify]
          split
          · rename_i heq
            rw [← heq, hdir]
            exact ⟨_, rfl⟩
          · exact ⟨file, hfile⟩
      | received =>
          simp only [Disk.hand, Disk.fileAt_modify]
          split
          · rename_i heq
            rw [← heq, hdir, Option.bind_some, hdirFile]
            exact ⟨_, rfl⟩
          · exact ⟨file, hfile⟩

theorem Stepped.entry_kept
    (hstep : Stepped limits state event after) {uuid : Uuid} {stored : StoredFile}
    (hentry : state.inner.entries.lookup uuid = some stored) :
    after.inner.entries.lookup uuid = some stored ∨
      limits.expiresAfter ≤ state.now - stored.createdAt ∨
      (∃ id download, state.downloads.lookup id = some download ∧
        download.uuid = uuid ∧ download.armed = true) ∨
      ∃ id sweep, state.sweeps.lookup id = some sweep ∧ uuid ∈ sweep.expiredUuids := by
  cases hstep with
  | elapsed | refused | landed | found | unlinked | rmdired | started =>
      exact Or.inl hentry
  | reserved hnew hadmits =>
      simp only [admits_entries hadmits]
      exact Or.inl hentry
  | @expired id found hlookup hage =>
      by_cases heq : uuid = id
      · subst heq
        rw [hentry] at hlookup
        cases hlookup
        exact Or.inr (Or.inl hage)
      · exact Or.inl (Table.lookup_erase_iff.mpr ⟨heq, hentry⟩)
  | @advanced id progress download effect hlookup hadvance =>
      cases hadvance with
      | moved | madeDir | created | released => exact Or.inl hentry
      | received =>
          simp only [receive_entries]
          exact Or.inl hentry
      | committed hstreaming harmed =>
          by_cases heq : uuid = download.uuid
          · exact Or.inr (Or.inr (Or.inl ⟨id, download, hlookup, heq.symm, harmed⟩))
          · exact Or.inl (Table.lookup_insert_iff.mpr (Or.inr ⟨heq, hentry⟩))
  | @swept id action sweep later inner hlookup hadvance =>
      cases hadvance with
      | examined | spared | condemned | measured | removed => exact Or.inl hentry
      | finished =>
          by_cases hexpired : uuid ∈ sweep.expiredUuids
          · exact Or.inr (Or.inr (Or.inr ⟨id, sweep, hlookup, hexpired⟩))
          · exact Or.inl ((lookup_removeAll _ _).mpr ⟨hexpired, hentry⟩)

theorem Stepped.condemns
    (hstep : Stepped limits state event after) {id : ℕ} {sweep : Sweep} {uuid : Uuid}
    (hlookup : after.sweeps.lookup id = some sweep) (hcondemns : sweep.Condemns uuid) :
    ∃ before, state.sweeps.lookup id = some before ∧
      (before.Condemns uuid ∨
        ∃ modified, event = .sweep id .judge ∧
          before.phase = .examined uuid modified ∧
          limits.expiresAfter ≤ state.now - modified) := by
  cases hstep with
  | elapsed | refused | reserved | advanced | landed | found | expired | unlinked
  | rmdired => exact ⟨sweep, hlookup, Or.inl hcondemns⟩
  | started =>
      rcases Table.lookup_insert_iff.mp hlookup with ⟨rfl, rfl⟩ | ⟨-, hold⟩
      · simp [Sweep.Condemns, Sweep.start] at hcondemns
      · exact ⟨sweep, hold, Or.inl hcondemns⟩
  | @swept other action before later inner hbefore hadvance =>
      rcases Table.lookup_insert_iff.mp hlookup with ⟨rfl, rfl⟩ | ⟨-, hold⟩
      · refine ⟨before, hbefore, ?_⟩
        cases hadvance with
        | examined | spared | finished =>
            simp only [Sweep.Condemns, reduceCtorEq, exists_false, or_false]
              at hcondemns
            exact Or.inl (Or.inl hcondemns)
        | @condemned found modified hphase hage =>
            simp only [Sweep.Condemns, reduceCtorEq, exists_false, or_false,
              SweepPhase.condemned.injEq] at hcondemns
            rcases hcondemns with hexpired | rfl
            · exact Or.inl (Or.inl hexpired)
            · exact Or.inr ⟨modified, rfl, hphase, hage⟩
        | @measured found bytes hphase =>
            simp only [Sweep.Condemns, reduceCtorEq, false_or,
              SweepPhase.removing.injEq] at hcondemns
            rcases hcondemns with hexpired | ⟨-, rfl, -⟩
            · exact Or.inl (Or.inl hexpired)
            · exact Or.inl (Or.inr (Or.inl hphase))
        | removed files total hphase hgone =>
            simp only [Sweep.Condemns, reduceCtorEq, exists_false, or_false]
              at hcondemns
            rcases List.mem_append.mp hcondemns with hexpired | hnew
            · exact Or.inl (Or.inl hexpired)
            · rw [List.mem_singleton.mp hnew]
              exact Or.inl (Or.inr (Or.inr ⟨_, hphase⟩))
      · exact ⟨sweep, hold, Or.inl hcondemns⟩

theorem Stepped.removal
    (hstep : Stepped limits state event after) {target : Target}
    (hmem : target ∈ after.removals) :
    target ∈ state.removals ∨
      ∃ uuid stored, state.inner.entries.lookup uuid = some stored ∧
        limits.expiresAfter ≤ state.now - stored.createdAt ∧
        target = stored.path.parent := by
  cases hstep with
  | @expired id stored hlookup hage =>
      rcases List.mem_cons.mp hmem with rfl | hold
      · exact Or.inr ⟨id, stored, hlookup, hage, rfl⟩
      · exact Or.inl hold
  | _ => exact Or.inl hmem

end Origins

/-! ## Steps -/

section Steps

variable {limits : Limits} {state after : State} {event : Event}

theorem Settled.step
    {uuid : Uuid} (hsettled : Settled state uuid) (hdrawn : uuid ∈ state.drawn)
    (hfresh : drawsFresh state event = true)
    (hstep : Stepped limits state event after) : Settled after uuid := by
  constructor
  · intro id download hlookup huuid
    rcases hstep.origin hlookup with
      ⟨before, hbefore, hsucceeds⟩ | ⟨other, request, rfl, rfl, -⟩
    · apply hsucceeds.disarmed
      exact hsettled.disarmed id before hbefore (hsucceeds.uuid.symm.trans huuid)
    · have hother : other = uuid := huuid
      rw [hother] at hfresh
      exact absurd hdrawn (of_decide_eq_true hfresh)
  · intro stored hmem huuid
    rcases hstep.returned hmem with hold | ⟨id, download, hcommits⟩
    · exact le_trans (hsettled.expired stored hold huuid) hstep.now_le
    · have howner : download.uuid = uuid := by
        rw [← huuid, hcommits.stored_eq]
        rfl
      have hdisarmed := hsettled.disarmed id download hcommits.lookup howner
      rw [hcommits.armed] at hdisarmed
      cases hdisarmed

theorem Serving.owner_finished
    (hserving : Serving limits state) (howner : OneOwner state)
    {stored : StoredFile} (hmem : stored ∈ state.returned)
    {id : ℕ} {download : Download} (hlookup : state.downloads.lookup id = some download)
    (huuid : download.uuid = stored.uuid) :
    download.armed = false ∧ download.phase = .finished := by
  obtain ⟨other, found, hfound, huuid', harmed, hphase⟩ :=
    (hserving.returned stored hmem).owner
  rw [howner.eq hlookup hfound (huuid.trans huuid'.symm)]
  exact ⟨harmed, hphase⟩

theorem Serving.settled_of_sweeping
    (hserving : Serving limits state) {id : ℕ} {uuid : Uuid} {target : Target}
    (hremoving : state.removing (.sweep id) = some target)
    (hcovers : target.covers uuid = true) : Settled state uuid := by
  simp only [State.removing] at hremoving
  split at hremoving
  · rename_i sweep hlookup
    split at hremoving
    · rename_i removed bytes hphase
      cases hremoving
      have hremoved := hserving.condemned id sweep hlookup removed
        (Or.inr (Or.inr ⟨bytes, hphase⟩))
      rw [eq_of_beq hcovers] at hremoved
      exact hremoved
    · cases hremoving
  · cases hremoving

theorem Serving.removes
    (hserving : Serving limits state) (howner : OneOwner state)
    (hspares : sparesUsed limits state event = true) {uuid : Uuid}
    (hremoves : Removes state event uuid) :
    (∀ id download, state.downloads.lookup id = some download →
        download.uuid = uuid → download.armed = true → download.phase ≠ .streaming) ∧
      ∀ stored ∈ state.returned, stored.uuid = uuid →
        stored.expiresAt ≤ state.now := by
  have hsettled : Settled state uuid →
      (∀ id download, state.downloads.lookup id = some download →
        download.uuid = uuid → download.armed = true → download.phase ≠ .streaming) ∧
      ∀ stored ∈ state.returned, stored.uuid = uuid →
        stored.expiresAt ≤ state.now := by
    intro hsettled
    refine ⟨?_, hsettled.expired⟩
    intro id download hlookup huuid harmed
    rw [hsettled.disarmed id download hlookup huuid] at harmed
    cases harmed
  obtain ⟨remover, target, hevent, hremoving, hcovers⟩ := hremoves
  cases remover with
  | get other =>
      simp only [State.removing, Option.ite_none_right_eq_some, Option.some.injEq]
        at hremoving
      obtain ⟨hmem, rfl⟩ := hremoving
      obtain ⟨removed, rfl, -, hremoved⟩ := hserving.removal other hmem
      rw [eq_of_beq hcovers] at hremoved
      exact hsettled hremoved
  | sweep id => exact hsettled (hserving.settled_of_sweeping hremoving hcovers)
  | download id =>
      simp only [State.removing] at hremoving
      split at hremoving
      · rename_i aborted hlookup
        simp only [Option.ite_none_right_eq_some, Option.some.injEq] at hremoving
        obtain ⟨haborting, rfl⟩ := hremoving
        by_cases hstore : aborted.path.parent = .storeDir
        · have hunused : state.isFilling uuid = false ∧ state.isServing uuid = false := by
            rcases hevent with rfl | rfl
            · simpa [sparesUsed, hlookup, hstore] using hspares
            · simpa [sparesUsed, hlookup, hstore] using hspares
          constructor
          · intro other download hdownload huuid harmed
            exact State.isFilling_eq_false hunused.1 hdownload huuid harmed
          · intro stored hmem huuid
            exact hserving.expired_of_not_serving hunused.2 hmem huuid
        · have hown : aborted.uuid = uuid := by
            unfold EntryPath.parent at hcovers hstore
            split at hstore
            · exact absurd rfl hstore
            · rename_i hname
              rw [if_neg hname] at hcovers
              exact eq_of_beq hcovers
          constructor
          · intro other download hdownload huuid harmed hstreaming
            rw [howner.eq hdownload hlookup (huuid.trans hown.symm), haborting]
              at hstreaming
            cases hstreaming
          · intro stored hmem huuid
            have hfinished := (hserving.owner_finished howner hmem hlookup
              (hown.trans huuid.symm)).2
            rw [haborting] at hfinished
            cases hfinished
      · cases hremoving

theorem Serving.initial (limits : Limits) (now : ℕ) (orphans : Disk) :
    Serving limits (State.initial now orphans) := by
  have hdownloads : ∀ id, (State.initial now orphans).downloads.lookup id = none :=
    fun _ => rfl
  have hsweeps : ∀ id, (State.initial now orphans).sweeps.lookup id = none :=
    fun _ => rfl
  have hentries : ∀ uuid,
      (State.initial now orphans).inner.entries.lookup uuid = none := fun _ => rfl
  constructor
  · intro id download hlookup
    rw [hdownloads] at hlookup
    cases hlookup
  · intro stored hmem
    cases hmem
  · intro stored hmem
    cases hmem
  · intro uuid stored hlookup
    rw [hentries] at hlookup
    cases hlookup
  · intro uuid hmem
    exact hmem
  · intro id sweep hlookup
    rw [hsweeps] at hlookup
    cases hlookup
  · intro id sweep hlookup
    rw [hsweeps] at hlookup
    cases hlookup
  · intro target hmem
    cases hmem

theorem Serving.served_entry
    (hserving : Serving limits state) (howner : OneOwner state)
    (hstep : Stepped limits state event after) {stored : StoredFile}
    (hmem : stored ∈ state.returned) (hnow : state.now < stored.expiresAt) :
    after.inner.entries.lookup stored.uuid = some stored := by
  have hreturned := hserving.returned stored hmem
  obtain ⟨hentry, -⟩ := hserving.served stored hmem hnow
  rcases hstep.entry_kept hentry with
    hkept | hage | ⟨id, download, hlookup, huuid, harmed⟩ | ⟨id, sweep, hlookup, hexpired⟩
  · exact hkept
  · have hcreated := hreturned.created
    have hexpires := hreturned.expires
    omega
  · rw [(hserving.owner_finished howner hmem hlookup huuid).1] at harmed
    cases harmed
  · have hsettled := hserving.condemned id sweep hlookup stored.uuid (Or.inl hexpired)
    exact absurd (hsettled.expired stored hmem rfl) (not_le.mpr hnow)

theorem Serving.settled_of_expired
    (hserving : Serving limits state) (howner : OneOwner state)
    {uuid : Uuid} {stored : StoredFile}
    (hentry : state.inner.entries.lookup uuid = some stored)
    (hage : limits.expiresAfter ≤ state.now - stored.createdAt) :
    Settled state uuid := by
  obtain ⟨hmem, rfl⟩ := hserving.entry uuid stored hentry
  constructor
  · intro id download hlookup huuid
    exact (hserving.owner_finished howner hmem hlookup huuid).1
  · intro found hfound huuid
    by_contra hlater
    obtain ⟨hsame, -⟩ := hserving.served found hfound (not_le.mp hlater)
    rw [huuid, hentry] at hsame
    cases hsame
    have hreturned := hserving.returned stored hmem
    have hcreated := hreturned.created
    have hexpires := hreturned.expires
    omega

theorem Serving.settled_of_judged
    (hserving : Serving limits state) {id : ℕ} {sweep : Sweep} {uuid : Uuid}
    {modified : ℕ} (hspares : sparesUsed limits state (.sweep id .judge) = true)
    (hlookup : state.sweeps.lookup id = some sweep)
    (hphase : sweep.phase = .examined uuid modified)
    (hage : limits.expiresAfter ≤ state.now - modified) :
    Settled state uuid := by
  have hunused : state.isLive uuid = false ∧ state.isServing uuid = false := by
    have hnot : ¬ state.now - modified < limits.expiresAfter := not_lt.mpr hage
    simpa [sparesUsed, hlookup, hphase, hnot] using hspares
  constructor
  · intro other download hdownload huuid
    exact State.isLive_eq_false hunused.1 hdownload huuid
  · intro stored hmem huuid
    exact hserving.expired_of_not_serving hunused.2 hmem huuid

theorem Serving.step
    (hserving : Serving limits state) (howner : OneOwner state)
    (hfresh : drawsFresh state event = true)
    (hspares : sparesUsed limits state event = true)
    (hstep : Stepped limits state event after) : Serving limits after where
  filling := by
    intro id download hlookup harmed hphase
    rcases hstep.filling hlookup harmed hphase with
      ⟨before, hbefore, hbeforeArmed, hstreaming, hpath⟩ | hcreated
    · have huuid : before.uuid = download.uuid := congrArg EntryPath.uuid hpath
      obtain ⟨hparent, file, hfile⟩ :=
        hserving.filling id before hbefore hbeforeArmed hstreaming
      rw [← hpath, ← huuid]
      refine ⟨hparent, ?_⟩
      rcases hstep.file_kept hfile with hkept | hremoves
      · exact hkept
      · exact absurd hstreaming
          ((hserving.removes howner hspares hremoves).1 id before hbefore rfl hbeforeArmed)
    · exact hcreated
  returned := by
    intro stored hmem
    rcases hstep.returned hmem with hold | ⟨id, download, hcommits⟩
    · have hreturned := hserving.returned stored hold
      obtain ⟨id, download, hlookup, huuid, harmed, hphase⟩ := hreturned.owner
      obtain ⟨later, hlater, hsucceeds⟩ := hstep.survives hlookup
      refine ⟨⟨id, later, hlater, hsucceeds.uuid.trans huuid,
        hsucceeds.disarmed harmed, hsucceeds.finished hphase⟩, ?_, hreturned.expires,
        hreturned.parent⟩
      exact le_trans hreturned.created hstep.now_le
    · obtain ⟨hparent, -⟩ :=
        hserving.filling id download hcommits.lookup hcommits.armed hcommits.streaming
      obtain rfl := hcommits.stored_eq
      exact ⟨⟨id, download.disarmed, hcommits.later, rfl, rfl, rfl⟩, hstep.now_le,
        min_le_left _ _, hparent⟩
  served := by
    intro stored hmem hnow
    rcases hstep.returned hmem with hold | ⟨id, download, hcommits⟩
    · have hbefore : state.now < stored.expiresAt := lt_of_le_of_lt hstep.now_le hnow
      refine ⟨hserving.served_entry howner hstep hold hbefore, ?_⟩
      obtain ⟨-, file, hfile⟩ := hserving.served stored hold hbefore
      rcases hstep.file_kept hfile with hkept | hremoves
      · exact hkept
      · have hexpired := (hserving.removes howner hspares hremoves).2 stored hold rfl
        omega
    · refine ⟨hcommits.entry, ?_⟩
      obtain ⟨-, hfile⟩ :=
        hserving.filling id download hcommits.lookup hcommits.armed hcommits.streaming
      rw [hcommits.disk, hcommits.stored_eq]
      exact hfile
  entry := by
    intro uuid stored hlookup
    rcases hstep.entry hlookup with hold | ⟨id, download, -, huuid, -, rfl, -, hmem⟩
    · obtain ⟨hmem, huuid⟩ := hserving.entry uuid stored hold
      exact ⟨hstep.returned_subset hmem, huuid⟩
    · exact ⟨hmem, huuid⟩
  dir_drawn := by
    intro uuid hmem
    rcases hstep.mem_disk hmem with hold | ⟨id, download, -, hlookup, rfl, -⟩
    · exact hstep.drawn (hserving.dir_drawn uuid hold)
    · exact hstep.drawn (howner.drawn id download hlookup)
  swept_drawn := by
    intro id sweep hlookup uuid hmentions
    rcases hstep.mentions hlookup hmentions with ⟨before, hbefore, hold⟩ | hmem
    · exact hstep.drawn (hserving.swept_drawn id before hbefore uuid hold)
    · exact hstep.drawn (hserving.dir_drawn uuid hmem)
  condemned := by
    intro id sweep hlookup uuid hcondemns
    obtain ⟨before, hbefore, hcause⟩ := hstep.condemns hlookup hcondemns
    rcases hcause with hold | ⟨modified, rfl, hphase, hage⟩
    · refine (hserving.condemned id before hbefore uuid hold).step ?_ hfresh hstep
      apply hserving.swept_drawn id before hbefore
      rcases hold with hexpired | hphase | ⟨bytes, hphase⟩
      · exact Or.inl hexpired
      · exact Or.inr (by rw [hphase]; rfl)
      · exact Or.inr (by rw [hphase]; rfl)
    · refine (hserving.settled_of_judged hspares hbefore hphase hage).step ?_ hfresh hstep
      exact hserving.swept_drawn id before hbefore uuid (Or.inr (by rw [hphase]; rfl))
  removal := by
    intro target hmem
    rcases hstep.removal hmem with hold | ⟨uuid, stored, hentry, hage, rfl⟩
    · obtain ⟨uuid, rfl, hdrawn, hsettled⟩ := hserving.removal target hold
      exact ⟨uuid, rfl, hstep.drawn hdrawn, hsettled.step hdrawn hfresh hstep⟩
    · obtain ⟨hreturned, rfl⟩ := hserving.entry uuid stored hentry
      have hfacts := hserving.returned stored hreturned
      obtain ⟨id, download, hlookup, huuid, -, -⟩ := hfacts.owner
      have hdrawn : stored.uuid ∈ state.drawn := by
        rw [← huuid]
        exact howner.drawn id download hlookup
      have hsettled := hserving.settled_of_expired howner hentry hage
      exact ⟨stored.uuid, hfacts.parent, hstep.drawn hdrawn,
        hsettled.step hdrawn hfresh hstep⟩

end Steps

/-! ## Runs -/

theorem Serving.promised
    {limits : Limits} {state : State} (hserving : Serving limits state) :
    Promised limits state := by
  intro stored hmem hnow
  obtain ⟨hentry, hfile⟩ := hserving.served stored hmem hnow
  have hreturned := hserving.returned stored hmem
  have hcreated := hreturned.created
  have hexpires := hreturned.expires
  have hlive : ¬ state.inner.isExpired limits state.now stored.uuid = true := by
    simp only [Inner.isExpired, hentry, Option.any_some, decide_eq_true_eq]
    omega
  refine ⟨?_, hfile⟩
  rw [Inner.get, if_neg hlive, hentry]

theorem Serving.sweepSparesLive
    {limits : Limits} {state after : State} {event : Event}
    (hserving : Serving limits state) (hstep : Stepped limits state event after) :
    SweepSparesLive state event := by
  rintro id uuid (rfl | rfl)
  · cases hstep with
    | unlinked hremoving hcovers =>
        exact State.isLive_of_settled (hserving.settled_of_sweeping hremoving hcovers)
  · cases hstep with
    | rmdired hremoving hcovers =>
        exact State.isLive_of_settled (hserving.settled_of_sweeping hremoving hcovers)

/-- In the runs that spare what is used, every committed file is found and on
disk until it expires, and no sweep removes the directory of a reservation. -/
theorem committed_files_served
    {limits : Limits} {now : ℕ} {orphans : Disk} (run : Run limits now orphans)
    (hfresh : ∀ n, drawsFresh (run.state n) (run.label n) = true)
    (hspares : ∀ n, sparesUsed limits (run.state n) (run.label n) = true) (n : ℕ) :
    Promised limits (run.state n) ∧ SweepSparesLive (run.state n) (run.label n) := by
  have hinvariant : ∀ n, OneOwner (run.state n) ∧ Serving limits (run.state n) := by
    intro n
    induction n with
    | zero =>
        rw [run.start]
        exact ⟨OneOwner.initial now orphans, Serving.initial limits now orphans⟩
    | succ n ih =>
        have hstep := State.next_spec (run.step n)
        exact ⟨ih.1.step hstep (hfresh n),
          ih.2.step ih.1 (hfresh n) (hspares n) hstep⟩
  have hserving := (hinvariant n).2
  exact ⟨hserving.promised, hserving.sweepSparesLive (State.next_spec (run.step n))⟩

namespace Sample

/-- A sweep from listing to the end that finds the directory of one UUID. -/
def sweeping (id : ℕ) (uuid : Uuid) : List Event :=
  [.startSweep id, .sweep id (.examine uuid), .sweep id .judge, .sweep id .measure,
    .unlink (.sweep id) uuid, .rmdir (.sweep id) uuid, .sweep id (.removed true),
    .sweep id .finish]

/-- A file that is swept after it has expired. -/
def sweptLate : List Event :=
  opening 0 "a" 5 ++
    [.elapse 50, .download 0 (.chunk 5), .land "a" 5, .download 0 .commit,
      .elapse 60] ++ sweeping 0 "a"

theorem sweptLate_served :
    (∀ n, Promised limits ((run sweptLate (by decide +kernel)).state n)) ∧
      ∀ n, SweepSparesLive ((run sweptLate (by decide +kernel)).state n)
        ((run sweptLate (by decide +kernel)).label n) := by
  rw [← forall_and]
  apply committed_files_served
  · exact Transition.Run.ofLabels_checked (by decide +kernel) fun _ => rfl
  · exact Transition.Run.ofLabels_checked (by decide +kernel) fun _ => rfl

/-- The same download, swept when its directory, but not its commit, is as old
as the expiry time. -/
def sweptEarly : List Event :=
  opening 0 "a" 5 ++
    [.elapse 50, .download 0 (.chunk 5), .land "a" 5, .download 0 .commit,
      .elapse 10] ++ sweeping 0 "a"

def earlyFile : StoredFile where
  uuid := "a"
  attachmentId := 7
  filename := "report.pdf"
  contentType := some "application/pdf"
  size := 5
  path := ⟨"a", "report.pdf"⟩
  expiresAt := 110
  createdAt := 50

theorem committed_file_swept_early :
    ¬ ∀ (run : Run limits 0 ∅) (n : ℕ),
      Promised limits (run.state n) ∧ SweepSparesLive (run.state n) (run.label n) := by
  intro hserved
  obtain ⟨hpromised, -⟩ := hserved (run sweptEarly (by decide +kernel)) 17
  obtain ⟨hget, -⟩ := hpromised earlyFile (by decide +kernel) (by decide +kernel)
  revert hget
  decide +kernel

end Sample

end Attachments

end RuprogressMcp
