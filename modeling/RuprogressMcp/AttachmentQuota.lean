import RuprogressMcp.AttachmentStore

/-!
# The quota of the attachment store

The bytes counted as in flight are those of the reservations whose guard is
still armed, and together with the committed files they stay within the bound
of the store.  It follows that no sum of the accounting saturates or wraps and
that every release gives back exactly what its reservation held.
-/

namespace RuprogressMcp

namespace Attachments

def committedBytes (inner : Inner) : ℕ := inner.entries.total (·.size)

/-- The quota that a download holds. -/
def Download.held (download : Download) : ℕ :=
  if download.armed then download.bytes else 0

/-- The bytes held by the armed reservations. -/
def liveBytes (downloads : Table ℕ Download) : ℕ := downloads.total Download.held

theorem Download.held_of_armed
    {download : Download} (harmed : download.armed = true) :
    download.held = download.bytes := by
  simp [Download.held, harmed]

structure Ledger (limits : Limits) (state : State) : Prop where
  inFlight_eq : state.inner.inFlight = liveBytes state.downloads
  bound : committedBytes state.inner + state.inner.inFlight ≤ limits.maxStoreBytes
  size_le : ∀ uuid stored, state.inner.entries.lookup uuid = some stored →
    stored.size ≤ limits.maxDownloadBytes
  written_le : ∀ id download, state.downloads.lookup id = some download →
    download.armed = true →
    download.written ≤ download.bytes ∧ download.written ≤ limits.maxDownloadBytes

/-! ## Admission -/

section Admission

variable {limits : Limits} {inner : Inner} {download : Download}

theorem projected_eq
    (hmax : limits.maxStoreBytes < 2 ^ 64 - 1)
    (hbound : committedBytes inner + inner.inFlight ≤ limits.maxStoreBytes)
    (additional : ℕ) :
    saturatingAdd (saturatingAdd inner.committedLocked inner.inFlight) additional =
      min (committedBytes inner + inner.inFlight + additional) (2 ^ 64 - 1) := by
  have hcommitted : inner.committedLocked = committedBytes inner := by
    apply Nat.mod_eq_of_lt
    unfold committedBytes at hbound
    omega
  unfold saturatingAdd
  rw [hcommitted]
  omega

theorem admits_true
    {after : Inner} {additional : ℕ}
    (hmax : limits.maxStoreBytes < 2 ^ 64 - 1)
    (hbound : committedBytes inner + inner.inFlight ≤ limits.maxStoreBytes)
    (hadmits : inner.admits limits additional = (true, after)) :
    committedBytes inner + inner.inFlight + additional ≤ limits.maxStoreBytes ∧
      after = { inner with inFlight := inner.inFlight + additional } := by
  unfold Inner.admits at hadmits
  simp only [projected_eq hmax hbound] at hadmits
  split at hadmits
  · exact absurd ((Prod.mk.injEq ..).mp hadmits).1 (by simp)
  · rename_i hfits
    have hexact : saturatingAdd inner.inFlight additional =
        inner.inFlight + additional := by
      unfold saturatingAdd
      omega
    rw [hexact] at hadmits
    exact ⟨by omega, ((Prod.mk.injEq ..).mp hadmits).2.symm⟩

theorem receive_spec
    (hmax : limits.maxStoreBytes < 2 ^ 64 - 1)
    (hbound : committedBytes inner + inner.inFlight ≤ limits.maxStoreBytes)
    (hbytes : download.bytes ≤ inner.inFlight) (length : ℕ) :
    download.receive limits inner length =
        ({ download with phase := .aborting }, inner) ∨
      ∃ written extra,
        download.receive limits inner length =
          ({ download with written := written, bytes := download.bytes + extra },
            { inner with inFlight := inner.inFlight + extra }) ∧
        written ≤ download.bytes + extra ∧
        written ≤ limits.maxDownloadBytes ∧
        committedBytes inner + inner.inFlight + extra ≤ limits.maxStoreBytes := by
  unfold Download.receive
  simp only
  split
  · exact Or.inl rfl
  · rename_i hcap
    split
    · rename_i hdeficit
      split
      · rename_i after hadmits
        obtain ⟨hfits, rfl⟩ := admits_true hmax hbound hadmits
        refine Or.inr ⟨_, _, ?_, ?_, not_lt.mp hcap, hfits⟩
        · have hexact : saturatingAdd download.bytes
              (saturatingAdd download.written length - download.bytes) =
              download.bytes +
                (saturatingAdd download.written length - download.bytes) := by
            unfold saturatingAdd at hfits ⊢
            omega
          rw [hexact]
        · omega
      · rename_i after hadmits
        rw [Inner.admits_false hadmits]
        exact Or.inl rfl
    · rename_i hcovered
      exact Or.inr ⟨_, 0, rfl, not_lt.mp hcovered, not_lt.mp hcap, hbound⟩

end Admission

/-! ## Steps -/

section Steps

variable {limits : Limits} {state after : State} {event : Event}

theorem Ledger.initial (limits : Limits) (now : ℕ) (orphans : Disk) :
    Ledger limits (State.initial now orphans) where
  inFlight_eq := rfl
  bound := Nat.zero_le _
  size_le uuid stored hlookup := by
    have hnone : AList.lookup uuid (∅ : Table Uuid StoredFile) = none := rfl
    rw [State.initial, hnone] at hlookup
    cases hlookup
  written_le id download hlookup _ := by
    have hnone : AList.lookup id (∅ : Table ℕ Download) = none := rfl
    rw [State.initial, hnone] at hlookup
    cases hlookup

theorem Ledger.bytes_le
    (hledger : Ledger limits state) {id : ℕ} {download : Download}
    (hlookup : state.downloads.lookup id = some download)
    (harmed : download.armed = true) :
    download.bytes ≤ state.inner.inFlight := by
  rw [hledger.inFlight_eq, ← Download.held_of_armed harmed]
  exact Table.weight_le_total _ hlookup

theorem liveBytes_insert
    {downloads : Table ℕ Download} {id : ℕ} {before : Download}
    (download : Download) (hlookup : downloads.lookup id = some before) :
    liveBytes (downloads.insert id download) + before.held =
      liveBytes downloads + download.held :=
  Table.total_replace Download.held download hlookup

theorem committedBytes_removeAll_le (inner : Inner) (uuids : List Uuid) :
    committedBytes (inner.removeAll uuids) ≤ committedBytes inner := by
  unfold committedBytes Inner.removeAll
  simp only
  induction uuids generalizing inner with
  | nil => exact le_refl _
  | cons uuid rest ih =>
      rw [List.foldl_cons]
      exact le_trans (ih ⟨inner.entries.erase uuid, inner.inFlight⟩)
        (Table.total_erase_le _ _ _)

theorem lookup_removeAll (inner : Inner) (uuids : List Uuid)
    {uuid : Uuid} {stored : StoredFile} :
    (inner.removeAll uuids).entries.lookup uuid = some stored ↔
      uuid ∉ uuids ∧ inner.entries.lookup uuid = some stored := by
  unfold Inner.removeAll
  simp only
  induction uuids generalizing inner with
  | nil => simp
  | cons first rest ih =>
      rw [List.foldl_cons, ih ⟨inner.entries.erase first, inner.inFlight⟩,
        Table.lookup_erase_iff]
      simp only [List.mem_cons, not_or]
      tauto

theorem Ledger.of_fewer_entries
    (hledger : Ledger limits state)
    (hdownloads : after.downloads = state.downloads)
    (hinFlight : after.inner.inFlight = state.inner.inFlight)
    (hcommitted : committedBytes after.inner ≤ committedBytes state.inner)
    (hentries : ∀ uuid stored, after.inner.entries.lookup uuid = some stored →
      state.inner.entries.lookup uuid = some stored) :
    Ledger limits after where
  inFlight_eq := by rw [hinFlight, hdownloads, hledger.inFlight_eq]
  bound := by
    have hbound := hledger.bound
    rw [hinFlight]
    omega
  size_le uuid stored hlookup := hledger.size_le uuid stored (hentries uuid stored hlookup)
  written_le id download hlookup harmed := by
    rw [hdownloads] at hlookup
    exact hledger.written_le id download hlookup harmed

theorem Ledger.of_replaced
    {id : ℕ} {before download : Download}
    (hledger : Ledger limits state)
    (hlookup : state.downloads.lookup id = some before)
    (hdownloads : after.downloads = state.downloads.insert id download)
    (hinFlight : after.inner.inFlight + before.held =
      state.inner.inFlight + download.held)
    (hbound : committedBytes after.inner + after.inner.inFlight ≤ limits.maxStoreBytes)
    (hsize : ∀ uuid stored, after.inner.entries.lookup uuid = some stored →
      stored.size ≤ limits.maxDownloadBytes)
    (hwritten : download.armed = true →
      download.written ≤ download.bytes ∧
        download.written ≤ limits.maxDownloadBytes) :
    Ledger limits after where
  inFlight_eq := by
    have hlive := liveBytes_insert download hlookup
    have hbefore := hledger.inFlight_eq
    rw [hdownloads]
    omega
  bound := hbound
  size_le := hsize
  written_le other found hfound harmed := by
    rw [hdownloads] at hfound
    rcases Table.lookup_insert_iff.mp hfound with ⟨rfl, rfl⟩ | ⟨-, hold⟩
    · exact hwritten harmed
    · exact hledger.written_le other found hold harmed

theorem Ledger.advance
    {id : ℕ} {progress : Progress} {download : Download} {effect : DownloadEffect}
    (hmax : limits.maxStoreBytes < 2 ^ 64 - 1)
    (hledger : Ledger limits state)
    (hlookup : state.downloads.lookup id = some download)
    (hadvance : Advanced limits state.now state.inner state.disk download progress
      effect)
    (hinner : after.inner = effect.inner)
    (hdownloads : after.downloads = state.downloads.insert id effect.download) :
    Ledger limits after := by
  have hwritten := hledger.written_le id download hlookup
  have hbound := hledger.bound
  cases hadvance with
  | moved | madeDir | created =>
      apply hledger.of_replaced hlookup hdownloads
      · rw [hinner]
        rfl
      · rw [hinner]
        exact hbound
      · rw [hinner]
        exact hledger.size_le
      · exact hwritten
  | received length hstreaming harmed =>
      obtain hrefused | ⟨written, extra, haccepted, hcovered, hcap, hfits⟩ :=
        receive_spec hmax hbound (hledger.bytes_le hlookup harmed) length
      · rw [hrefused] at hinner hdownloads
        apply hledger.of_replaced hlookup hdownloads
        · rw [hinner]
          rfl
        · rw [hinner]
          exact hbound
        · rw [hinner]
          exact hledger.size_le
        · exact hwritten
      · rw [haccepted] at hinner hdownloads
        apply hledger.of_replaced hlookup hdownloads
        · rw [hinner]
          simp only [Download.held, harmed, if_true]
          omega
        · rw [hinner]
          unfold committedBytes at hfits ⊢
          simp only
          omega
        · rw [hinner]
          exact hledger.size_le
        · exact fun _ => ⟨hcovered, hcap⟩
  | committed hstreaming harmed =>
      have hbytes := hledger.bytes_le hlookup harmed
      obtain ⟨hcovered, hcap⟩ := hwritten harmed
      apply hledger.of_replaced hlookup hdownloads
      · rw [hinner]
        simp only [Inner.commit, Download.held, Download.disarmed, harmed, if_true]
        simp
        omega
      · have hinsert := Table.total_insert_le (·.size)
          (download.stored limits state.now).uuid (download.stored limits state.now)
          state.inner.entries
        rw [hinner]
        unfold committedBytes at hbound ⊢
        simp only [Inner.commit, Download.stored] at hinsert ⊢
        omega
      · rw [hinner]
        intro uuid stored hstored
        rcases Table.lookup_insert_iff.mp hstored with ⟨rfl, rfl⟩ | ⟨-, hold⟩
        · exact hcap
        · exact hledger.size_le uuid stored hold
      · intro hfalse
        exact absurd hfalse (by simp [Download.disarmed])
  | released phase hprogress harmed hphase =>
      have hbytes := hledger.bytes_le hlookup harmed
      apply hledger.of_replaced hlookup hdownloads
      · rw [hinner]
        simp only [Inner.release, Download.held, harmed, if_true]
        simp
        omega
      · rw [hinner]
        unfold committedBytes at hbound ⊢
        simp only [Inner.release]
        omega
      · rw [hinner]
        exact hledger.size_le
      · intro hfalse
        exact absurd hfalse (by simp)

theorem Ledger.step
    (hmax : limits.maxStoreBytes < 2 ^ 64 - 1)
    (hledger : Ledger limits state)
    (hnext : state.next limits event = some after) :
    Ledger limits after := by
  cases State.next_spec hnext with
  | refused | found => exact hledger
  | elapsed | landed | unlinked | rmdired | started =>
      exact hledger.of_fewer_entries rfl rfl (le_refl _) fun _ _ hlookup => hlookup
  | @reserved id uuid request inner hnew hadmits =>
      obtain ⟨hfits, rfl⟩ := admits_true hmax hledger.bound hadmits
      have hlive : liveBytes (state.downloads.insert id (request.reservation uuid)) =
          request.bytes + liveBytes state.downloads :=
        Table.total_insert_of_none Download.held _ hnew
      refine ⟨?_, ?_, hledger.size_le, ?_⟩
      · have hinFlight := hledger.inFlight_eq
        simp only
        omega
      · unfold committedBytes at hfits ⊢
        simp only
        omega
      · intro other found hfound harmed
        rcases Table.lookup_insert_iff.mp hfound with ⟨rfl, rfl⟩ | ⟨-, hold⟩
        · exact ⟨Nat.zero_le _, Nat.zero_le _⟩
        · exact hledger.written_le other found hold harmed
  | advanced hlookup hadvance =>
      exact hledger.advance hmax hlookup hadvance rfl rfl
  | expired hlookup hage =>
      refine hledger.of_fewer_entries rfl rfl (Table.total_erase_le _ _ _) ?_
      intro uuid stored hstored
      exact (Table.lookup_erase_iff.mp hstored).2
  | swept hlookup hadvance =>
      cases hadvance with
      | examined | spared | condemned | measured | removed =>
          exact hledger.of_fewer_entries rfl rfl (le_refl _) fun _ _ hlookup => hlookup
      | finished hphase =>
          refine hledger.of_fewer_entries rfl rfl (committedBytes_removeAll_le _ _) ?_
          intro uuid stored hstored
          exact ((lookup_removeAll _ _).mp hstored).2

end Steps

/-! ## Runs -/

/-- What a single step does to the totals.  A refused reservation or extension
changes nothing, a committed file is covered by its reservation and the cap of
a download, and a release gives back all of the reservation and no more. -/
structure StepExact (limits : Limits) (state : State) (event : Event)
    (after : State) : Prop where
  refused_reserve : ∀ id uuid request, event = .reserve id uuid request →
    after.downloads.lookup id = none → after.inner = state.inner
  refused_chunk : ∀ id length download, event = .download id (.chunk length) →
    after.downloads.lookup id = some download → download.phase = .aborting →
    after.inner = state.inner
  commit_covered : ∀ id download, event = .download id .commit →
    state.downloads.lookup id = some download →
    after.inner.entries.lookup download.uuid =
        some (download.stored limits state.now) ∧
      download.written ≤ download.bytes ∧
      download.written ≤ limits.maxDownloadBytes
  release_exact : ∀ id progress download, event = .download id progress →
    progress = .commit ∨ progress = .drop ∨ progress = .cancel →
    state.downloads.lookup id = some download →
    download.bytes ≤ state.inner.inFlight ∧
      after.inner.inFlight + download.bytes = state.inner.inFlight

section Runs

variable {limits : Limits} {state after : State} {event : Event}

theorem release_of_advanced
    {now : ℕ} {inner : Inner} {disk : Disk} {download : Download}
    {progress : Progress} {effect : DownloadEffect}
    (hadvance : download.advance limits now inner disk progress = some effect)
    (hprogress : progress = .commit ∨ progress = .drop ∨ progress = .cancel) :
    download.armed = true ∧
      effect.inner.inFlight = inner.inFlight - download.bytes := by
  obtain rfl | rfl | rfl := hprogress
  all_goals
    simp only [Download.advance, Option.ite_none_right_eq_some] at hadvance
    obtain ⟨⟨-, harmed⟩, heffect⟩ := hadvance
    cases heffect
    exact ⟨harmed, rfl⟩

theorem next_download
    {id : ℕ} {progress : Progress} {download : Download}
    (hnext : state.next limits (.download id progress) = some after)
    (hlookup : state.downloads.lookup id = some download) :
    ∃ effect,
      download.advance limits state.now state.inner state.disk progress = some effect ∧
      after = { state with
        inner := effect.inner
        disk := effect.disk
        downloads := state.downloads.insert id effect.download
        returned := effect.returned ++ state.returned } := by
  simp only [State.next, hlookup] at hnext
  split at hnext
  · rename_i effect hadvance
    cases hnext
    exact ⟨effect, hadvance, rfl⟩
  · cases hnext

theorem Ledger.stepExact
    (hmax : limits.maxStoreBytes < 2 ^ 64 - 1)
    (hledger : Ledger limits state)
    (hnext : state.next limits event = some after) :
    StepExact limits state event after where
  refused_reserve := by
    rintro id uuid request rfl hnone
    cases State.next_spec hnext with
    | refused => rfl
    | reserved =>
        rw [AList.lookup_insert] at hnone
        cases hnone
  refused_chunk := by
    rintro id length found rfl hfound hphase
    cases State.next_spec hnext with
    | advanced hlookup hadvance =>
        cases hadvance with
        | moved | madeDir | created => rfl
        | received length hstreaming harmed =>
            obtain hrefused | ⟨written, extra, haccepted, -⟩ :=
              receive_spec hmax hledger.bound (hledger.bytes_le hlookup harmed) length
            · simp only [hrefused]
            · rw [AList.lookup_insert, haccepted] at hfound
              cases hfound
              rw [hstreaming] at hphase
              cases hphase
        | released phase hprogress => simp at hprogress
  commit_covered := by
    rintro id download rfl hlookup
    obtain ⟨effect, hadvance, rfl⟩ := next_download hnext hlookup
    simp only [Download.advance, Option.ite_none_right_eq_some] at hadvance
    obtain ⟨⟨-, harmed⟩, heffect⟩ := hadvance
    cases heffect
    exact ⟨AList.lookup_insert _, hledger.written_le id download hlookup harmed⟩
  release_exact := by
    rintro id progress download rfl hprogress hlookup
    obtain ⟨effect, hadvance, rfl⟩ := next_download hnext hlookup
    obtain ⟨harmed, hinFlight⟩ := release_of_advanced hadvance hprogress
    have hbytes := hledger.bytes_le hlookup harmed
    refine ⟨hbytes, ?_⟩
    simp only [hinFlight]
    omega

theorem Ledger.reachable
    (hmax : limits.maxStoreBytes < 2 ^ 64 - 1) {now : ℕ} {orphans : Disk}
    (run : Run limits now orphans) (n : ℕ) : Ledger limits (run.state n) :=
  run.invariant (Ledger limits) (Ledger.initial limits now orphans)
    (fun _ _ _ hledger hnext => hledger.step hmax hnext) n

/-- The accounting is exact in every state and every step of every run. -/
theorem quota_accounting_exact
    (hmax : limits.maxStoreBytes < 2 ^ 64 - 1) {now : ℕ} {orphans : Disk}
    (run : Run limits now orphans) (n : ℕ) :
    (run.state n).inner.inFlight = liveBytes (run.state n).downloads ∧
      committedBytes (run.state n).inner + (run.state n).inner.inFlight ≤
        limits.maxStoreBytes ∧
      (∀ uuid stored, (run.state n).inner.entries.lookup uuid = some stored →
        stored.size ≤ limits.maxDownloadBytes) ∧
      StepExact limits (run.state n) (run.label n) (run.state (n + 1)) := by
  have hledger := Ledger.reachable hmax run n
  exact ⟨hledger.inFlight_eq, hledger.bound, hledger.size_le,
    hledger.stepExact hmax (run.step n)⟩

end Runs

namespace Sample

def limits : Limits where
  expiresAfter := 60
  maxDownloadBytes := 10
  maxStoreBytes := 12
  maxUtc := 1000000

def request (bytes : ℕ) : DownloadRequest :=
  ⟨7, "report.pdf", some "application/pdf", bytes⟩

/-- Download `id` reserves and opens its file. -/
def opening (id : ℕ) (uuid : Uuid) (bytes : ℕ) : List Event :=
  [.reserve id uuid (request bytes), .download id (.makeDir .made),
    .download id (.answer true), .download id (.createFile true)]

def run (labels : List Event)
    (henabled : Transition.Enabled (State.next limits) (State.initial 0 ∅) labels =
      true) : Run limits 0 ∅ :=
  .ofLabels (State.next limits) (State.initial 0 ∅) labels (.elapse 0)
    (fun _ => rfl) henabled

/-- Two downloads at once: the first commits less than it reserved, the second
needs more than it declared and is cancelled. -/
def twoDownloads : List Event :=
  opening 0 "a" 8 ++ opening 1 "b" 2 ++
    [.download 0 (.chunk 5), .download 1 (.chunk 4), .download 0 .commit,
      .download 1 (.chunk 3), .download 1 .cancel]

theorem twoDownloads_exact :
    limits.maxStoreBytes < 2 ^ 64 - 1 ∧
      ∀ n,
        ((run twoDownloads (by decide +kernel)).state n).inner.inFlight =
            liveBytes ((run twoDownloads (by decide +kernel)).state n).downloads ∧
          committedBytes ((run twoDownloads (by decide +kernel)).state n).inner +
              ((run twoDownloads (by decide +kernel)).state n).inner.inFlight ≤
            limits.maxStoreBytes ∧
          (∀ uuid stored,
            ((run twoDownloads (by decide +kernel)).state n).inner.entries.lookup uuid =
                some stored → stored.size ≤ limits.maxDownloadBytes) ∧
          StepExact limits ((run twoDownloads (by decide +kernel)).state n)
            ((run twoDownloads (by decide +kernel)).label n)
            ((run twoDownloads (by decide +kernel)).state (n + 1)) :=
  ⟨by decide, fun n => quota_accounting_exact (by decide) (run twoDownloads _) n⟩

end Sample

end Attachments

end RuprogressMcp
