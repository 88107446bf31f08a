import RuprogressMcp.AttachmentStore

/-!
# Who owns a UUID

Every directory, entry and sweep of the store refers to a UUID that one
reservation drew.  Reservations are never forgotten here, so a UUID keeps its
owner through all later steps, and while UUIDs are drawn afresh it has no
other.
-/

namespace RuprogressMcp

namespace Attachments

/-- What later states keep of a download. -/
structure Succeeds (before after : Download) : Prop where
  uuid : after.uuid = before.uuid
  made : before.phase ≠ .reserving → after.phase ≠ .reserving
  disarmed : before.armed = false → after.armed = false
  finished : before.phase = .finished → after.phase = .finished

theorem Succeeds.refl (download : Download) : Succeeds download download :=
  ⟨rfl, fun hmade => hmade, fun hdisarmed => hdisarmed, fun hfinished => hfinished⟩

theorem admits_entries
    {limits : Limits} {inner after : Inner} {additional : ℕ} {admitted : Bool}
    (hadmits : inner.admits limits additional = (admitted, after)) :
    after.entries = inner.entries := by
  unfold Inner.admits at hadmits
  simp only at hadmits
  split at hadmits
  · rw [← ((Prod.mk.injEq ..).mp hadmits).2]
  · rw [← ((Prod.mk.injEq ..).mp hadmits).2]

section Receive

variable (limits : Limits) (inner : Inner) (download : Download) (length : ℕ)

/-- A chunk ends the stream or is written, and touches no entry. -/
theorem receive_cases :
    ∃ after : Inner, after.entries = inner.entries ∧
      (download.receive limits inner length =
          ({ download with phase := .aborting }, after) ∨
        ∃ bytes, download.receive limits inner length =
          ({ download with
              written := saturatingAdd download.written length
              bytes := bytes }, after)) := by
  unfold Download.receive
  simp only
  split
  · exact ⟨inner, rfl, Or.inl rfl⟩
  · split
    · split
      · rename_i after hadmits
        exact ⟨after, admits_entries hadmits, Or.inr ⟨_, rfl⟩⟩
      · rename_i after hadmits
        exact ⟨after, admits_entries hadmits, Or.inl rfl⟩
    · exact ⟨inner, rfl, Or.inr ⟨_, rfl⟩⟩

@[simp] theorem receive_uuid :
    (download.receive limits inner length).1.uuid = download.uuid := by
  obtain ⟨after, _, heq | ⟨bytes, heq⟩⟩ := receive_cases limits inner download length
  all_goals rw [heq]

@[simp] theorem receive_armed :
    (download.receive limits inner length).1.armed = download.armed := by
  obtain ⟨after, _, heq | ⟨bytes, heq⟩⟩ := receive_cases limits inner download length
  all_goals rw [heq]

@[simp] theorem receive_name :
    (download.receive limits inner length).1.name = download.name := by
  obtain ⟨after, _, heq | ⟨bytes, heq⟩⟩ := receive_cases limits inner download length
  all_goals rw [heq]

theorem receive_phase :
    (download.receive limits inner length).1.phase = download.phase ∨
      (download.receive limits inner length).1.phase = .aborting := by
  obtain ⟨after, _, heq | ⟨bytes, heq⟩⟩ := receive_cases limits inner download length
  · exact Or.inr (by rw [heq])
  · exact Or.inl (by rw [heq])

theorem receive_entries :
    (download.receive limits inner length).2.entries = inner.entries := by
  obtain ⟨after, hentries, heq | ⟨bytes, heq⟩⟩ :=
    receive_cases limits inner download length
  all_goals
    rw [heq]
    exact hentries

theorem receive_written_le (hwritten : download.written ≤ 2 ^ 64 - 1) :
    download.written ≤ (download.receive limits inner length).1.written := by
  obtain ⟨after, _, heq | ⟨bytes, heq⟩⟩ := receive_cases limits inner download length
  · rw [heq]
  · rw [heq]
    exact le_min (Nat.le_add_right _ _) hwritten

end Receive

section Steps

variable {limits : Limits} {state after : State} {event : Event}

theorem Advanced.succeeds
    {now : ℕ} {inner : Inner} {disk : Disk} {download : Download}
    {progress : Progress} {effect : DownloadEffect}
    (hadvance : Advanced limits now inner disk download progress effect) :
    Succeeds download effect.download := by
  cases hadvance with
  | moved phase hactive hphase =>
      exact ⟨rfl, fun _ => hphase.1, id, fun hfinished => absurd hfinished hactive⟩
  | madeDir phase hreserving hphase =>
      exact ⟨rfl, fun _ => hphase.1, id, by simp [hreserving]⟩
  | created hcreating hcreatable hmem =>
      refine ⟨rfl, fun _ => ?_, id, by simp [hcreating]⟩
      simp only [Download.goOn]
      split <;> decide
  | received length hstreaming harmed =>
      refine ⟨receive_uuid .., fun hphase => ?_, fun hfalse => ?_, by simp [hstreaming]⟩
      · rcases receive_phase limits inner download length with hsame | haborting
        · rw [hsame]
          exact hphase
        · rw [haborting]
          decide
      · rw [receive_armed, hfalse]
  | committed => exact ⟨rfl, fun _ => DownloadPhase.noConfusion, fun _ => rfl, fun _ => rfl⟩
  | released phase hprogress harmed hphase =>
      refine ⟨rfl, fun hmade => ?_, fun _ => rfl, fun hfinished => ?_⟩
      · rcases hphase with rfl | ⟨rfl, -⟩
        · exact DownloadPhase.noConfusion
        · exact hmade
      · rcases hphase with rfl | ⟨rfl, -⟩
        · rfl
        · exact hfinished

theorem Stepped.origin
    (hstep : Stepped limits state event after)
    {id : ℕ} {download : Download}
    (hlookup : after.downloads.lookup id = some download) :
    (∃ before, state.downloads.lookup id = some before ∧ Succeeds before download) ∨
      ∃ uuid request, event = .reserve id uuid request ∧
        download = request.reservation uuid ∧ state.downloads.lookup id = none := by
  have hsame : state.downloads.lookup id = some download →
      ∃ before, state.downloads.lookup id = some before ∧ Succeeds before download :=
    fun hold => ⟨download, hold, .refl download⟩
  cases hstep with
  | elapsed | refused | landed | found | expired | unlinked | rmdired | started | swept =>
      exact Or.inl (hsame hlookup)
  | @reserved other uuid request inner hnew hadmits =>
      rcases Table.lookup_insert_iff.mp hlookup with ⟨rfl, rfl⟩ | ⟨-, hold⟩
      · exact Or.inr ⟨uuid, request, rfl, rfl, hnew⟩
      · exact Or.inl (hsame hold)
  | advanced hbefore hadvance =>
      rcases Table.lookup_insert_iff.mp hlookup with ⟨rfl, rfl⟩ | ⟨-, hold⟩
      · exact Or.inl ⟨_, hbefore, hadvance.succeeds⟩
      · exact Or.inl (hsame hold)

theorem Stepped.survives
    (hstep : Stepped limits state event after)
    {id : ℕ} {download : Download}
    (hlookup : state.downloads.lookup id = some download) :
    ∃ later, after.downloads.lookup id = some later ∧ Succeeds download later := by
  have hsame : after.downloads.lookup id = some download →
      ∃ later, after.downloads.lookup id = some later ∧ Succeeds download later :=
    fun hnew => ⟨download, hnew, .refl download⟩
  cases hstep with
  | elapsed | refused | landed | found | expired | unlinked | rmdired | started | swept =>
      exact hsame hlookup
  | @reserved other uuid request inner hnew hadmits =>
      apply hsame
      refine Table.lookup_insert_iff.mpr (Or.inr ⟨?_, hlookup⟩)
      rintro rfl
      rw [hnew] at hlookup
      cases hlookup
  | @advanced other progress before effect hbefore hadvance =>
      by_cases heq : id = other
      · subst heq
        rw [hbefore] at hlookup
        cases hlookup
        exact ⟨effect.download, AList.lookup_insert _, hadvance.succeeds⟩
      · exact hsame (Table.lookup_insert_iff.mpr (Or.inr ⟨heq, hlookup⟩))

theorem Stepped.drawn
    (hstep : Stepped limits state event after) {uuid : Uuid}
    (hdrawn : uuid ∈ state.drawn) : uuid ∈ after.drawn := by
  cases hstep with
  | reserved => exact List.mem_cons_of_mem _ hdrawn
  | _ => exact hdrawn

end Steps

/-! ## One owner for each UUID -/

/-- `Uuid::new_v4` does not draw a UUID again. -/
def drawsFresh (state : State) : Event → Bool
  | .reserve _ uuid _ => uuid ∉ state.drawn
  | _ => true

structure OneOwner (state : State) : Prop where
  unique : ∀ id download other found,
    state.downloads.lookup id = some download →
    state.downloads.lookup other = some found →
    download.uuid = found.uuid → id = other
  drawn : ∀ id download, state.downloads.lookup id = some download →
    download.uuid ∈ state.drawn

theorem OneOwner.initial (now : ℕ) (orphans : Disk) :
    OneOwner (State.initial now orphans) := by
  have hnone : ∀ id, (State.initial now orphans).downloads.lookup id = none :=
    fun _ => rfl
  constructor
  · intro id download other found hlookup
    rw [hnone] at hlookup
    cases hlookup
  · intro id download hlookup
    rw [hnone] at hlookup
    cases hlookup

theorem OneOwner.eq
    {state : State} (howner : OneOwner state)
    {id other : ℕ} {download found : Download}
    (hlookup : state.downloads.lookup id = some download)
    (hfound : state.downloads.lookup other = some found)
    (huuid : download.uuid = found.uuid) : download = found := by
  have hid := howner.unique id download other found hlookup hfound huuid
  rw [hid, hfound] at hlookup
  exact (Option.some.injEq ..).mp hlookup.symm

theorem OneOwner.step
    {limits : Limits} {state after : State} {event : Event}
    (howner : OneOwner state) (hstep : Stepped limits state event after)
    (hfresh : drawsFresh state event = true) : OneOwner after := by
  have hnew : ∀ id uuid request, event = .reserve id uuid request →
      ∀ other found, state.downloads.lookup other = some found → found.uuid ≠ uuid := by
    rintro id uuid request rfl other found hfound rfl
    exact (of_decide_eq_true hfresh) (howner.drawn other found hfound)
  constructor
  · intro id download other found hlookup hfound huuid
    rcases hstep.origin hlookup with
      ⟨before, hbefore, hsucceeds⟩ | ⟨uuid, request, hevent, rfl, hnone⟩
    · rcases hstep.origin hfound with
        ⟨before', hbefore', hsucceeds'⟩ | ⟨uuid, request, hevent, rfl, hnone⟩
      · apply howner.unique id before other before' hbefore hbefore'
        rw [← hsucceeds.uuid, ← hsucceeds'.uuid, huuid]
      · exact absurd (hsucceeds.uuid.symm.trans huuid) (hnew _ _ _ hevent _ _ hbefore)
    · rcases hstep.origin hfound with
        ⟨before', hbefore', hsucceeds'⟩ | ⟨uuid', request', hevent', rfl, hnone'⟩
      · exact absurd (hsucceeds'.uuid.symm.trans huuid.symm)
          (hnew _ _ _ hevent _ _ hbefore')
      · rw [hevent] at hevent'
        cases hevent'
        rfl
  · intro id download hlookup
    rcases hstep.origin hlookup with
      ⟨before, hbefore, hsucceeds⟩ | ⟨uuid, request, hevent, rfl, hnone⟩
    · rw [hsucceeds.uuid]
      exact hstep.drawn (howner.drawn id before hbefore)
    · subst hevent
      cases hstep with
      | refused =>
          rw [hnone] at hlookup
          cases hlookup
      | reserved => exact List.mem_cons_self

end Attachments

end RuprogressMcp
