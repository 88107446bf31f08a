import RuprogressMcp.RequiredFields

/-!
# Custom fields of a write

`resolve_entries` turns the entries of a call into writes, by id or by name;
after a rejection `merge_fills` overlays the autofilled values.  Neither ever
names a field twice: the first keeps the ids it has seen, the second replaces
in place what is already there.
-/

namespace RuprogressMcp

/-- Lowercase and strip every character that is not alphanumeric.  The two
tables are those of the Unicode standard. -/
def normalizeFieldName (isAlphanumeric : Char → Bool)
    (toLowercase : Char → List Char) (name : String) : String :=
  String.ofList ((name.toList.filter isAlphanumeric).flatMap toLowercase)

/-! ## Entries -/

/-- The write is for the field that the entry names: the given id, or the id
of the only definition with the normalized name. -/
inductive Addresses (env : WriteEnv) (defs : Option (List (ℕ × String))) :
    IssueCustomFieldEntry → CustomFieldWrite → Prop
  | byId (id : ℕ) (value : CustomFieldValue) :
      Addresses env defs ⟨some id, none, value⟩ ⟨id, value⟩
  | byName (known : List (ℕ × String)) (name fieldName : String) (id : ℕ)
      (value : CustomFieldValue) (hdefs : defs = some known)
      (honly : known.filter (fun d =>
        env.normalizeFieldName d.2 == env.normalizeFieldName name) =
          [(id, fieldName)]) :
      Addresses env defs ⟨none, some name, value⟩ ⟨id, value⟩

theorem resolveName_eq_ok_iff
    {env : WriteEnv} {defs : List (ℕ × String)} {name : String} {id : ℕ} :
    resolveName env defs name = .ok id ↔
      ∃ fieldName, defs.filter (fun d =>
        env.normalizeFieldName d.2 == env.normalizeFieldName name) =
          [(id, fieldName)] := by
  unfold resolveName
  cases hmatching : defs.filter (fun d =>
      env.normalizeFieldName d.2 == env.normalizeFieldName name) with
  | nil => simp
  | cons found rest =>
      cases rest with
      | nil =>
          obtain ⟨foundId, fieldName⟩ := found
          constructor
          · intro hid
            cases hid
            exact ⟨fieldName, rfl⟩
          · rintro ⟨_, hsingle⟩
            cases hsingle
            rfl
      | cons other rest => simp

theorem addresses_of_entryId
    {env : WriteEnv} {defs : Option (List (ℕ × String))}
    {entry : IssueCustomFieldEntry} {id : ℕ}
    (hshape : validateEntryShape entry = .ok ())
    (hid : entryId env defs entry = .ok id) :
    Addresses env defs entry ⟨id, entry.value⟩ := by
  obtain ⟨givenId, givenName, value⟩ := entry
  cases givenId with
  | some given =>
      cases givenName with
      | some name => simp [validateEntryShape] at hshape
      | none =>
          simp only [entryId, Except.ok.injEq] at hid
          subst hid
          exact .byId given value
  | none =>
      cases givenName with
      | none => simp [validateEntryShape] at hshape
      | some name =>
          cases defs with
          | none => simp [entryId] at hid
          | some known =>
              obtain ⟨fieldName, honly⟩ := resolveName_eq_ok_iff.mp hid
              exact .byName known name fieldName id value rfl honly

theorem forM_validateEntryShape
    {entries : List IssueCustomFieldEntry}
    (hshapes : entries.forM validateEntryShape = .ok ()) :
    ∀ entry ∈ entries, validateEntryShape entry = .ok () := by
  induction entries with
  | nil => simp
  | cons entry rest ih =>
      rw [List.forM_eq_forM, List.forM_cons] at hshapes
      obtain ⟨_, hentry, hshapes⟩ := bind_eq_ok_iff.mp hshapes
      intro other hmem
      rcases List.mem_cons.mp hmem with rfl | hrest
      · exact hentry
      · exact ih hshapes other hrest

/-- The loop keeps the ids of its writes distinct, from each other and from
those seen before. -/
theorem resolveEach_spec
    {env : WriteEnv} {defs : Option (List (ℕ × String))} {seenIds : List ℕ}
    {entries : List IssueCustomFieldEntry} {out : List CustomFieldWrite}
    (hshapes : ∀ entry ∈ entries, validateEntryShape entry = .ok ())
    (hresolve : resolveEach env defs seenIds entries = .ok out) :
    List.Forall₂ (Addresses env defs) entries out ∧
      (out.map CustomFieldWrite.id).Nodup ∧
      ∀ write ∈ out, write.id ∉ seenIds := by
  induction entries generalizing seenIds out with
  | nil =>
      simp only [resolveEach, Except.ok.injEq] at hresolve
      subst hresolve
      exact ⟨.nil, List.nodup_nil, by simp⟩
  | cons entry rest ih =>
      obtain ⟨id, hid, hresolve⟩ := bind_eq_ok_iff.mp hresolve
      split at hresolve
      · cases hresolve
      next hunseen =>
        obtain ⟨later, hrest, hresolve⟩ := bind_eq_ok_iff.mp hresolve
        cases hresolve
        obtain ⟨haddress, hnodup, hfresh⟩ :=
          ih (fun other hmem => hshapes other (List.mem_cons_of_mem _ hmem))
            hrest
        have hentry : Addresses env defs entry ⟨id, entry.value⟩ :=
          addresses_of_entryId (hshapes entry List.mem_cons_self) hid
        have hnew : id ∉ later.map CustomFieldWrite.id := by
          intro hmem
          obtain ⟨write, hwrite, heq⟩ := List.mem_map.mp hmem
          exact hfresh write hwrite (by simp [heq])
        refine ⟨.cons hentry haddress, ?_, ?_⟩
        · exact List.nodup_cons.mpr ⟨hnew, hnodup⟩
        · intro write hwrite
          rcases List.mem_cons.mp hwrite with rfl | hlater
          · simpa using hunseen
          · intro hseen
            exact hfresh write hlater (by simp [hseen])

theorem resolveEntries_spec
    {env : WriteEnv} {defs : Option (List (ℕ × String))}
    {entries : List IssueCustomFieldEntry} {out : List CustomFieldWrite}
    (hresolve : resolveEntries env defs entries = .ok out) :
    List.Forall₂ (Addresses env defs) entries out ∧
      (out.map CustomFieldWrite.id).Nodup := by
  obtain ⟨_, hshapes, heach⟩ := bind_eq_ok_iff.mp hresolve
  obtain ⟨haddress, hnodup, _⟩ :=
    resolveEach_spec (forM_validateEntryShape hshapes) heach
  exact ⟨haddress, hnodup⟩

/-- The custom fields of an accepted call are absent, or the resolved form of
its entries. -/
theorem resolveIssueCustomFields_ok
    {env : WriteEnv} {entries : Option (List IssueCustomFieldEntry)}
    {customFields : Option (List CustomFieldWrite)}
    (hresolve : resolveIssueCustomFields env entries = .ok customFields) :
    (entries.getD [] = [] ∧ customFields = none) ∨
      ∃ given defs out, entries = some given ∧ given ≠ [] ∧
        customFields = some out ∧ resolveEntries env defs given = .ok out ∧
        ∀ known, defs = some known → env.definitions = .ok known := by
  match entries with
  | none =>
      cases hresolve
      exact Or.inl ⟨rfl, rfl⟩
  | some [] =>
      cases hresolve
      exact Or.inl ⟨rfl, rfl⟩
  | some (entry :: rest) =>
      obtain ⟨_, _, hresolve⟩ := bind_eq_ok_iff.mp hresolve
      have hfetched : ∃ defs, (resolveEntries env defs (entry :: rest) >>=
          fun out => pure (some out)) = .ok customFields ∧
          ∀ known, defs = some known → env.definitions = .ok known := by
        dsimp only at hresolve
        split at hresolve
        · obtain ⟨defs, hdefs, hresolve⟩ := bind_eq_ok_iff.mp hresolve
          refine ⟨defs, hresolve, ?_⟩
          rintro known rfl
          cases hread : env.definitions with
          | error result => simp [hread, Except.map, Except.mapError] at hdefs
          | ok found => simpa [hread, Except.map, Except.mapError] using hdefs
        · exact ⟨none, hresolve, by simp⟩
      obtain ⟨defs, hresolve, hdefs⟩ := hfetched
      obtain ⟨out, hout, hresolve⟩ := bind_eq_ok_iff.mp hresolve
      cases hresolve
      exact Or.inr ⟨entry :: rest, defs, out, rfl, by simp, rfl, hout, hdefs⟩

theorem resolved_nodup
    {env : WriteEnv} {entries : Option (List IssueCustomFieldEntry)}
    {customFields : Option (List CustomFieldWrite)}
    (hresolve : resolveIssueCustomFields env entries = .ok customFields) :
    ((customFields.getD []).map CustomFieldWrite.id).Nodup := by
  rcases resolveIssueCustomFields_ok hresolve with
    ⟨_, rfl⟩ | ⟨_, _, out, _, _, rfl, hout, _⟩
  · exact List.nodup_nil
  · exact (resolveEntries_spec hout).2

/-! ## Fills -/

def Fill.write (fill : Fill) : CustomFieldWrite := ⟨fill.id, fill.value⟩

/-- The last fill for a field. -/
def lastFill (fills : List Fill) (id : ℕ) : Option Fill :=
  (fills.filter fun fill => fill.id == id).getLast?

theorem lastFill_append (fills : List Fill) (fill : Fill) (id : ℕ) :
    lastFill (fills ++ [fill]) id =
      if fill.id = id then some fill else lastFill fills id := by
  unfold lastFill
  by_cases heq : fill.id = id
  · simp [List.filter_append, heq]
  · simp [List.filter_append, heq]

theorem mergeFill_cases (merged : List CustomFieldWrite) (fill : Fill) :
    (fill.id ∉ merged.map CustomFieldWrite.id ∧
        mergeFill merged fill = merged ++ [fill.write]) ∨
      ∃ before entry rest, merged = before ++ entry :: rest ∧
        entry.id = fill.id ∧
        mergeFill merged fill = before ++ fill.write :: rest := by
  cases hfind : merged.find? fun entry => entry.id == fill.id with
  | none =>
      have hnone := List.find?_eq_none.mp hfind
      refine Or.inl ⟨?_, ?_⟩
      · intro hmem
        obtain ⟨entry, hentry, heq⟩ := List.mem_map.mp hmem
        exact hnone entry hentry (by simp [heq])
      · have hany : merged.any (fun entry => entry.id == fill.id) = false :=
          List.any_eq_false.mpr hnone
        simp [mergeFill, hany, Fill.write]
  | some entry =>
      obtain ⟨heq, before, rest, hsplit, hbefore⟩ :=
        List.find?_eq_some_iff_append.mp hfind
      simp only [beq_iff_eq] at heq
      refine Or.inr ⟨before, entry, rest, hsplit, heq, ?_⟩
      have hskip : ∀ other ∈ before, (other.id != fill.id) = true := hbefore
      rw [hsplit, mergeFill, if_pos (by simp [heq]),
        List.span_eq_takeWhile_dropWhile]
      simp only [List.takeWhile_append_of_pos hskip,
        List.dropWhile_append_of_pos hskip]
      simp [heq, Fill.write]

theorem lastFill_mem
    {fills : List Fill} {id : ℕ} {fill : Fill}
    (hlast : lastFill fills id = some fill) : fill ∈ fills ∧ fill.id = id := by
  have hmem := List.mem_of_getLast? hlast
  simpa using hmem

/-- What the overlay of fills on the fields of a caller looks like. -/
structure Overlaid (existing : List CustomFieldWrite) (fills : List Fill)
    (merged : List CustomFieldWrite) : Prop where
  nodup : (merged.map CustomFieldWrite.id).Nodup
  starts : existing.map CustomFieldWrite.id <+:
    merged.map CustomFieldWrite.id
  kept : ∀ write ∈ existing, (∀ fill ∈ fills, fill.id ≠ write.id) →
    write ∈ merged
  filled : ∀ id fill, lastFill fills id = some fill → fill.write ∈ merged
  known : ∀ write ∈ merged, write.id ∈ existing.map CustomFieldWrite.id ∨
    write.id ∈ fills.map Fill.id

namespace Overlaid

variable {existing merged : List CustomFieldWrite} {fills : List Fill}

theorem initial (hnodup : (existing.map CustomFieldWrite.id).Nodup) :
    Overlaid existing [] existing where
  nodup := hnodup
  starts := List.prefix_refl _
  kept _ hmem _ := hmem
  filled _ _ hlast := by simp [lastFill] at hlast
  known _ hmem := Or.inl (List.mem_map_of_mem hmem)

theorem append
    (hoverlaid : Overlaid existing fills merged) {fill : Fill}
    (hnew : fill.id ∉ merged.map CustomFieldWrite.id) :
    Overlaid existing (fills ++ [fill]) (merged ++ [fill.write]) := by
  refine ⟨?_, ?_, ?_, ?_, ?_⟩
  · rw [List.map_append, List.nodup_append]
    refine ⟨hoverlaid.nodup, by simp, ?_⟩
    rintro id hid _ hfill rfl
    rw [List.map_singleton, List.mem_singleton] at hfill
    subst hfill
    exact hnew hid
  · rw [List.map_append]
    exact hoverlaid.starts.trans (List.prefix_append _ _)
  · intro write hwrite hother
    refine List.mem_append_left _ (hoverlaid.kept write hwrite ?_)
    exact fun f hf => hother f (List.mem_append_left _ hf)
  · intro id f hlast
    rw [lastFill_append] at hlast
    split at hlast
    · cases hlast
      simp
    · exact List.mem_append_left _ (hoverlaid.filled id f hlast)
  · intro write hwrite
    rw [List.map_append]
    rcases List.mem_append.mp hwrite with hold | hlast
    · exact (hoverlaid.known write hold).imp id (List.mem_append_left _)
    · rw [List.mem_singleton] at hlast
      subst hlast
      exact Or.inr (by simp [Fill.write])

theorem replace
    {before rest : List CustomFieldWrite} {entry : CustomFieldWrite}
    (hoverlaid : Overlaid existing fills (before ++ entry :: rest))
    {fill : Fill} (hid : entry.id = fill.id) :
    Overlaid existing (fills ++ [fill]) (before ++ fill.write :: rest) := by
  have hids : (before ++ fill.write :: rest).map CustomFieldWrite.id =
      (before ++ entry :: rest).map CustomFieldWrite.id := by
    simp [Fill.write, hid]
  have hother : ∀ write ∈ before ++ entry :: rest, write.id ≠ fill.id →
      write ∈ before ++ fill.write :: rest := by
    intro write hwrite hne
    rw [List.mem_append, List.mem_cons] at hwrite ⊢
    rcases hwrite with hbefore | rfl | hrest
    · exact Or.inl hbefore
    · exact absurd hid hne
    · exact Or.inr (Or.inr hrest)
  refine ⟨?_, ?_, ?_, ?_, ?_⟩
  · rw [hids]
    exact hoverlaid.nodup
  · rw [hids]
    exact hoverlaid.starts
  · intro write hwrite hunfilled
    refine hother write (hoverlaid.kept write hwrite ?_) ?_
    · exact fun f hf => hunfilled f (List.mem_append_left _ hf)
    · exact fun heq => hunfilled fill (by simp) heq.symm
  · intro id f hlast
    rw [lastFill_append] at hlast
    split at hlast
    · cases hlast
      simp
    next hne =>
      have hfid := (lastFill_mem hlast).2
      refine hother f.write (hoverlaid.filled id f hlast) ?_
      exact fun heq => hne (heq.symm.trans hfid)
  · intro write hwrite
    have hmem : write.id ∈ (before ++ entry :: rest).map CustomFieldWrite.id := by
      rw [← hids]
      exact List.mem_map_of_mem hwrite
    obtain ⟨old, hold, heq⟩ := List.mem_map.mp hmem
    rw [← heq, List.map_append]
    exact (hoverlaid.known old hold).imp id (List.mem_append_left _)

theorem mergeFill
    (hoverlaid : Overlaid existing fills merged) (fill : Fill) :
    Overlaid existing (fills ++ [fill]) (mergeFill merged fill) := by
  rcases mergeFill_cases merged fill with
    ⟨hnew, hmerge⟩ | ⟨before, entry, rest, rfl, hid, hmerge⟩
  · rw [hmerge]
    exact hoverlaid.append hnew
  · rw [hmerge]
    exact hoverlaid.replace hid

theorem mergeFills
    {customFields : Option (List CustomFieldWrite)}
    (hnodup : ((customFields.getD []).map CustomFieldWrite.id).Nodup)
    (fills : List Fill) :
    Overlaid (customFields.getD []) fills (mergeFills customFields fills) := by
  unfold RuprogressMcp.mergeFills
  induction fills using List.reverseRecOn with
  | nil => exact initial hnodup
  | append_singleton fills fill ih =>
      rw [List.foldl_append]
      exact ih.mergeFill fill

end Overlaid

theorem recoverRequiredFields_retry
    {normalize : String → String} {cfg : CustomFieldConfig}
    {reads : DefinitionReads} {customFields : Option (List CustomFieldWrite)}
    {error : RedmineError} {merged : List CustomFieldWrite} {fills : List Fill}
    (hretry : recoverRequiredFields normalize cfg reads customFields error =
      some (.retry merged fills)) :
    merged = mergeFills customFields fills ∧
      ∃ status errors defs, error = .api status errors ∧
        fetchDefinitionsForAutofill reads = .ok defs ∧
        fills = computeAutofill normalize cfg defs
          (parseRequiredFieldErrors errors) := by
  cases error with
  | api status errors =>
      simp only [recoverRequiredFields] at hretry
      split at hretry
      · cases hretry
      split at hretry
      · cases hretry
      split at hretry
      · cases hretry
      cases hdefs : fetchDefinitionsForAutofill reads with
      | error e => simp [hdefs] at hretry
      | ok defs =>
          simp only [hdefs] at hretry
          split at hretry
          · cases hretry
          · cases hretry
            exact ⟨rfl, status, errors, defs, rfl, rfl, rfl⟩
  | _ => simp [recoverRequiredFields] at hretry

/-- The writes of the first try and of the retry are well formed. -/
theorem custom_field_writes_well_formed (env : WriteEnv) :
    (∀ defs entries out, resolveEntries env defs entries = .ok out →
      List.Forall₂ (Addresses env defs) entries out ∧
        (out.map CustomFieldWrite.id).Nodup) ∧
    (∀ cfg reads entries customFields error merged fills,
      resolveIssueCustomFields env entries = .ok customFields →
      recoverRequiredFields env.normalizeFieldName cfg reads customFields
        error = some (.retry merged fills) →
      Overlaid (customFields.getD []) fills merged) := by
  constructor
  · intro defs entries out hresolve
    exact resolveEntries_spec hresolve
  · intro cfg reads entries customFields error merged fills hresolve hretry
    rw [(recoverRequiredFields_retry hretry).1]
    exact Overlaid.mergeFills (resolved_nodup hresolve) fills

namespace Sample

def fieldDefs : List (ℕ × String) := [(3, "story_points"), (9, "Severity")]

def fieldEnv : WriteEnv where
  agile := false
  tags := false
  normalizeFieldName :=
    normalizeFieldName Char.isAlphanum fun c => [c.toLower]
  debugString s := "\"" ++ s ++ "\""
  debugChar := Char.toString
  definitions := .ok fieldDefs
  mintUploads _ := .ok []

def fieldEntries : List IssueCustomFieldEntry :=
  [⟨some 7, none, .single (some "a")⟩,
    ⟨none, some "Story Points", .single (some "5")⟩]

def fieldWrites : List CustomFieldWrite :=
  [⟨7, .single (some "a")⟩, ⟨3, .single (some "5")⟩]

def fieldConfig : CustomFieldConfig where
  autofillRequired := true
  defaults := [("severity", .single "low"), ("Story points", .single "1")]

def fieldReads : DefinitionReads where
  issueProject := .ok 1
  members := .ok (some fieldDefs)
  definitions := .error .forbidden

def blankFields : RedmineError :=
  .api 422 ["Severity can't be blank", "Story Points is invalid"]

def fieldFills : List Fill :=
  [⟨9, "Severity", .single (some "low")⟩,
    ⟨3, "story_points", .single (some "1")⟩]

def mergedWrites : List CustomFieldWrite :=
  [⟨7, .single (some "a")⟩, ⟨3, .single (some "1")⟩,
    ⟨9, .single (some "low")⟩]

/-- One field keeps its value, one is replaced in place and one is added. -/
theorem retried_writes_overlaid :
    resolveEntries fieldEnv (some fieldDefs) fieldEntries =
        .ok fieldWrites ∧
      (fieldWrites.map CustomFieldWrite.id).Nodup ∧
      recoverRequiredFields fieldEnv.normalizeFieldName fieldConfig fieldReads
        (some fieldWrites) blankFields =
          some (.retry mergedWrites fieldFills) ∧
      Overlaid fieldWrites fieldFills mergedWrites := by
  have hresolve : resolveEntries fieldEnv (some fieldDefs) fieldEntries =
      .ok fieldWrites := by rfl
  have hretry : recoverRequiredFields fieldEnv.normalizeFieldName fieldConfig
      fieldReads (some fieldWrites) blankFields =
        some (.retry mergedWrites fieldFills) := by rfl
  have hfields : resolveIssueCustomFields fieldEnv (some fieldEntries) =
      .ok (some fieldWrites) := by rfl
  have hwell := custom_field_writes_well_formed fieldEnv
  exact ⟨hresolve, (hwell.1 _ _ _ hresolve).2, hretry,
    hwell.2 _ _ _ _ _ _ _ hfields hretry⟩

end Sample

end RuprogressMcp
