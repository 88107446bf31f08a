import RuprogressMcp.IssueParams

/-!
# Scopes of an issue write

The policy decides from the keys of the raw arguments, the write is built from
the decoded parameters.  A field that changes has its key among the arguments,
so the two agree, with one exception: a field to clear may be given as a
single-entry map, which the decoder accepts and the policy, looking for the
string, overlooks.
-/

namespace RuprogressMcp

/-! ## Keys and decoded fields -/

theorem Decode.optional_absent
    {α : Type} {args : JsonObject} {key : String} {decode : Decoder α}
    {value : Option α} (hread : Decode.optional args key decode = some value)
    (habsent : args.containsKey key = false) : value = none := by
  by_contra hne
  have hpresent := Decode.defaulted_ne hread hne
  rw [hpresent] at habsent
  exact absurd habsent (by simp)

theorem Decode.doubleOption_absent
    {α : Type} {args : JsonObject} {key : String} {decode : Decoder α}
    {value : Option (Option α)}
    (hread : Decode.doubleOption args key decode = some value)
    (habsent : args.containsKey key = false) : value = none := by
  by_contra hne
  have hpresent := Decode.defaulted_ne hread hne
  rw [hpresent] at habsent
  exact absurd habsent (by simp)

/-- Every field of the parameters is read from the key of its name. -/
structure UpdateRedmineIssueParams.Reads
    (parseDate : String → Option NaiveDate) (args : JsonObject)
    (params : UpdateRedmineIssueParams) : Prop where
  issueId : Decode.required args "issue_id" Decode.u64 = some params.issueId
  subject : Decode.optional args "subject" Decode.string = some params.subject
  description :
    Decode.optional args "description" Decode.string =
      some params.description
  trackerId : Decode.optional args "tracker_id" Decode.u64 = some params.trackerId
  statusId : Decode.optional args "status_id" Decode.u64 = some params.statusId
  priorityId : Decode.optional args "priority_id" Decode.u64 = some params.priorityId
  assignedToId :
    Decode.optional args "assigned_to_id" Decode.u64 =
      some params.assignedToId
  categoryId : Decode.optional args "category_id" Decode.u64 = some params.categoryId
  fixedVersionId :
    Decode.optional args "fixed_version_id" Decode.u64 =
      some params.fixedVersionId
  parentIssueId :
    Decode.optional args "parent_issue_id" Decode.u64 =
      some params.parentIssueId
  startDate :
    Decode.optional args "start_date" (NaiveDate.decode parseDate) =
      some params.startDate
  dueDate :
    Decode.optional args "due_date" (NaiveDate.decode parseDate) =
      some params.dueDate
  doneRatio : Decode.optional args "done_ratio" Decode.u8 = some params.doneRatio
  estimatedHours :
    Decode.optional args "estimated_hours" Decode.f64 =
      some params.estimatedHours
  isPrivate : Decode.optional args "is_private" Decode.bool = some params.isPrivate
  notes : Decode.optional args "notes" Decode.string = some params.notes
  privateNotes :
    Decode.optional args "private_notes" Decode.bool =
      some params.privateNotes
  uploads :
    Decode.optional args "uploads" (Decode.vec IssueUploadParams.decode) =
      some params.uploads
  storyPoints :
    Decode.doubleOption args "story_points" Decode.u32 =
      some params.storyPoints
  agileSprintId :
    Decode.optional args "agile_sprint_id" Decode.u64 =
      some params.agileSprintId
  agilePosition :
    Decode.optional args "agile_position" Decode.u32 =
      some params.agilePosition
  tagList :
    Decode.optional args "tag_list" (Decode.vec Decode.string) =
      some params.tagList
  customFields :
    Decode.optional args "custom_fields" (Decode.vec IssueCustomFieldEntry.decode) =
      some params.customFields
  clearFields :
    Decode.optional args "clear_fields" (Decode.vec (Decode.unitEnum ClearableField.variants)) =
      some params.clearFields

theorem UpdateRedmineIssueParams.decode_reads
    {parseDate : String → Option NaiveDate} {args : JsonObject}
    {params : UpdateRedmineIssueParams}
    (hdecode : UpdateRedmineIssueParams.decode parseDate args = some params) :
    params.Reads parseDate args := by
  obtain ⟨fields, hfields, hdecode⟩ := Option.bind_eq_some_iff.mp hdecode
  cases Decode.fields_obj hfields
  obtain ⟨issueId, hissueId, hdecode⟩ := Option.bind_eq_some_iff.mp hdecode
  obtain ⟨subject, hsubject, hdecode⟩ := Option.bind_eq_some_iff.mp hdecode
  obtain ⟨description, hdescription, hdecode⟩ := Option.bind_eq_some_iff.mp hdecode
  obtain ⟨trackerId, htrackerId, hdecode⟩ := Option.bind_eq_some_iff.mp hdecode
  obtain ⟨statusId, hstatusId, hdecode⟩ := Option.bind_eq_some_iff.mp hdecode
  obtain ⟨priorityId, hpriorityId, hdecode⟩ := Option.bind_eq_some_iff.mp hdecode
  obtain ⟨assignedToId, hassignedToId, hdecode⟩ := Option.bind_eq_some_iff.mp hdecode
  obtain ⟨categoryId, hcategoryId, hdecode⟩ := Option.bind_eq_some_iff.mp hdecode
  obtain ⟨fixedVersionId, hfixedVersionId, hdecode⟩ := Option.bind_eq_some_iff.mp hdecode
  obtain ⟨parentIssueId, hparentIssueId, hdecode⟩ := Option.bind_eq_some_iff.mp hdecode
  obtain ⟨startDate, hstartDate, hdecode⟩ := Option.bind_eq_some_iff.mp hdecode
  obtain ⟨dueDate, hdueDate, hdecode⟩ := Option.bind_eq_some_iff.mp hdecode
  obtain ⟨doneRatio, hdoneRatio, hdecode⟩ := Option.bind_eq_some_iff.mp hdecode
  obtain ⟨estimatedHours, hestimatedHours, hdecode⟩ := Option.bind_eq_some_iff.mp hdecode
  obtain ⟨isPrivate, hisPrivate, hdecode⟩ := Option.bind_eq_some_iff.mp hdecode
  obtain ⟨notes, hnotes, hdecode⟩ := Option.bind_eq_some_iff.mp hdecode
  obtain ⟨privateNotes, hprivateNotes, hdecode⟩ := Option.bind_eq_some_iff.mp hdecode
  obtain ⟨uploads, huploads, hdecode⟩ := Option.bind_eq_some_iff.mp hdecode
  obtain ⟨storyPoints, hstoryPoints, hdecode⟩ := Option.bind_eq_some_iff.mp hdecode
  obtain ⟨agileSprintId, hagileSprintId, hdecode⟩ := Option.bind_eq_some_iff.mp hdecode
  obtain ⟨agilePosition, hagilePosition, hdecode⟩ := Option.bind_eq_some_iff.mp hdecode
  obtain ⟨tagList, htagList, hdecode⟩ := Option.bind_eq_some_iff.mp hdecode
  obtain ⟨customFields, hcustomFields, hdecode⟩ := Option.bind_eq_some_iff.mp hdecode
  obtain ⟨clearFields, hclearFields, hdecode⟩ := Option.bind_eq_some_iff.mp hdecode
  cases hdecode
  exact ⟨hissueId, hsubject, hdescription, htrackerId, hstatusId, hpriorityId,
    hassignedToId, hcategoryId, hfixedVersionId, hparentIssueId, hstartDate,
    hdueDate, hdoneRatio, hestimatedHours, hisPrivate, hnotes, hprivateNotes,
    huploads, hstoryPoints, hagileSprintId, hagilePosition, htagList,
    hcustomFields, hclearFields⟩

theorem notesOnlyKeys_mem {saw : Bool} {keys : List String}
    (hnotes : notesOnlyKeys saw keys = true) :
    ∀ key ∈ keys, key = "issue_id" ∨ key ∈ notesOnlyFields := by
  induction keys generalizing saw with
  | nil => simp
  | cons head rest ih =>
      unfold notesOnlyKeys at hnotes
      intro key hkey
      split at hnotes
      · rename_i hhead
        obtain rfl | hrest := List.mem_cons.mp hkey
        · exact Or.inl hhead
        · exact ih hnotes key hrest
      · split at hnotes
        · exact absurd hnotes (by simp)
        · rename_i hfield
          obtain rfl | hrest := List.mem_cons.mp hkey
          · exact Or.inr (by simpa using hfield)
          · exact ih hnotes key hrest

theorem absent_of_notesOnly
    {args : JsonObject} (hnotes : isNotesOnlyUpdate args = true) {key : String}
    (hissue : key ≠ "issue_id") (hkey : key ∉ notesOnlyFields) :
    args.containsKey key = false := by
  by_contra hpresent
  rw [Bool.not_eq_false, JsonObject.containsKey_iff] at hpresent
  obtain heq | hmem := notesOnlyKeys_mem hnotes key hpresent
  · exact hissue heq
  · exact hkey hmem

/-! ## What an accepted call writes -/

theorem prepareUpdate_ok
    {env : WriteEnv} {params : UpdateRedmineIssueParams}
    {prepared : PreparedUpdate}
    (hprepare : prepareUpdate env params = .ok prepared) :
    ∃ tagList customFields uploads,
      params.tagList.mapM (validateTagList env) = .ok tagList ∧
      resolveIssueCustomFields env params.customFields = .ok customFields ∧
      resolveAndMintIssueUploads env params.uploads = .ok uploads ∧
      prepared.patch = buildPatch params tagList customFields uploads.1 ∧
      prepared.agileChange = params.agileChange ∧
      prepared.hasCoreChange = params.updateHasCoreChange ∧
      params.updateClearConflict = none := by
  unfold prepareUpdate at hprepare
  simp only [bind, Except.bind, pure, Except.pure, throw, throwThe,
    MonadExceptOf.throw] at hprepare
  split at hprepare
  · cases hprepare
  split at hprepare
  · cases hprepare
  next hconflict =>
    have hnone : params.updateClearConflict = none :=
      Option.eq_none_iff_forall_ne_some.mpr hconflict
    split at hprepare
    · cases hprepare
    split at hprepare
    · cases hprepare
    split at hprepare
    · cases hprepare
    cases htags : params.tagList.mapM (validateTagList env) with
    | error refusal => simp [htags] at hprepare
    | ok tagList =>
        cases hfields : resolveIssueCustomFields env params.customFields with
        | error refusal => simp [htags, hfields] at hprepare
        | ok customFields =>
            cases huploads : resolveAndMintIssueUploads env params.uploads with
            | error refusal => simp [htags, hfields, huploads] at hprepare
            | ok uploads =>
                simp only [htags, hfields, huploads, Except.ok.injEq]
                  at hprepare
                subst hprepare
                exact ⟨tagList, customFields, uploads, rfl, rfl, rfl, rfl, rfl,
                  rfl, hnone⟩

theorem mapM_option_none
    {α β : Type} {f : α → Except Refusal β} {result : Option β}
    (hmap : (none : Option α).mapM f = .ok result) : result = none := by
  have hnone : (.ok none : Except Refusal (Option β)) = .ok result := hmap
  exact (Except.ok.inj hnone).symm

/-- The patch or the agile change touches something other than the note. -/
def PreparedUpdate.TouchesMore (prepared : PreparedUpdate) : Prop :=
  { prepared.patch with notes := none, privateNotes := none } ≠
      ({} : IssueUpdate) ∨
    prepared.agileChange.isSome = true

theorem not_touchesMore_of_notesOnly
    {parseDate : String → Option NaiveDate} {args : JsonObject}
    {env : WriteEnv} {params : UpdateRedmineIssueParams}
    {prepared : PreparedUpdate}
    (hreads : params.Reads parseDate args)
    (hprepare : prepareUpdate env params = .ok prepared)
    (hnotes : isNotesOnlyUpdate args = true) : ¬ prepared.TouchesMore := by
  obtain ⟨tagList, customFields, uploads, htags, hfields, huploads, hpatch,
    hagile, -⟩ := prepareUpdate_ok hprepare
  have hnone : ∀ {α : Type} {key : String} {decode : Decoder α} {value : Option α},
      Decode.optional args key decode = some value → key ≠ "issue_id" →
      key ∉ notesOnlyFields → value = none :=
    fun hread hissue hkey =>
      Decode.optional_absent hread (absent_of_notesOnly hnotes hissue hkey)
  have hsubject := hnone hreads.subject (by decide) (by decide)
  have hdescription := hnone hreads.description (by decide) (by decide)
  have htracker := hnone hreads.trackerId (by decide) (by decide)
  have hstatus := hnone hreads.statusId (by decide) (by decide)
  have hpriority := hnone hreads.priorityId (by decide) (by decide)
  have hassigned := hnone hreads.assignedToId (by decide) (by decide)
  have hcategory := hnone hreads.categoryId (by decide) (by decide)
  have hversion := hnone hreads.fixedVersionId (by decide) (by decide)
  have hparent := hnone hreads.parentIssueId (by decide) (by decide)
  have hstart := hnone hreads.startDate (by decide) (by decide)
  have hdue := hnone hreads.dueDate (by decide) (by decide)
  have hdone := hnone hreads.doneRatio (by decide) (by decide)
  have hhours := hnone hreads.estimatedHours (by decide) (by decide)
  have hprivate := hnone hreads.isPrivate (by decide) (by decide)
  have huploadsNone := hnone hreads.uploads (by decide) (by decide)
  have hpoints := Decode.doubleOption_absent hreads.storyPoints
    (absent_of_notesOnly hnotes (by decide) (by decide))
  have hsprint := hnone hreads.agileSprintId (by decide) (by decide)
  have hposition := hnone hreads.agilePosition (by decide) (by decide)
  have htagsNone := hnone hreads.tagList (by decide) (by decide)
  have hfieldsNone := hnone hreads.customFields (by decide) (by decide)
  have hclear := hnone hreads.clearFields (by decide) (by decide)
  rw [htagsNone] at htags
  rw [hfieldsNone] at hfields
  rw [huploadsNone] at huploads
  cases mapM_option_none htags
  cases hfields
  cases huploads
  unfold PreparedUpdate.TouchesMore
  rw [hpatch, hagile]
  simp [buildPatch, clearOr, FieldUpdate.fromOption, hsubject, hdescription,
    htracker, hstatus, hpriority, hassigned, hcategory, hversion, hparent, hstart,
    hdue, hdone, hhours, hprivate, hclear, AgileChange.isSome,
    UpdateRedmineIssueParams.agileChange, hpoints, hsprint, hposition]

/-! ## What the policy demands -/

namespace Requirement

/-- The scopes that must all be held. -/
def allOf : Requirement → List String
  | scopes required => required
  | scopesWithAnyOf all _ => all
  | _ => []

/-- The scopes of which one must be held. -/
def oneOf : Requirement → Option (List String)
  | anyOf any => some any
  | scopesWithAnyOf _ any => some any
  | _ => none

end Requirement

theorem updateRequirement_allOf
    {args : JsonObject} (hmore : isNotesOnlyUpdate args = false) :
    (updateRedmineIssueRequirement (some args)).allOf =
      "edit_issues" :: ((if reparenting args then ["manage_subtasks"] else []) ++
        if hasAgileField args then ["view_agile_queries"] else []) := by
  simp only [updateRedmineIssueRequirement, hmore]
  cases reparenting args <;> cases hasAgileField args <;>
    cases args.containsKey "tag_list" <;> rfl

theorem updateRequirement_oneOf
    {args : JsonObject} (hmore : isNotesOnlyUpdate args = false) :
    (updateRedmineIssueRequirement (some args)).oneOf =
      if args.containsKey "tag_list" then some tagListScopes else none := by
  simp only [updateRedmineIssueRequirement, hmore]
  cases args.containsKey "tag_list" <;> rfl

/-- The requirement of an update covers what it writes. -/
structure UpdateCovered (args : JsonObject) (prepared : PreparedUpdate) : Prop where
  edit : prepared.TouchesMore →
    "edit_issues" ∈ (requiredForCall "update_redmine_issue" (some args)).allOf
  subtasks : prepared.patch.parentIssueId ≠ .unchanged →
    "manage_subtasks" ∈ (requiredForCall "update_redmine_issue" (some args)).allOf
  agile : prepared.agileChange.isSome = true →
    "view_agile_queries" ∈
      (requiredForCall "update_redmine_issue" (some args)).allOf
  tags : prepared.patch.tagList ≠ none →
    (requiredForCall "update_redmine_issue" (some args)).oneOf = some tagListScopes

/-- The requirement of a creation covers what it writes. -/
structure CreateCovered (args : JsonObject) (create : IssueCreate) : Prop where
  add : "add_issues" ∈
    (requiredForCall "create_redmine_issue" (some args)).allOf
  tags : create.tagList ≠ none →
    (requiredForCall "create_redmine_issue" (some args)).oneOf = some tagListScopes

/-- Where a field to clear is the parent given as a single-entry map, the
arguments also have the parent, or name it as a string. -/
def ParentVisible (args : JsonObject) : Prop :=
  args.containsKey "parent_issue_id" = true ∨
    ∀ items, args.get "clear_fields" = some (.arr items) →
      Json.obj [("parent_issue_id", .null)] ∈ items →
      Json.str "parent_issue_id" ∈ items

section Update

variable {parseDate : String → Option NaiveDate} {args : JsonObject}
  {env : WriteEnv} {params : UpdateRedmineIssueParams} {prepared : PreparedUpdate}

theorem parent_mem_clear (hreads : params.Reads parseDate args) :
    ClearableField.parentIssueId ∈ params.clearFields.getD [] ↔
      ∃ items, args.get "clear_fields" = some (.arr items) ∧
        (Json.str "parent_issue_id" ∈ items ∨
          Json.obj [("parent_issue_id", .null)] ∈ items) := by
  have hspelled : ∀ item,
      Decode.unitEnum ClearableField.variants item =
          some ClearableField.parentIssueId ↔
        item = .str "parent_issue_id" ∨
          item = .obj [("parent_issue_id", .null)] :=
    fun item => Decode.unitEnum_eq_some
  cases hclear : params.clearFields with
  | none =>
      have hread := hreads.clearFields
      rw [hclear] at hread
      constructor
      · intro hmem
        exact absurd hmem (by simp)
      · rintro ⟨items, hget, -⟩
        unfold Decode.optional Decode.defaulted at hread
        rw [hget] at hread
        simp [Decode.option] at hread
  | some clear =>
      have hread := hreads.clearFields
      rw [hclear] at hread
      obtain ⟨value, hget, hvec⟩ := Decode.optional_eq_some_some hread
      obtain ⟨items, rfl, hmem⟩ := Decode.vec_mem hvec
      rw [Option.getD_some, hmem]
      constructor
      · rintro ⟨item, hitem, hdecode⟩
        obtain rfl | rfl := (hspelled item).mp hdecode
        · exact ⟨items, hget, Or.inl hitem⟩
        · exact ⟨items, hget, Or.inr hitem⟩
      · rintro ⟨items', hget', hspell⟩
        rw [hget, Option.some.injEq, Json.arr.injEq] at hget'
        subst hget'
        obtain hstr | hmap := hspell
        · exact ⟨_, hstr, (hspelled _).mpr (Or.inl rfl)⟩
        · exact ⟨_, hmap, (hspelled _).mpr (Or.inr rfl)⟩

theorem reparenting_iff :
    reparenting args = true ↔ args.containsKey "parent_issue_id" = true ∨
      ∃ items, args.get "clear_fields" = some (.arr items) ∧
        Json.str "parent_issue_id" ∈ items := by
  unfold reparenting
  rw [Bool.or_eq_true]
  refine or_congr_right ?_
  cases hget : args.get "clear_fields" with
  | none => simp
  | some value =>
      cases value with
      | arr items =>
          simp only [Option.bind_some, Json.asArray_arr, Option.map_some,
            Option.getD_some, List.any_eq_true]
          constructor
          · rintro ⟨item, hitem, hstr⟩
            refine ⟨items, rfl, ?_⟩
            cases item with
            | str s =>
                obtain rfl : s = "parent_issue_id" := by
                  simpa [Json.asStr] using hstr
                exact hitem
            | _ => simp [Json.asStr] at hstr
          · rintro ⟨_, hitems, hstr⟩
            cases hitems
            exact ⟨_, hstr, rfl⟩
      | _ => simp [Json.asArray]

theorem parent_changes_iff
    (hreads : params.Reads parseDate args)
    (hprepare : prepareUpdate env params = .ok prepared) :
    (prepared.patch.parentIssueId ≠ .unchanged → reparenting args = true) ↔
      ParentVisible args := by
  obtain ⟨tagList, customFields, uploads, -, -, -, hpatch, -⟩ :=
    prepareUpdate_ok hprepare
  have hclear := parent_mem_clear hreads
  have hfield : prepared.patch.parentIssueId =
      clearOr (params.clearFields.getD []) .parentIssueId params.parentIssueId := by
    rw [hpatch]
    rfl
  constructor
  · intro hvisible
    by_cases hkey : args.containsKey "parent_issue_id" = true
    · exact Or.inl hkey
    · right
      intro items hget hmap
      have hreparent : reparenting args = true := by
        refine hvisible ?_
        rw [hfield]
        unfold clearOr
        rw [if_pos (hclear.mpr ⟨items, hget, Or.inr hmap⟩)]
        simp
      obtain ⟨named, hnamed, hstr⟩ :=
        (reparenting_iff.mp hreparent).resolve_left hkey
      cases hget.symm.trans hnamed
      exact hstr
  · intro hvisible hchanged
    by_cases hmem : ClearableField.parentIssueId ∈ params.clearFields.getD []
    · obtain ⟨items, hget, hstr | hmap⟩ := hclear.mp hmem
      · exact reparenting_iff.mpr (Or.inr ⟨items, hget, hstr⟩)
      · obtain hkey | hnamed := hvisible
        · exact reparenting_iff.mpr (Or.inl hkey)
        · exact reparenting_iff.mpr (Or.inr ⟨items, hget, hnamed items hget hmap⟩)
    · rw [hfield] at hchanged
      unfold clearOr at hchanged
      rw [if_neg hmem] at hchanged
      have hset : params.parentIssueId ≠ none := by
        intro hnone
        rw [hnone] at hchanged
        exact hchanged rfl
      have hkey := Decode.defaulted_ne hreads.parentIssueId hset
      exact reparenting_iff.mpr (Or.inl hkey)

theorem hasAgileField_of_change
    (hreads : params.Reads parseDate args)
    (hagile : params.agileChange.isSome = true) : hasAgileField args = true := by
  have hkey : ∀ field ∈ agileUpdateFields, args.containsKey field = true →
      hasAgileField args = true :=
    fun field hmem hpresent => List.any_eq_true.mpr ⟨field, hmem, hpresent⟩
  unfold AgileChange.isSome at hagile
  simp only [UpdateRedmineIssueParams.agileChange, Bool.or_eq_true] at hagile
  obtain (hpoints | hsprint) | hposition := hagile
  · refine hkey "story_points" (by decide)
      (Decode.defaulted_ne hreads.storyPoints ?_)
    exact Option.isSome_iff_ne_none.mp hpoints
  · refine hkey "agile_sprint_id" (by decide)
      (Decode.defaulted_ne hreads.agileSprintId ?_)
    exact Option.isSome_iff_ne_none.mp hsprint
  · refine hkey "agile_position" (by decide)
      (Decode.defaulted_ne hreads.agilePosition ?_)
    exact Option.isSome_iff_ne_none.mp hposition

theorem tagList_key
    {tags : Option (List String)} {checked : Option (List String)}
    (hread : Decode.optional args "tag_list" (Decode.vec Decode.string) = some tags)
    (hcheck : tags.mapM (validateTagList env) = .ok checked)
    (hset : checked ≠ none) : args.containsKey "tag_list" = true := by
  refine Decode.defaulted_ne hread ?_
  rintro rfl
  exact hset (mapM_option_none hcheck)

theorem updateCovered_iff
    (hdecode : UpdateRedmineIssueParams.decode parseDate args = some params)
    (hprepare : prepareUpdate env params = .ok prepared) :
    UpdateCovered args prepared ↔ ParentVisible args := by
  have hreads := UpdateRedmineIssueParams.decode_reads hdecode
  have hparent := parent_changes_iff hreads hprepare
  have hrequired : requiredForCall "update_redmine_issue" (some args) =
      updateRedmineIssueRequirement (some args) := rfl
  obtain ⟨tagList, customFields, uploads, htags, -, -, hpatch, hagile, -⟩ :=
    prepareUpdate_ok hprepare
  have hmore : prepared.TouchesMore → isNotesOnlyUpdate args = false := by
    intro htouches
    by_contra hnotes
    rw [Bool.not_eq_false] at hnotes
    exact not_touchesMore_of_notesOnly hreads hprepare hnotes htouches
  have hparentMore : prepared.patch.parentIssueId ≠ .unchanged →
      prepared.TouchesMore := by
    intro hchanged
    left
    intro hempty
    exact hchanged (congrArg IssueUpdate.parentIssueId hempty)
  have htagsMore : prepared.patch.tagList ≠ none → prepared.TouchesMore := by
    intro hset
    left
    intro hempty
    exact hset (congrArg IssueUpdate.tagList hempty)
  rw [← hparent]
  constructor
  · intro hcovered hchanged
    have hmem := hcovered.subtasks hchanged
    rw [hrequired, updateRequirement_allOf (hmore (hparentMore hchanged))] at hmem
    by_contra hreparent
    rw [Bool.not_eq_true] at hreparent
    rw [hreparent] at hmem
    cases hasAgileField args <;> simp at hmem
  · intro hvisible
    constructor
    · intro htouches
      rw [hrequired, updateRequirement_allOf (hmore htouches)]
      exact List.mem_cons_self
    · intro hchanged
      rw [hrequired, updateRequirement_allOf (hmore (hparentMore hchanged)),
        hvisible hchanged]
      simp
    · intro hchange
      rw [hagile] at hchange
      have hfield := hasAgileField_of_change hreads hchange
      rw [hrequired, updateRequirement_allOf
        (hmore (Or.inr (hagile ▸ hchange))), hfield]
      simp
    · intro hset
      have hkey : args.containsKey "tag_list" = true := by
        refine tagList_key hreads.tagList htags ?_
        rw [hpatch] at hset
        exact hset
      rw [hrequired, updateRequirement_oneOf (hmore (htagsMore hset)), hkey]
      rfl

end Update

section Create

variable {parseDate : String → Option NaiveDate} {args : JsonObject}
  {env : WriteEnv} {params : CreateRedmineIssueParams} {create : IssueCreate}

theorem CreateRedmineIssueParams.decode_tagList
    (hdecode : CreateRedmineIssueParams.decode parseDate args = some params) :
    Decode.optional args "tag_list" (Decode.vec Decode.string) =
      some params.tagList := by
  obtain ⟨fields, hfields, hdecode⟩ := Option.bind_eq_some_iff.mp hdecode
  cases Decode.fields_obj hfields
  iterate 16 obtain ⟨_, -, hdecode⟩ := Option.bind_eq_some_iff.mp hdecode
  obtain ⟨tagList, htagList, hdecode⟩ := Option.bind_eq_some_iff.mp hdecode
  obtain ⟨_, -, hdecode⟩ := Option.bind_eq_some_iff.mp hdecode
  cases hdecode
  exact htagList

theorem prepareCreate_tagList
    (hprepare : prepareCreate env params = .ok create) :
    params.tagList.mapM (validateTagList env) = .ok create.tagList := by
  unfold prepareCreate at hprepare
  simp only [bind, Except.bind, pure, Except.pure, throw, throwThe,
    MonadExceptOf.throw] at hprepare
  split at hprepare
  · cases hprepare
  split at hprepare
  · cases hprepare
  cases htags : params.tagList.mapM (validateTagList env) with
  | error refusal => simp [htags] at hprepare
  | ok tagList =>
      simp only [htags] at hprepare
      split at hprepare
      · cases hprepare
      split at hprepare
      · cases hprepare
      split at hprepare
      · cases hprepare
      cases hprepare
      rfl

theorem createCovered
    (hdecode : CreateRedmineIssueParams.decode parseDate args = some params)
    (hprepare : prepareCreate env params = .ok create) :
    CreateCovered args create := by
  have hrequired : requiredForCall "create_redmine_issue" (some args) =
      createRedmineIssueRequirement (some args) := rfl
  constructor
  · rw [hrequired]
    unfold createRedmineIssueRequirement
    split <;> exact List.mem_cons_self
  · intro hset
    have hkey := tagList_key (CreateRedmineIssueParams.decode_tagList hdecode)
      (prepareCreate_tagList hprepare) hset
    rw [hrequired]
    unfold createRedmineIssueRequirement
    simp only [Option.map_some, Option.getD_some, hkey, if_true]
    rfl

end Create

/-- An accepted update is held to the scopes of what it writes exactly when
its fields to clear hide no parent, and an accepted creation always is. -/
theorem issue_write_scopes
    (parseDate : String → Option NaiveDate) (env : WriteEnv) (args : JsonObject) :
    (∀ params prepared,
      UpdateRedmineIssueParams.decode parseDate args = some params →
      prepareUpdate env params = .ok prepared →
      (UpdateCovered args prepared ↔ ParentVisible args)) ∧
    (∀ params create,
      CreateRedmineIssueParams.decode parseDate args = some params →
      prepareCreate env params = .ok create → CreateCovered args create) :=
  ⟨fun _ _ hdecode hprepare => updateCovered_iff hdecode hprepare,
    fun _ _ hdecode hprepare => createCovered hdecode hprepare⟩

namespace Sample

def writeEnv : WriteEnv where
  agile := false
  tags := true
  normalizeFieldName := id
  debugString := id
  debugChar := Char.toString
  definitions := .ok []
  mintUploads _ := .ok []

def unsetParent (field : Json) : JsonObject :=
  [("clear_fields", .arr [field]), ("issue_id", .num (.posInt 7))]

def unsetParams : UpdateRedmineIssueParams :=
  ⟨7, none, none, none, none, none, none, none, none, none, none, none, none,
    none, none, none, none, none, none, none, none, none, none,
    some [.parentIssueId]⟩

def unsetUpdate : PreparedUpdate where
  issueId := 7
  patch := { parentIssueId := .clear }
  agileChange := ⟨none, none, none⟩
  hasCoreChange := true
  attachmentIds := []

theorem clear_by_name_covered :
    UpdateRedmineIssueParams.decode noDates (unsetParent (.str "parent_issue_id")) =
        some unsetParams ∧
      prepareUpdate writeEnv unsetParams = .ok unsetUpdate ∧
      (UpdateCovered (unsetParent (.str "parent_issue_id")) unsetUpdate ↔
        ParentVisible (unsetParent (.str "parent_issue_id"))) :=
  ⟨by decide +kernel, rfl,
    (issue_write_scopes noDates writeEnv (unsetParent (.str "parent_issue_id"))).1
      unsetParams unsetUpdate (by decide +kernel) rfl⟩

def hiddenParent : Json := .obj [("parent_issue_id", .null)]

/-- Naming it as a map clears the parent of an issue with `edit_issues`
alone. -/
theorem clear_by_map_uncovered :
    UpdateRedmineIssueParams.decode noDates (unsetParent hiddenParent) =
        some unsetParams ∧
      prepareUpdate writeEnv unsetParams = .ok unsetUpdate ∧
      requiredForCall "update_redmine_issue" (some (unsetParent hiddenParent)) =
        .scopes ["edit_issues"] ∧
      ¬ UpdateCovered (unsetParent hiddenParent) unsetUpdate := by
  refine ⟨by decide +kernel, rfl, by decide +kernel, ?_⟩
  intro hcovered
  have hmem := hcovered.subtasks (by decide)
  exact absurd hmem (by decide +kernel)

end Sample

end RuprogressMcp
