import RuprogressMcp.CustomFieldWrites

/-!
# The field that a rejection names

Two lookups read a field name: `resolve_name` collects every definition with
the normalized name and accepts only one, `compute_autofill` takes the first.
They agree on a label exactly when it has one meaning, or when the first
definition that it may mean has nothing to be filled with.
-/

namespace RuprogressMcp

section

variable (normalize : String → String) (cfg : CustomFieldConfig)

/-- The definitions that a label may mean. -/
def matchingDefs (defs : List AutofillDef) (label : String) :
    List AutofillDef :=
  defs.filter fun d => normalize d.name == normalize label

/-- The definition has a default, of its own or configured, that its possible
values allow. -/
def hasUsableDefault (field : AutofillDef) : Bool :=
  match pickCandidate normalize cfg field with
  | none => false
  | some (candidate, _) =>
      match field.possibleValues with
      | some possible => possible.isEmpty || candidate.all possible.contains
      | none => true

/-- The label means at most one definition, or the first that it may mean has
no usable default. -/
def OneMeaning (defs : List AutofillDef) (label : String) : Prop :=
  (matchingDefs normalize defs label).length ≤ 1 ∨
    ∀ field ∈ (matchingDefs normalize defs label).head?,
      hasUsableDefault normalize cfg field = false

end

/-- What `resolve_name` sees of the definitions. -/
def idNames (defs : List AutofillDef) : List (ℕ × String) :=
  defs.map fun d => (d.id, d.name)

variable {normalize : String → String} {cfg : CustomFieldConfig}
  {defs : List AutofillDef} {label : String}

/-- The fill of a label is that of the first definition it may mean. -/
theorem computeFill_id
    {fill : Fill} (hfill : computeFill normalize cfg defs label = some fill) :
    ∃ field ∈ (matchingDefs normalize defs label).head?,
      hasUsableDefault normalize cfg field = true ∧ fill.id = field.id := by
  obtain ⟨field, hfield, hfill⟩ := Option.bind_eq_some_iff.mp hfill
  obtain ⟨⟨candidate, fromArray⟩, hcandidate, hfill⟩ :=
    Option.bind_eq_some_iff.mp hfill
  rw [← List.head?_filter] at hfield
  refine ⟨field, hfield, ?_⟩
  simp only [hasUsableDefault, hcandidate]
  cases hpossible : field.possibleValues with
  | none =>
      simp only [hpossible] at hfill
      cases hfill
      exact ⟨rfl, rfl⟩
  | some possible =>
      simp only [hpossible] at hfill
      split at hfill
      · simp at hfill
      next hallowed =>
        cases hfill
        refine ⟨?_, rfl⟩
        simpa [Bool.or_eq_true, imp_iff_not_or] using hallowed

theorem computeFill_of_usable
    {field : AutofillDef}
    (hfield : field ∈ (matchingDefs normalize defs label).head?)
    (husable : hasUsableDefault normalize cfg field = true) :
    ∃ fill, computeFill normalize cfg defs label = some fill ∧
      fill.id = field.id := by
  have hfind : defs.find? (fun d => normalize d.name == normalize label) =
      some field := by
    rw [← List.head?_filter]
    exact hfield
  unfold hasUsableDefault at husable
  unfold computeFill
  simp only [hfind, Option.bind_eq_bind, Option.bind_some]
  cases hcandidate : pickCandidate normalize cfg field with
  | none => simp [hcandidate] at husable
  | some found =>
      obtain ⟨candidate, fromArray⟩ := found
      simp only [hcandidate] at husable
      simp only [Option.bind_some]
      cases hpossible : field.possibleValues with
      | none => exact ⟨_, rfl, rfl⟩
      | some possible =>
          simp only [hpossible] at husable
          have hallowed : (!possible.isEmpty &&
              !candidate.all possible.contains) = false := by
            cases hempty : possible.isEmpty <;>
              cases hall : candidate.all possible.contains <;>
              simp_all
          simp only [hallowed]
          exact ⟨_, rfl, rfl⟩

theorem resolveName_idNames_iff {env : WriteEnv} {id : ℕ} :
    resolveName env (idNames defs) label = .ok id ↔
      ∃ field, matchingDefs env.normalizeFieldName defs label = [field] ∧
        field.id = id := by
  rw [resolveName_eq_ok_iff, idNames, List.filter_map]
  constructor
  · rintro ⟨fieldName, honly⟩
    obtain ⟨field, hfield, hpair⟩ := List.map_eq_singleton_iff.mp honly
    exact ⟨field, hfield, congrArg Prod.fst hpair⟩
  · rintro ⟨field, hfield, rfl⟩
    exact ⟨field.name, List.map_eq_singleton_iff.mpr ⟨field, hfield, rfl⟩⟩

/-- The two lookups agree on a label. -/
def LookupsAgree (env : WriteEnv) (cfg : CustomFieldConfig)
    (defs : List AutofillDef) (label : String) : Prop :=
  ∀ fill, computeFill env.normalizeFieldName cfg defs label = some fill →
    resolveName env (idNames defs) label = .ok fill.id

theorem lookupsAgree_iff {env : WriteEnv} :
    LookupsAgree env cfg defs label ↔
      OneMeaning env.normalizeFieldName cfg defs label := by
  constructor
  · intro hagree
    by_contra hmeaning
    unfold OneMeaning at hmeaning
    push Not at hmeaning
    obtain ⟨hseveral, field, hfield, husable⟩ := hmeaning
    simp only [ne_eq, Bool.not_eq_false] at husable
    obtain ⟨fill, hfill, _⟩ := computeFill_of_usable hfield husable
    obtain ⟨_, honly, _⟩ := resolveName_idNames_iff.mp (hagree fill hfill)
    rw [honly] at hseveral
    simp at hseveral
  · intro hmeaning fill hfill
    obtain ⟨field, hfield, husable, hid⟩ := computeFill_id hfill
    rcases hmeaning with hone | hunusable
    · refine resolveName_idNames_iff.mpr ⟨field, ?_, hid.symm⟩
      cases hmatching : matchingDefs env.normalizeFieldName defs label with
      | nil => simp [hmatching] at hfield
      | cons found rest =>
          rw [hmatching] at hone hfield
          have hrest : rest = [] := by
            simpa using hone
          have hfound : found = field := by simpa using hfield
          rw [hrest, hfound]
    · exact absurd husable (by simp [hunusable field hfield])

/-- What a caller gave is replaced only for a field that a label means. -/
theorem replaced_only_when_named
    {env : WriteEnv} {missing : List String}
    (hagree : ∀ label ∈ missing, LookupsAgree env cfg defs label)
    {entries : Option (List IssueCustomFieldEntry)}
    {customFields : Option (List CustomFieldWrite)}
    (hresolve : resolveIssueCustomFields env entries = .ok customFields)
    {write : CustomFieldWrite} (hwrite : write ∈ customFields.getD [])
    (hreplaced : write ∉ mergeFills customFields
      (computeAutofill env.normalizeFieldName cfg defs missing)) :
    ∃ label ∈ missing, resolveName env (idNames defs) label = .ok write.id := by
  have hoverlaid := Overlaid.mergeFills (resolved_nodup hresolve)
    (computeAutofill env.normalizeFieldName cfg defs missing)
  have hnamed : ∃ fill ∈ computeAutofill env.normalizeFieldName cfg defs
      missing, fill.id = write.id := by
    by_contra hnone
    push Not at hnone
    exact hreplaced (hoverlaid.kept write hwrite hnone)
  obtain ⟨fill, hfill, hid⟩ := hnamed
  obtain ⟨label, hlabel, hcompute⟩ := List.mem_filterMap.mp hfill
  exact ⟨label, hlabel, hid ▸ hagree label hlabel fill hcompute⟩

/-- Autofill fills the fields that the labels of a rejection name, none for a
label without a meaning, and replaces no other value, exactly when no label
with a second meaning can be filled. -/
theorem autofill_agrees_with_names_iff
    (env : WriteEnv) (cfg : CustomFieldConfig) (defs : List AutofillDef)
    (missing : List String) :
    ((∀ label ∈ missing, ∀ fill,
        computeFill env.normalizeFieldName cfg defs label = some fill →
        resolveName env (idNames defs) label = .ok fill.id) ∧
      (∀ label ∈ missing,
        (∀ id, resolveName env (idNames defs) label ≠ .ok id) →
        computeFill env.normalizeFieldName cfg defs label = none) ∧
      (∀ entries customFields,
        resolveIssueCustomFields env entries = .ok customFields →
        ∀ write ∈ customFields.getD [],
        write ∉ mergeFills customFields
          (computeAutofill env.normalizeFieldName cfg defs missing) →
        ∃ label ∈ missing,
          resolveName env (idNames defs) label = .ok write.id)) ↔
      ∀ label ∈ missing, OneMeaning env.normalizeFieldName cfg defs label := by
  constructor
  · rintro ⟨hagree, _, _⟩ label hlabel
    exact lookupsAgree_iff.mp (hagree label hlabel)
  · intro hmeaning
    have hagree : ∀ label ∈ missing, LookupsAgree env cfg defs label :=
      fun label hlabel => lookupsAgree_iff.mpr (hmeaning label hlabel)
    refine ⟨hagree, ?_, ?_⟩
    · intro label hlabel hrejected
      cases hfill : computeFill env.normalizeFieldName cfg defs label with
      | none => rfl
      | some fill =>
          exact absurd (hagree label hlabel fill hfill) (hrejected fill.id)
    · intro entries customFields hresolve write hwrite hreplaced
      exact replaced_only_when_named hagree hresolve hwrite hreplaced

namespace Sample

def twoSeverities : List AutofillDef :=
  [⟨5, "Severity", some "low", none, none⟩,
    ⟨8, "severity", none, none, none⟩]

/-- A rejection of field 8 overwrites what the caller gave for field 5. -/
theorem ambiguous_label_is_filled :
    (∀ id, resolveName fieldEnv (idNames twoSeverities) "severity" ≠ .ok id) ∧
      resolveIssueCustomFields fieldEnv
          (some [⟨some 5, none, .single (some "high")⟩]) =
        .ok (some [⟨5, .single (some "high")⟩]) ∧
      parseRequiredFieldErrors ["severity can't be blank"] = ["severity"] ∧
      computeAutofill fieldEnv.normalizeFieldName ⟨true, []⟩ twoSeverities
          ["severity"] =
        [⟨5, "Severity", .single (some "low")⟩] ∧
      mergeFills (some [⟨5, .single (some "high")⟩])
          [⟨5, "Severity", .single (some "low")⟩] =
        [⟨5, .single (some "low")⟩] ∧
      ¬ ∀ fill, computeFill fieldEnv.normalizeFieldName ⟨true, []⟩
          twoSeverities "severity" = some fill →
        resolveName fieldEnv (idNames twoSeverities) "severity" =
          .ok fill.id := by
  have hrejected : ∀ id,
      resolveName fieldEnv (idNames twoSeverities) "severity" ≠ .ok id := by
    intro id hid
    obtain ⟨_, honly⟩ := resolveName_eq_ok_iff.mp hid
    have htwo : ((idNames twoSeverities).filter fun d =>
        fieldEnv.normalizeFieldName d.2 ==
          fieldEnv.normalizeFieldName "severity").length = 2 := by
      decide +kernel
    rw [honly] at htwo
    simp at htwo
  have hfill : computeFill fieldEnv.normalizeFieldName ⟨true, []⟩
      twoSeverities "severity" =
        some ⟨5, "Severity", .single (some "low")⟩ := by
    decide +kernel
  refine ⟨hrejected, rfl, by decide +kernel, by decide +kernel,
    by decide +kernel, ?_⟩
  intro hagree
  exact hrejected 5 (hagree _ hfill)

end Sample

end RuprogressMcp
