import RuprogressMcp.SchemaInlining

/-!
# What the portable dialect accepts

The three rewrites narrow a schema: an instance of the portable schema is an
instance of the tool's own, as long as the walks find no object to rewrite
among the values of an `enum` and each union they collapse accepts the strings
that take its place.
-/

namespace RuprogressMcp

namespace PortableSchema

open JsonSchema

/-! ## Nullable types -/

/-- What the walk does to the value of a key. -/
def nullableField (key : String) : Json → Json
  | .arr [a, b] =>
      if key = "type" ∧ isNull a ≠ isNull b then
        if isNull a then collapseNullableTypes b else collapseNullableTypes a
      else collapseNullableTypes (.arr [a, b])
  | x => collapseNullableTypes x

theorem collapseNullableItems_eq_map (items : List Json) :
    collapseNullableItems items = items.map collapseNullableTypes := by
  induction items with
  | nil => rfl
  | cons item rest ih => rw [collapseNullableItems, ih, List.map_cons]

theorem collapseNullableFields_cons
    (key : String) (x : Json) (rest : JsonObject) :
    collapseNullableFields ((key, x) :: rest) =
      (key, nullableField key x) :: collapseNullableFields rest := by
  unfold nullableField
  split
  · rw [collapseNullableFields, collapseNullableTypes]
    rfl
  · rw [collapseNullableFields]
    assumption

theorem collapseNullableFields_rel (fields : JsonObject) :
    FieldsRel (fun key x y => y = nullableField key x) fields
      (collapseNullableFields fields) := by
  induction fields with
  | nil => exact .nil
  | cons field rest ih =>
      obtain ⟨key, x⟩ := field
      rw [collapseNullableFields_cons]
      exact .cons ⟨rfl, rfl⟩ ih

theorem nullableField_of_ne
    {key : String} (hkey : key ≠ "type") (x : Json) :
    nullableField key x = collapseNullableTypes x := by
  unfold nullableField
  split
  · rw [if_neg (fun hboth => hkey hboth.1)]
  · rfl

theorem nullableField_of_place
    {x : Json} (hplace : IsPlace x) (key : String) :
    nullableField key x = collapseNullableTypes x := by
  cases x with
  | bool _ | obj _ => rfl
  | null | num _ | str _ | arr _ => exact hplace.elim

theorem ne_of_get_eq_none
    {fields : JsonObject} {key : String} (hget : fields.get key = none)
    {field : String × Json} (hmem : field ∈ fields) : field.1 ≠ key := by
  rintro rfl
  have hcontains : fields.containsKey field.1 = true :=
    JsonObject.containsKey_iff.mpr (List.mem_map_of_mem hmem)
  rw [JsonObject.containsKey, hget] at hcontains
  simp at hcontains

theorem collapseNullableTypes_of_single
    {x : Json} (hx : EveryObject NoNullableType x) :
    collapseNullableTypes x = x := by
  induction x using json_induct with
  | hnull | hbool _ | hnum _ | hstr _ => rfl
  | harr items ih =>
      rw [collapseNullableTypes, collapseNullableItems_eq_map]
      refine congrArg Json.arr ((List.map_congr_left fun x hmem => ?_).trans
        (List.map_id' items))
      exact ih x hmem (everyItem_iff.mp hx x hmem)
  | hobj fields ih =>
      have hfields : FieldsRel (fun _ x y => y = x) fields
          (collapseNullableFields fields) := by
        apply (collapseNullableFields_rel fields).imp_of_mem
        rintro key x _ hmem rfl
        have hvalue := ih (key, x) hmem (everyField_iff.mp hx.2 _ hmem)
        simp only at hvalue
        unfold nullableField
        split
        · rename_i a b
          rw [if_neg ?_, hvalue]
          rintro ⟨rfl, hne⟩
          exact hne (hx.1 a b hmem)
        · exact hvalue
      rw [collapseNullableTypes, hfields.eq_map, List.map_id']

theorem collapseNullableTypes_of_inert (x : Json) (hinert : Inert x) :
    collapseNullableTypes x = x := by
  exact collapseNullableTypes_of_single
    (everyObject_imp (fun _ hmap => hmap.2.1) hinert)

theorem walks_collapseNullableTypes :
    Walks Inert fun x y => y = collapseNullableTypes x where
  str _ := rfl
  num _ := rfl
  listed x hinert := (collapseNullableTypes_of_inert x hinert).symm
  arr items others hitems := by
    rw [collapseNullableTypes, collapseNullableItems_eq_map,
      eq_map_of_forall₂ hitems]
  obj fields others hplace hfields := by
    have hsame : FieldsRel (fun key x y => y = nullableField key x) fields
        others :=
      hfields.imp_of_mem fun key x y hmem hxy =>
        hxy.trans (nullableField_of_place (hplace (key, x) hmem) key).symm
    rw [collapseNullableTypes, (collapseNullableFields_rel fields).eq_map,
      hsame.eq_map]

/-- A list of type names is kept or reduced to one of them. -/
theorem nullableField_type (names : List String) :
    nullableField "type" (.arr (names.map .str)) = .arr (names.map .str) ∨
      ∃ name ∈ names,
        nullableField "type" (.arr (names.map .str)) = .str name := by
  have hkept : collapseNullableTypes (.arr (names.map .str)) =
      .arr (names.map .str) :=
    (walks_collapseNullableTypes.names names).symm
  match names, hkept with
  | [a, b], hkept =>
      by_cases hnull : isNull (.str a) = isNull (.str b)
      · left
        simpa [nullableField, hnull] using hkept
      · right
        have hother : nullableField "type" (.arr [.str a, .str b]) =
            if isNull (.str a) then .str b else .str a := by
          rw [nullableField, if_pos ⟨rfl, hnull⟩]
          rfl
        by_cases ha : isNull (.str a) = true
        · exact ⟨b, by simp, hother.trans (if_pos ha)⟩
        · exact ⟨a, by simp, hother.trans (if_neg ha)⟩
  | [], hkept | [_], hkept | _ :: _ :: _ :: _, hkept => exact Or.inl hkept

theorem nullableField_keyword
    (rel : Json → Json → Prop) {sub : Json → Prop} {key : String} {x : Json}
    (hplace : ∀ s, sub s → IsPlace s)
    (hsub : ∀ s, sub s → rel s (collapseNullableTypes s))
    (hkeyword : Keyword Inert sub key x) :
    KeywordRel rel key x (nullableField key x) ∧
      Keyword Inert (fun t => ∃ s, rel s t) key (nullableField key x) := by
  by_cases hkey : key = "type"
  · cases hkeyword with
    | typeName name => exact ⟨.kept _ _ (by simp), .typeName name⟩
    | typeNames names =>
        rcases nullableField_type names with hsame | ⟨name, hname, hone⟩
        · rw [hsame]
          exact ⟨.kept _ _ (by simp), .typeNames names⟩
        · rw [hone]
          exact ⟨.type names name hname, .typeName name⟩
    | enum | minimum | maximum | required | description | properties
    | additionalProperties | items | anyOf => simp at hkey
  · rw [nullableField_of_ne hkey]
    obtain ⟨y, rfl, hrel⟩ := hkeyword.exists_walk walks_collapseNullableTypes
      hplace fun s hs => ⟨_, rfl, hsub s hs⟩
    exact hrel

theorem collapseNullableTypes_narrows
    (reading : String → ℚ) {s : Json} (hschema : IsSchema Inert [] s) :
    Narrower reading [] s (collapseNullableTypes s) := by
  refine IsSchema.induct ?_ ?_ ?_ hschema
  · intro b
    exact ⟨.bool b, fun x hx => hx⟩
  · intro fields text target _ htarget
    exact absurd htarget definition_nil_ne_some
  · intro fields hfields
    have hkeyword (key : String) (x : Json) (hmem : (key, x) ∈ fields) :=
      nullableField_keyword (Narrower reading []) (fun s hs => hs.1.isPlace)
        (fun s hs => hs.2) (hfields key x hmem)
    have hrel := collapseNullableFields_rel fields
    have hnarrowed : FieldsRel (KeywordRel (Narrower reading [])) fields
        (collapseNullableFields fields) := by
      refine hrel.imp_of_mem ?_
      rintro key y _ hmem rfl
      exact (hkeyword key y hmem).1
    rw [collapseNullableTypes]
    refine ⟨.object _ ?_, ?_⟩
    · intro key y hmem
      obtain ⟨x, hx, rfl⟩ := hrel.mem_right hmem
      exact Narrower.keyword (hkeyword key x hx).2
    · intro x hx
      exact validates_obj_iff.mpr (Meets.of_narrowed hnarrowed
        (fun s t y hst => hst.valid y) (validates_obj_iff.mp hx))

/-! ## Unions of scalars -/

/-- The text is among the values, when there are any. -/
def Lists (values : Option Json) (text : String) : Prop :=
  ∀ items, values = some (.arr items) → .str text ∈ items

/-- A text that the collapsed union lists, or any text when it has no `enum`,
is accepted by the `enum` beside the union and by a branch for strings. -/
def KeepsStrings (map : JsonObject) : Prop :=
  ∀ branches, map.get "anyOf" = some (.arr branches) →
    ∀ text, Lists ((keptEnum branches).or (map.get "enum")) text →
      Lists (map.get "enum") text ∧
        ∃ branch ∈ branches, getText branch "type" = some "string" ∧
          Lists (getField branch "enum") text

/-- Wherever a union is collapsed, the strings that take its place were
accepted by it. -/
def SoundCollapses (s : Json) : Prop :=
  EveryObject (fun map =>
    shouldCollapse (collapseScalarFields map) = true →
      KeepsStrings (collapseScalarFields map)) s

theorem same_str_iff {reading : String → ℚ} {y : Json} {text : String} :
    Same reading y (.str text) ↔ y = .str text := by
  cases y <;> simp [Same]

theorem lists_of_enum
    {reading : String → ℚ} {values : Option Json} {text : String}
    (henum : ∀ items, values = some (.arr items) →
      ∃ listed ∈ items, Same reading listed (.str text)) :
    Lists values text := by
  intro items hitems
  obtain ⟨listed, hmem, hsame⟩ := henum items hitems
  exact same_str_iff.mp hsame ▸ hmem

theorem Lists.enum
    {reading : String → ℚ} {values : Option Json} {text : String}
    (hlists : Lists values text) (items : List Json)
    (hitems : values = some (.arr items)) :
    ∃ listed ∈ items, Same reading listed (.str text) :=
  ⟨.str text, hlists items hitems, same_str_iff.mpr rfl⟩

theorem eq_str_of_allowsType
    {reading : String → ℚ} {x : Json}
    (hallows : AllowsType reading (.str "string") x) :
    ∃ text, x = .str text := by
  cases x with
  | str text => exact ⟨text, rfl⟩
  | null | bool _ | num _ | arr _ | obj _ =>
      simp [AllowsType, HasType] at hallows

theorem isLeafScalar_spec
    {branch : Json} (hleaf : isLeafScalar branch = true) :
    ∃ map : JsonObject, branch = .obj map ∧
      (∃ name, map.get "type" = some (.str name)) ∧
      ∀ field ∈ map, field.1 ∈
        ["type", "description", "minimum", "maximum", "enum"] := by
  cases branch with
  | obj map =>
      simp only [isLeafScalar, Json.asObject, Bool.and_eq_true,
        List.all_eq_true, decide_eq_true_eq] at hleaf
      refine ⟨map, rfl, ?_, hleaf.2⟩
      have htype := hleaf.1
      split at htype
      next name hname =>
        obtain ⟨t, hget, ht⟩ := Option.bind_eq_some_iff.mp hname
        cases t with
        | str text => exact ⟨text, hget⟩
        | null | bool _ | num _ | arr _ | obj _ => simp [Json.asStr] at ht
      next => simp at htype
  | null | bool _ | num _ | str _ | arr _ =>
      simp [isLeafScalar, Json.asObject] at hleaf

/-- A leaf for strings accepts the strings it lists. -/
theorem validates_leaf
    {reading : String → ℚ} {defs : JsonObject} {branch : Json} {text : String}
    (hleaf : isLeafScalar branch = true)
    (htype : getText branch "type" = some "string")
    (hlists : Lists (getField branch "enum") text) :
    Validates reading defs branch (.str text) := by
  obtain ⟨map, rfl, -, hkeys⟩ := isLeafScalar_spec hleaf
  have hnone (key : String) (hkey : key ∉
      ["type", "description", "minimum", "maximum", "enum"]) :
      map.get key = none := by
    cases hget : map.get key with
    | none => rfl
    | some x => exact absurd (hkeys _ (JsonObject.mem_of_get hget)) hkey
  refine validates_obj_iff.mpr (Meets.of_str ?_ ?_ ?_ ?_)
  · intro t hget
    simp only [getText, getField, Json.asObject, Option.bind_some, hget] at htype
    cases t with
    | str name =>
        cases htype
        rfl
    | null | bool _ | num _ | arr _ | obj _ => simp [Json.asStr] at htype
  · exact hlists.enum
  · simp [hnone "anyOf" (by decide)]
  · simp [hnone "$ref" (by decide)]

theorem get_collapseBranches_type (branches : List Json) (map : JsonObject) :
    (collapseBranches branches map).get "type" = some (.str "string") := by
  simp [collapseBranches, JsonObject.get_insert]

theorem get_described
    (branches : List Json) (map : JsonObject) {key : String}
    (hkey : key ≠ "description") :
    (if map.containsKey "description" then map
      else if (joinedDescription branches).isEmpty then map
      else map.insert "description"
        (.str (joinedDescription branches))).get key = map.get key := by
  split
  · rfl
  · split
    · rfl
    · rw [JsonObject.get_insert, if_neg hkey]

theorem get_collapseBranches_enum (branches : List Json) (map : JsonObject) :
    (collapseBranches branches map).get "enum" =
      (keptEnum branches).or (map.get "enum") := by
  unfold collapseBranches
  rw [JsonObject.get_insert, if_neg (by decide)]
  split
  next values hvalues => simp [JsonObject.get_insert, hvalues]
  next hnone =>
    rw [get_described branches map (by decide), hnone]
    rfl

theorem get_collapseBranches_of_ne
    (branches : List Json) (map : JsonObject) {key : String}
    (htype : key ≠ "type") (henum : key ≠ "enum")
    (hdescription : key ≠ "description") :
    (collapseBranches branches map).get key = map.get key := by
  unfold collapseBranches
  rw [JsonObject.get_insert, if_neg htype]
  split
  · rw [JsonObject.get_insert, if_neg henum, get_described branches map
      hdescription]
  · exact get_described branches map hdescription

/-- An object without `type` whose `anyOf` lists scalars, not all of them
null. -/
def UnionOfScalars (map : JsonObject) : Prop :=
  map.get "type" = none ∧ ∃ branches, map.get "anyOf" = some (.arr branches) ∧
    branches ≠ [] ∧ (∀ branch ∈ branches, isLeafScalar branch = true) ∧
    ∃ branch ∈ branches, getText branch "type" ≠ some "null"

theorem shouldCollapse_iff {map : JsonObject} :
    shouldCollapse map = true ↔ UnionOfScalars map := by
  unfold shouldCollapse UnionOfScalars JsonObject.containsKey
  cases map.get "type" with
  | some _ => simp
  | none =>
      cases map.get "anyOf" with
      | none => simp
      | some x => cases x <;> simp [Json.asArray, and_assoc]

/-- An instance of a collapsed union is an instance of the union. -/
theorem meets_of_collapseUnion
    {reading : String → ℚ} {map : JsonObject} {x : Json}
    (hkeeps : shouldCollapse map = true → KeepsStrings map)
    (hmeets : Meets reading (Validates reading []) [] (collapseUnion map) x) :
    Meets reading (Validates reading []) [] map x := by
  unfold collapseUnion at hmeets
  split at hmeets
  next hcollapse =>
    obtain ⟨htype, branches, hbranches, -, hleaves, -⟩ :=
      shouldCollapse_iff.mp hcollapse
    simp only [hbranches] at hmeets
    obtain ⟨text, rfl⟩ := eq_str_of_allowsType
      (hmeets.type _ (get_collapseBranches_type branches _))
    have hlisted := lists_of_enum hmeets.enum
    rw [get_collapseBranches_enum, JsonObject.get_remove,
      if_neg (by decide)] at hlisted
    obtain ⟨henum, branch, hmem, hstring, hbranch⟩ :=
      hkeeps hcollapse branches hbranches text hlisted
    have href := hmeets.ref
    rw [get_collapseBranches_of_ne branches _ (by decide) (by decide)
      (by decide), JsonObject.get_remove, if_neg (by decide)] at href
    refine Meets.of_str ?_ henum.enum ?_ href
    · simp [htype]
    · intro others hothers
      rw [hbranches, Option.some.injEq, Json.arr.injEq] at hothers
      subst hothers
      exact ⟨branch, hmem,
        validates_leaf (hleaves branch hmem) hstring hbranch⟩
  next => exact hmeets

theorem keepsStrings_of_narrows
    {reading : String → ℚ} {map : JsonObject}
    (hcollapse : shouldCollapse map = true) (href : map.get "$ref" = none)
    (hnarrows : ∀ x,
      Meets reading (Validates reading []) [] (collapseUnion map) x →
        Meets reading (Validates reading []) [] map x) :
    KeepsStrings map := by
  intro branches hbranches text hlisted
  have hcollapsed : Meets reading (Validates reading []) [] (collapseUnion map)
      (.str text) := by
    simp only [collapseUnion, hcollapse, hbranches, if_true]
    refine Meets.of_str ?_ ?_ ?_ ?_
    · rw [get_collapseBranches_type]
      rintro _ ⟨⟩
      rfl
    · rw [get_collapseBranches_enum, JsonObject.get_remove,
        if_neg (by decide)]
      exact hlisted.enum
    · rw [get_collapseBranches_of_ne _ _ (by decide) (by decide) (by decide),
        JsonObject.get_remove, if_pos rfl]
      simp
    · rw [get_collapseBranches_of_ne _ _ (by decide) (by decide) (by decide),
        JsonObject.get_remove, if_neg (by decide), href]
      simp
  have hmeets := hnarrows (.str text) hcollapsed
  obtain ⟨branch, hmem, hvalid⟩ := hmeets.anyOf branches hbranches
  obtain ⟨-, others, hothers, -, hleaves, -⟩ := shouldCollapse_iff.mp hcollapse
  rw [hbranches, Option.some.injEq, Json.arr.injEq] at hothers
  subst hothers
  obtain ⟨fields, rfl, ⟨name, hname⟩, -⟩ :=
    isLeafScalar_spec (hleaves branch hmem)
  have hleaf := validates_obj_iff.mp hvalid
  have hstring : name = "string" := hleaf.type (.str name) hname
  refine ⟨lists_of_enum hmeets.enum, .obj fields, hmem, ?_,
    lists_of_enum hleaf.enum⟩
  simp [getText, getField, Json.asObject, hname, Json.asStr, hstring]

/-- For one union the condition is exact. -/
theorem collapseUnion_narrows_iff
    {reading : String → ℚ} {map : JsonObject}
    (hcollapse : shouldCollapse map = true) (href : map.get "$ref" = none) :
    (∀ x, Meets reading (Validates reading []) [] (collapseUnion map) x →
        Meets reading (Validates reading []) [] map x) ↔ KeepsStrings map := by
  constructor
  · exact keepsStrings_of_narrows hcollapse href
  · exact fun hkeeps x => meets_of_collapseUnion fun _ => hkeeps

/-- A branch for any string is enough when no `enum` stands beside it. -/
theorem keepsStrings_of_string_branch
    {map : JsonObject} (branches : List Json) (branch : Json)
    (hbranches : map.get "anyOf" = some (.arr branches))
    (henum : map.get "enum" = none) (hmem : branch ∈ branches)
    (htype : getText branch "type" = some "string")
    (hfree : getField branch "enum" = none) : KeepsStrings map := by
  intro others hothers text _
  rw [hbranches, Option.some.injEq, Json.arr.injEq] at hothers
  subst hothers
  refine ⟨?_, branch, hmem, htype, ?_⟩
  · simp [Lists, henum]
  · simp [Lists, hfree]

theorem collapseScalarItems_eq_map (items : List Json) :
    collapseScalarItems items = items.map collapseScalarAnyOf := by
  induction items with
  | nil => rfl
  | cons item rest ih => rw [collapseScalarItems, ih, List.map_cons]

theorem collapseScalarFields_eq_map (fields : JsonObject) :
    collapseScalarFields fields =
      fields.map fun field => (field.1, collapseScalarAnyOf field.2) := by
  induction fields with
  | nil => rfl
  | cons field rest ih =>
      obtain ⟨key, x⟩ := field
      rw [collapseScalarFields, ih, List.map_cons]

theorem collapseUnion_of_no_array
    {map : JsonObject} (harray : (map.get "anyOf").bind Json.asArray = none) :
    collapseUnion map = map := by
  have hkept : shouldCollapse map = false := by
    simp [shouldCollapse, harray]
  rw [collapseUnion, hkept]
  rfl

theorem collapseScalarAnyOf_of_normal
    {x : Json} (hx : EveryObject (fun map => shouldCollapse map = false) x) :
    collapseScalarAnyOf x = x := by
  induction x using json_induct with
  | hnull | hbool _ | hnum _ | hstr _ => rfl
  | harr items ih =>
      rw [collapseScalarAnyOf, collapseScalarItems_eq_map]
      refine congrArg Json.arr ((List.map_congr_left fun x hmem => ?_).trans
        (List.map_id' items))
      exact ih x hmem (everyItem_iff.mp hx x hmem)
  | hobj fields ih =>
      have hfields : collapseScalarFields fields = fields := by
        rw [collapseScalarFields_eq_map]
        refine (List.map_congr_left fun field hmem => ?_).trans
          (List.map_id' fields)
        exact Prod.ext rfl (ih field hmem (everyField_iff.mp hx.2 field hmem))
      rw [collapseScalarAnyOf, hfields, collapseUnion, hx.1]
      rfl

theorem walks_collapseScalarAnyOf :
    Walks Inert fun x y => y = collapseScalarAnyOf x where
  str _ := rfl
  num _ := rfl
  listed x hinert := (collapseScalarAnyOf_of_normal
    (everyObject_imp (fun _ hmap => hmap.2.2) hinert)).symm
  arr items others hitems := by
    rw [collapseScalarAnyOf, collapseScalarItems_eq_map,
      eq_map_of_forall₂ hitems]
  obj fields others hplace hfields := by
    have hothers : collapseScalarFields fields = others := by
      rw [collapseScalarFields_eq_map, hfields.eq_map]
    rw [collapseScalarAnyOf, hothers, collapseUnion_of_no_array]
    cases hget : others.get "anyOf" with
    | none => rfl
    | some y =>
        obtain ⟨x, hmem, rfl⟩ :=
          hfields.mem_right (JsonObject.mem_of_get hget)
        have hx := hplace _ hmem
        cases x with
        | bool _ | obj _ => rfl
        | null | num _ | str _ | arr _ => exact hx.elim

theorem collapseScalarAnyOf_narrows
    (reading : String → ℚ) {s : Json} (hschema : IsSchema Inert [] s) :
    SoundCollapses s → ∀ x, Validates reading [] (collapseScalarAnyOf s) x →
      Validates reading [] s x := by
  refine IsSchema.induct ?_ ?_ ?_ hschema
  · exact fun b _ x hx => hx
  · intro fields text target _ htarget
    exact absurd htarget definition_nil_ne_some
  · intro fields hfields hsound x hx
    obtain ⟨others, hwalk, hnarrowed, -⟩ := exists_narrowed
      (fun s t => ∀ x, Validates reading [] t x → Validates reading [] s x)
      walks_collapseScalarAnyOf (fun s hs => hs.1.1.isPlace)
      (fun s hs => ⟨_, rfl, hs.1.2 hs.2⟩)
      fun key x hmem => (hfields key x hmem).and_everyObject
        (everyField_iff.mp hsound.2 (key, x) hmem)
    have hothers : collapseScalarFields fields = others := by
      rw [collapseScalarFields_eq_map, hwalk.eq_map]
    have hunion := hsound.1
    rw [collapseScalarAnyOf, validates_obj_iff, hothers] at hx
    rw [hothers] at hunion
    exact validates_obj_iff.mpr (Meets.of_narrowed hnarrowed
      (fun s t y hst => hst y) (meets_of_collapseUnion hunion hx))

/-! ## The whole rewrite -/

theorem remove_eq_self
    {fields : JsonObject} {key : String} (hget : fields.get key = none) :
    fields.remove key = fields := by
  apply List.filter_eq_self.mpr
  intro field hfield
  simpa using ne_of_get_eq_none hget hfield

theorem inlineDefs_narrows
    (reading : String → ℚ) {schema : JsonObject}
    (hschema : IsRootSchema Inert schema) :
    ∃ bound map, (∀ fuel, bound ≤ fuel →
        inlineDefs fuel schema = some (.obj map)) ∧
      Narrower reading (rootDefs schema) (.obj (schema.remove "$defs"))
        (.obj map) := by
  have hroot := hschema.root
  cases hget : schema.get "$defs" with
  | none =>
      have hdefs : rootDefs schema = [] := by
        rw [rootDefs, hget]
      rw [remove_eq_self hget, hdefs] at hroot ⊢
      refine ⟨0, schema, fun fuel _ => ?_, hroot, fun x hx => hx⟩
      rw [inlineDefs, hget]
  | some value =>
      obtain ⟨defs, rfl⟩ := hschema.defs value hget
      have hdefs : rootDefs schema = defs := by
        rw [rootDefs, hget]
      rw [hdefs] at hroot ⊢
      obtain ⟨t, ⟨bound, hbound⟩, hnarrower⟩ :=
        inlining_narrows reading hroot [] (by simp [Described])
      rw [withSiblings_nil] at hbound
      have hplain : reference (schema.remove "$defs") = none := by
        rw [reference, JsonObject.get_remove, if_neg (by decide), hschema.bare]
        rfl
      obtain ⟨map, -, rfl⟩ :=
        (resolveRefs_obj_iff hplain).mp (resolveRefs_succ hbound)
      refine ⟨bound, map, fun fuel hfuel => ?_, hnarrower⟩
      rw [inlineDefs, hget]
      exact resolveRefs_mono hfuel hbound

theorem get_defs_eq_none
    {listed : Json → Prop} {fields : JsonObject}
    (hschema : IsSchema listed [] (.obj fields)) : fields.get "$defs" = none := by
  cases hschema with
  | ref _ text target _ htarget => exact absurd htarget definition_nil_ne_some
  | object _ hfields =>
      cases hget : fields.get "$defs" with
      | none => rfl
      | some x =>
          exact absurd rfl (hfields _ x (JsonObject.mem_of_get hget)).ne_ref.2

theorem rootDefs_collapseUnion
    {fields : JsonObject} (hget : fields.get "$defs" = none) :
    rootDefs (collapseUnion (collapseScalarFields fields)) = [] := by
  have hfields : (collapseScalarFields fields).get "$defs" = none := by
    cases hcollapsed : (collapseScalarFields fields).get "$defs" with
    | none => rfl
    | some y =>
        have hmem := JsonObject.mem_of_get hcollapsed
        rw [collapseScalarFields_eq_map] at hmem
        obtain ⟨field, hfield, heq⟩ := List.mem_map.mp hmem
        have hkey : field.1 = "$defs" := congrArg Prod.fst heq
        exact absurd hkey (ne_of_get_eq_none hget hfield)
  have hunion : (collapseUnion (collapseScalarFields fields)).get "$defs" =
      none := by
    unfold collapseUnion
    split
    · split
      · rw [get_collapseBranches_of_ne _ _ (by decide) (by decide) (by decide),
          JsonObject.get_remove, if_neg (by decide), hfields]
      · exact hfields
    · exact hfields
  rw [rootDefs, hunion]

/-- An instance of the portable schema is an instance of the tool's own. -/
theorem toPortable_narrows
    (reading : String → ℚ) {schema : JsonObject}
    (hschema : IsRootSchema Inert schema)
    (hsound : ∀ fuel inlined, inlineDefs fuel schema = some inlined →
      SoundCollapses (collapseNullableTypes inlined)) :
    ∃ bound portable,
      (∀ fuel, bound ≤ fuel → toPortable fuel schema = some portable) ∧
        ∀ x, Accepts reading portable x → Accepts reading schema x := by
  obtain ⟨bound, map, hinlined, hinlining⟩ := inlineDefs_narrows reading hschema
  have hnullable := collapseNullableTypes_narrows reading hinlining.schema
  have hscalar := collapseScalarAnyOf_narrows reading hnullable.schema
    (hsound bound (.obj map) (hinlined bound le_rfl))
  refine ⟨bound, collapseUnion (collapseScalarFields
    (collapseNullableFields map)), ?_, ?_⟩
  · intro fuel hfuel
    rw [toPortable, hinlined fuel hfuel]
    rfl
  · intro x hx
    have hplain := get_defs_eq_none hnullable.schema
    rw [Accepts, rootDefs_collapseUnion hplain] at hx
    have hremoved := hinlining.valid x (hnullable.valid x (hscalar x hx))
    refine validates_obj_iff.mpr ?_
    refine Meets.congr (schema.remove "$defs") ?_ (validates_obj_iff.mp hremoved)
    intro key _ hkey
    rw [JsonObject.get_remove, if_neg hkey]

namespace Sample

def ofType (name : String) : Json := .obj [("type", .str name)]

/-- A tool with one parameter. -/
def tool (s : Json) : JsonObject :=
  [("properties", .obj [("value", s)]), ("type", .str "object")]

def call (x : Json) : Json := .obj [("value", x)]

theorem accepts_tool_iff {reading : String → ℚ} {s x : Json} :
    Accepts reading (tool s) (call x) ↔ Validates reading [] s x := by
  have hdefs : rootDefs (tool s) = [] := rfl
  rw [Accepts, hdefs, validates_obj_iff]
  constructor
  · intro hmeets
    exact hmeets.properties [("value", s)] [("value", x)] "value" s x rfl rfl
      List.mem_cons_self rfl
  · intro hvalid
    constructor
    · rintro _ ⟨⟩
      rfl
    · rintro _ ⟨⟩
    · rintro _ _ ⟨⟩
    · rintro _ _ ⟨⟩
    · rintro _ _ _ ⟨⟩
    · rintro _ _ name t y ⟨⟩ ⟨⟩ hmem hget
      obtain ⟨rfl, rfl⟩ : name = "value" ∧ y = x := by simpa using hmem
      cases hget
      exact hvalid
    · rintro _ _ _ _ ⟨⟩
    · rintro _ _ _ ⟨⟩
    · rintro _ ⟨⟩
    · rintro _ ⟨⟩

theorem isSchema_tool
    {listed : Json → Prop} {defs : JsonObject} {s : Json}
    (hschema : IsSchema listed defs s) :
    IsSchema listed defs (.obj (tool s)) := by
  refine .object _ ?_
  intro key x hmem
  simp only [tool, List.mem_cons, Prod.mk.injEq, List.not_mem_nil,
    or_false] at hmem
  rcases hmem with ⟨rfl, rfl⟩ | ⟨rfl, rfl⟩
  · refine .properties _ ?_
    simpa using hschema
  · exact .typeName "object"

/-- The portable schema accepts a call that the tool's schema rejects. -/
structure Invites (s x : Json) : Prop where
  schema : IsRootSchema (fun _ => True) (tool s)
  portable : ∃ fuel portable, toPortable fuel (tool s) = some portable ∧
    ∀ reading, Accepts reading portable (call x) ∧
      ¬ Accepts reading (tool s) (call x)

theorem invites_of
    {s x : Json} (t : Json) (hschema : IsSchema (fun _ => True) [] s)
    (hportable : toPortable 5 (tool s) = some (tool t))
    (haccepted : ∀ reading, Validates reading [] t x)
    (hrejected : ∀ reading, ¬ Validates reading [] s x) : Invites s x where
  schema := by
    refine ⟨?_, rfl, isSchema_tool hschema⟩
    rintro _ ⟨⟩
  portable := by
    refine ⟨5, tool t, hportable, ?_⟩
    intro reading
    rw [accepts_tool_iff, accepts_tool_iff]
    exact ⟨haccepted reading, hrejected reading⟩

def listing (name : String) (values : List String) : Json :=
  .obj [("enum", .arr (values.map .str)), ("type", .str name)]

def union (branches : List Json) : Json := .obj [("anyOf", .arr branches)]

theorem isSchema_ofType (listed : Json → Prop) (defs : JsonObject)
    (name : String) : IsSchema listed defs (ofType name) := by
  refine .object _ ?_
  intro key x hmem
  simp only [List.mem_singleton, Prod.mk.injEq] at hmem
  obtain ⟨rfl, rfl⟩ := hmem
  exact .typeName name

theorem isSchema_listing (name : String) (values : List String) :
    IsSchema (fun _ => True) [] (listing name values) := by
  refine .object _ ?_
  intro key x hmem
  simp only [List.mem_cons, Prod.mk.injEq, List.not_mem_nil, or_false] at hmem
  rcases hmem with ⟨rfl, rfl⟩ | ⟨rfl, rfl⟩
  · exact .enum _ fun _ _ => trivial
  · exact .typeName name

theorem isSchema_union
    {listed : Json → Prop} {defs : JsonObject} {branches : List Json}
    (hbranches : ∀ s ∈ branches, IsSchema listed defs s) :
    IsSchema listed defs (union branches) := by
  refine .object _ ?_
  intro key x hmem
  simp only [List.mem_singleton, Prod.mk.injEq] at hmem
  obtain ⟨rfl, rfl⟩ := hmem
  exact .anyOf branches hbranches

theorem validates_ofType_iff
    {reading : String → ℚ} {name text : String} :
    Validates reading [] (ofType name) (.str text) ↔ name = "string" := by
  constructor
  · intro hvalid
    exact (validates_obj_iff.mp hvalid).type (.str name) rfl
  · rintro rfl
    exact validates_leaf rfl rfl (fun _ hitems => by cases hitems)

theorem validates_listing_iff
    {reading : String → ℚ} {name text : String} {values : List String} :
    Validates reading [] (listing name values) (.str text) ↔
      name = "string" ∧ text ∈ values := by
  constructor
  · intro hvalid
    have hmeets := validates_obj_iff.mp hvalid
    refine ⟨hmeets.type (.str name) rfl, ?_⟩
    simpa using lists_of_enum hmeets.enum (values.map .str) rfl
  · rintro ⟨rfl, htext⟩
    refine validates_leaf rfl rfl ?_
    rintro _ ⟨⟩
    exact List.mem_map_of_mem htext

theorem validates_union_iff
    {reading : String → ℚ} {branches : List Json} {x : Json} :
    Validates reading [] (union branches) x ↔
      ∃ branch ∈ branches, Validates reading [] branch x := by
  rw [union, validates_obj_iff]
  constructor
  · intro hmeets
    exact hmeets.anyOf branches rfl
  · intro hbranch
    constructor
    · rintro _ ⟨⟩
    · rintro _ ⟨⟩
    · rintro _ _ ⟨⟩
    · rintro _ _ ⟨⟩
    · rintro _ _ _ ⟨⟩
    · rintro _ _ _ _ _ ⟨⟩
    · rintro _ _ _ _ ⟨⟩
    · rintro _ _ _ ⟨⟩
    · rintro _ ⟨⟩
      exact hbranch
    · rintro _ ⟨⟩

/-- Neither branch is for strings. -/
def numberOrFlag : Json := union [ofType "integer", ofType "boolean"]

/-- The `enum` beside the union is overwritten. -/
def enumBeside : Json :=
  .obj [("anyOf", .arr [listing "string" ["b"]]), ("enum", .arr [.str "a"])]

/-- The `enum` that is kept is that of a branch for integers. -/
def enumOfIntegers : Json :=
  union [listing "integer" ["a"], listing "string" ["b"]]

/-- A listed value looks like a schema. -/
def listedSchema : Json :=
  .obj [("enum", .arr [.obj [("type", .arr [.str "string", .str "null"])]])]

theorem numberOrFlag_invites : Invites numberOrFlag (.str "x") := by
  refine invites_of (ofType "string") ?_ (by decide +kernel) ?_ ?_
  · apply isSchema_union
    simp [isSchema_ofType]
  · exact fun reading => validates_ofType_iff.mpr rfl
  · intro reading hvalid
    rw [numberOrFlag, validates_union_iff] at hvalid
    simp [validates_ofType_iff] at hvalid

theorem enumBeside_invites : Invites enumBeside (.str "b") := by
  refine invites_of (listing "string" ["b"]) ?_ (by decide +kernel) ?_ ?_
  · refine .object _ ?_
    intro key x hmem
    simp only [List.mem_cons, Prod.mk.injEq, List.not_mem_nil,
      or_false] at hmem
    rcases hmem with ⟨rfl, rfl⟩ | ⟨rfl, rfl⟩
    · refine .anyOf _ ?_
      simp [isSchema_listing]
    · exact .enum _ fun _ _ => trivial
  · exact fun reading => validates_listing_iff.mpr ⟨rfl, by simp⟩
  · intro reading hvalid
    have hlists := lists_of_enum (validates_obj_iff.mp hvalid).enum
    simpa using hlists [.str "a"] rfl

theorem enumOfIntegers_invites : Invites enumOfIntegers (.str "a") := by
  refine invites_of (listing "string" ["a"]) ?_ (by decide +kernel) ?_ ?_
  · apply isSchema_union
    simp [isSchema_listing]
  · exact fun reading => validates_listing_iff.mpr ⟨rfl, by simp⟩
  · intro reading hvalid
    rw [enumOfIntegers, validates_union_iff] at hvalid
    simp [validates_listing_iff] at hvalid

theorem validates_enum_iff
    {reading : String → ℚ} {values : List Json} {x : Json} :
    Validates reading [] (.obj [("enum", .arr values)]) x ↔
      ∃ listed ∈ values, Same reading listed x := by
  rw [validates_obj_iff]
  constructor
  · intro hmeets
    exact hmeets.enum values rfl
  · intro henum
    constructor
    · rintro _ ⟨⟩
    · rintro _ ⟨⟩
      exact henum
    · rintro _ _ ⟨⟩
    · rintro _ _ ⟨⟩
    · rintro _ _ _ ⟨⟩
    · rintro _ _ _ _ _ ⟨⟩
    · rintro _ _ _ _ ⟨⟩
    · rintro _ _ _ ⟨⟩
    · rintro _ ⟨⟩
    · rintro _ ⟨⟩

theorem listedSchema_invites : Invites listedSchema (ofType "string") := by
  refine invites_of (.obj [("enum", .arr [ofType "string"])]) ?_
    (by decide +kernel) ?_ ?_
  · refine .object _ ?_
    intro key x hmem
    simp only [List.mem_singleton, Prod.mk.injEq] at hmem
    obtain ⟨rfl, rfl⟩ := hmem
    exact .enum _ fun _ _ => trivial
  · intro reading
    rw [validates_enum_iff]
    exact ⟨_, List.mem_singleton_self _, rfl, rfl, trivial⟩
  · intro reading hvalid
    rw [listedSchema, validates_enum_iff] at hvalid
    simp [ofType, Same, SameFields] at hvalid

theorem rejected_calls_invited :
    Invites numberOrFlag (.str "x") ∧ Invites enumBeside (.str "b") ∧
      Invites enumOfIntegers (.str "a") ∧
      Invites listedSchema (ofType "string") :=
  ⟨numberOrFlag_invites, enumBeside_invites, enumOfIntegers_invites,
    listedSchema_invites⟩

def projectId : Json :=
  .obj [("minimum", .num (.posInt 0)), ("type", .str "integer")]

/-- The definition of `ProjectRef`. -/
def projectRef : Json := union [projectId, ofType "string"]

def optionalRef : Json :=
  union [.obj [("$ref", .str "#/$defs/ProjectRef")], ofType "null"]

/-- A tool with an optional project. -/
def projectTool : JsonObject :=
  ("$defs", .obj [("ProjectRef", projectRef)]) :: tool optionalRef

theorem isSchema_optionalRef :
    IsSchema Inert [("ProjectRef", projectRef)] optionalRef := by
  have hid : IsSchema Inert [("ProjectRef", projectRef)] projectId := by
    refine .object _ ?_
    intro key x hmem
    simp only [List.mem_cons, Prod.mk.injEq, List.not_mem_nil,
      or_false] at hmem
    rcases hmem with ⟨rfl, rfl⟩ | ⟨rfl, rfl⟩
    · exact .minimum _
    · exact .typeName "integer"
  apply isSchema_union
  intro s hs
  simp only [List.mem_cons, List.not_mem_nil, or_false] at hs
  rcases hs with rfl | rfl
  · refine .ref _ "#/$defs/ProjectRef" projectRef rfl (by decide +kernel) ?_ ?_
    · intro key x hmem hkey
      simp only [List.mem_singleton, Prod.mk.injEq] at hmem
      exact absurd hmem.1 hkey
    · apply isSchema_union
      simp [hid, isSchema_ofType]
  · exact isSchema_ofType _ _ "null"

/-- What inlining makes of the tool. -/
def inlinedTool : JsonObject := tool (union [projectRef, ofType "null"])

theorem soundCollapses_of_kept
    {map : JsonObject} (hkept : shouldCollapse (collapseScalarFields map) = false)
    (hfields : ∀ field ∈ map, SoundCollapses field.2) :
    SoundCollapses (.obj map) := by
  refine ⟨?_, everyField_iff.mpr hfields⟩
  simp [hkept]

theorem soundCollapses_union
    {branches : List Json} (hbranches : ∀ s ∈ branches, SoundCollapses s)
    (hkeeps : KeepsStrings (collapseScalarFields [("anyOf", .arr branches)])) :
    SoundCollapses (union branches) :=
  ⟨fun _ => hkeeps, everyItem_iff.mpr hbranches, trivial⟩

theorem soundCollapses_ofType (name : String) : SoundCollapses (ofType name) := by
  refine soundCollapses_of_kept rfl ?_
  intro field hfield
  cases List.mem_singleton.mp hfield
  trivial

theorem soundCollapses_projectRef : SoundCollapses projectRef := by
  apply soundCollapses_union
  · have hid : SoundCollapses projectId := by
      refine soundCollapses_of_kept rfl ?_
      intro field hfield
      simp only [List.mem_cons, List.not_mem_nil, or_false] at hfield
      rcases hfield with rfl | rfl <;> trivial
    simp [hid, soundCollapses_ofType]
  · exact keepsStrings_of_string_branch [projectId, ofType "string"]
      (ofType "string") (by decide +kernel) (by decide +kernel) (by simp)
      (by decide +kernel) (by decide +kernel)

theorem soundCollapses_inlinedTool :
    SoundCollapses (collapseNullableTypes (.obj inlinedTool)) := by
  have hcollapsed : collapseNullableTypes (.obj inlinedTool) =
      .obj inlinedTool := by
    decide +kernel
  have hunion : SoundCollapses (union [projectRef, ofType "null"]) := by
    apply soundCollapses_union
    · simp [soundCollapses_projectRef, soundCollapses_ofType]
    · exact keepsStrings_of_string_branch [ofType "string", ofType "null"]
        (ofType "string") (by decide +kernel) (by decide +kernel) (by simp)
        (by decide +kernel) (by decide +kernel)
  rw [hcollapsed]
  refine soundCollapses_of_kept (by decide +kernel) ?_
  intro field hfield
  simp only [inlinedTool, tool, List.mem_cons, List.not_mem_nil,
    or_false] at hfield
  rcases hfield with rfl | rfl
  · refine soundCollapses_of_kept (by decide +kernel) ?_
    simpa using hunion
  · trivial

theorem projectTool_narrows :
    IsRootSchema Inert projectTool ∧ ∃ bound portable,
      (∀ fuel, bound ≤ fuel → toPortable fuel projectTool = some portable) ∧
        ∀ x, Accepts (fun _ => 0) portable x →
          Accepts (fun _ => 0) projectTool x := by
  have hschema : IsRootSchema Inert projectTool := by
    refine ⟨?_, rfl, isSchema_tool isSchema_optionalRef⟩
    rintro _ ⟨⟩
    exact ⟨_, rfl⟩
  refine ⟨hschema, toPortable_narrows (fun _ => 0) hschema ?_⟩
  intro fuel inlined hinlined
  have hresolved : resolveRefs [("ProjectRef", projectRef)] 9
      (.obj (tool optionalRef)) = some (.obj inlinedTool) := by
    decide +kernel
  rw [resolveRefs_unique hinlined hresolved]
  exact soundCollapses_inlinedTool

end Sample

end PortableSchema

end RuprogressMcp
