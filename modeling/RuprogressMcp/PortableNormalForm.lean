import RuprogressMcp.PortableNarrowing
import Mathlib.Data.Set.Card

/-!
# The normal form of the portable dialect

When the definitions of a schema refer to each other without a cycle, the
rewrite ends.  What it leaves has no references, no nullable `type` and no
union of scalars, and a second rewrite finds nothing to do.

The walk through the references is not structural, since it goes on in the
definition that it has just put in place.  It ends by induction on the names:
a definition can be put in place, beside any siblings whose values can be
inlined, once this holds of the definitions that it refers to.
-/

namespace RuprogressMcp

namespace PortableSchema

open JsonSchema

/-! ## Relations without cycles -/

section Acyclic

variable {α : Type*} {r : α → α → Prop}

/-- Each step leaves behind a target that it can no longer reach. -/
theorem wellFounded_of_acyclic
    {s : Set α} (hfinite : s.Finite) (htarget : ∀ a b, r a b → b ∈ s)
    (hacyclic : ∀ a, ¬ Relation.TransGen r a a) :
    WellFounded (Function.swap r) := by
  have hreach : ∀ a, {b | Relation.TransGen r a b} ⊆ s := by
    intro a b hab
    obtain ⟨c, -, hcb⟩ := Relation.TransGen.tail'_iff.mp hab
    exact htarget c b hcb
  refine Subrelation.wf (fun {b a} hab => ?_)
    (measure fun a => Set.ncard {b | Relation.TransGen r a b}).wf
  refine Set.ncard_lt_ncard ⟨fun c hc => .head hab hc, ?_⟩
    (hfinite.subset (hreach a))
  exact fun hback => hacyclic b (hback (.single hab))

theorem acyclic_of_rank
    (rank : α → ℕ) (hrank : ∀ a b, r a b → rank b < rank a) (a : α) :
    ¬ Relation.TransGen r a a := by
  have hlower : ∀ b, Relation.TransGen r a b → rank b < rank a := by
    intro b hab
    induction hab with
    | single hstep => exact hrank _ _ hstep
    | tail _ hstep ih => exact (hrank _ _ hstep).trans ih
  exact fun hcycle => lt_irrefl _ (hlower a hcycle)

end Acyclic

/-! ## Schemas that can be rewritten -/

def defsPrefix : String := "#/$defs/"

/-- An object in the first definition refers to the second. -/
def RefersTo (defs : JsonObject) (name other : String) : Prop :=
  ∃ target map, defs.get name = some target ∧ Inside map target ∧
    reference map = some (defsPrefix ++ other)

/-- An array under `type` holds strings only. -/
def TypesAreStrings (map : JsonObject) : Prop :=
  ∀ items, ("type", .arr items) ∈ map → ∀ x ∈ items, ∃ text, x = .str text

/-- A textual reference in the object names a definition. -/
def Refers (defs map : JsonObject) : Prop :=
  ∀ text, reference map = some text →
    ∃ name, text = defsPrefix ++ name ∧ defs.containsKey name = true

structure Inlinable (schema : JsonObject) : Prop where
  definitions : ∀ x, schema.get "$defs" = some x →
    ∃ defs : JsonObject, x = .obj defs ∧
      ∀ field ∈ defs, ∃ map, field.2 = .obj map
  atRoot : ∀ field ∈ schema,
    EveryObject (fun map => map.containsKey "$defs" = false) field.2
  refers : EveryObject (Refers (rootDefs schema)) (.obj schema)
  acyclic : ∀ name, ¬ Relation.TransGen (RefersTo (rootDefs schema)) name name
  types : EveryObject TypesAreStrings (.obj schema)

structure NormalForm (schema : JsonObject) : Prop where
  references : EveryObject (fun map => reference map = none) (.obj schema)
  definitions : schema.get "$defs" = none
  types : EveryObject NoNullableType (.obj schema)
  unions : EveryObject (fun map => ¬ UnionOfScalars map) (.obj schema)

/-! ## What inlining keeps of a value -/

section Inlining

variable {defs : JsonObject}

theorem definition_defsPrefix (name : String) :
    definition defs (defsPrefix ++ name) = defs.get name := by
  unfold definition defsPrefix
  rw [String.toList_append, List.dropPrefix?_append_of_beq _ (beq_self_eq_true _),
    Option.bind_some, String.ofList_toList]

theorem defsPrefix_inj {name other : String}
    (heq : defsPrefix ++ name = defsPrefix ++ other) : name = other :=
  String.toList_injective (List.append_cancel_left (by
    simpa only [String.toList_append] using congrArg String.toList heq))

theorem obj_of_resolveRefs
    (hdefs : ∀ field ∈ defs, ∃ map, field.2 = .obj map)
    {fuel : ℕ} {map : JsonObject} {y : Json}
    (hresolve : resolveRefs defs fuel (.obj map) = some y) :
    ∃ others, y = .obj others := by
  induction fuel generalizing map with
  | zero => simp [resolveRefs] at hresolve
  | succ fuel ih =>
      cases href : reference map with
      | none =>
          obtain ⟨others, -, rfl⟩ := (resolveRefs_obj_iff href).mp hresolve
          exact ⟨others, rfl⟩
      | some text =>
          cases htarget : definition defs text with
          | none =>
              simp only [resolveRefs, href, htarget, Option.some.injEq] at hresolve
              exact ⟨map, hresolve.symm⟩
          | some target =>
              rw [resolveRefs_ref href htarget] at hresolve
              obtain ⟨name, -, hget⟩ := Option.bind_eq_some_iff.mp htarget
              obtain ⟨found, hfound⟩ := hdefs _ (JsonObject.mem_of_get hget)
              simp only at hfound
              subst hfound
              exact ih hresolve

theorem arr_of_resolves
    (hdefs : ∀ field ∈ defs, ∃ map, field.2 = .obj map)
    {x : Json} {others : List Json} (hresolves : Resolves defs x (.arr others)) :
    ∃ items, x = .arr items ∧ List.Forall₂ (Resolves defs) items others := by
  obtain ⟨fuel, hfuel⟩ := hresolves
  cases fuel with
  | zero => simp [resolveRefs] at hfuel
  | succ fuel =>
      cases x with
      | null | bool _ | num _ | str _ => simp [resolveRefs] at hfuel
      | arr items =>
          obtain ⟨found, hitems, hfound⟩ := resolveRefs_arr_iff.mp hfuel
          cases hfound
          exact ⟨items, rfl, hitems.imp fun _ _ hab => ⟨fuel, hab⟩⟩
      | obj map =>
          obtain ⟨found, hfound⟩ := obj_of_resolveRefs hdefs hfuel
          cases hfound

theorem asStr_of_resolves
    (hdefs : ∀ field ∈ defs, ∃ map, field.2 = .obj map)
    {x y : Json} (hresolves : Resolves defs x y) : y.asStr = x.asStr := by
  obtain ⟨fuel, hfuel⟩ := hresolves
  cases fuel with
  | zero => simp [resolveRefs] at hfuel
  | succ fuel =>
      cases x with
      | null | bool _ | num _ | str _ =>
          simp only [resolveRefs, Option.some.injEq] at hfuel
          rw [hfuel]
      | arr items =>
          obtain ⟨found, -, rfl⟩ := resolveRefs_arr_iff.mp hfuel
          rfl
      | obj map =>
          obtain ⟨found, rfl⟩ := obj_of_resolveRefs hdefs hfuel
          rfl

theorem eq_str_of_asStr {x : Json} {text : String} (htext : x.asStr = some text) :
    x = .str text := by
  cases x with
  | str s => exact congrArg Json.str (Option.some.inj htext)
  | null | bool _ | num _ | arr _ | obj _ => simp [Json.asStr] at htext

theorem reference_eq_of_rel
    {rel : String → Json → Json → Prop} {fields others : JsonObject}
    (hrel : FieldsRel rel fields others)
    (htext : ∀ x y, rel "$ref" x y → y.asStr = x.asStr) :
    reference others = reference fields := by
  unfold reference
  cases hget : fields.get "$ref" with
  | none =>
      have hother := hrel.containsKey "$ref"
      unfold JsonObject.containsKey at hother
      rw [hget, Option.isSome_none, Option.isSome_eq_false_iff,
        Option.isNone_iff_eq_none] at hother
      rw [hother]
  | some x =>
      obtain ⟨y, hy, hxy⟩ := hrel.get_eq_some hget
      rw [hy, Option.bind_some, Option.bind_some, htext x y hxy]

/-- What an object of the schema is like before the references are inlined. -/
structure Resolvable (defs map : JsonObject) : Prop where
  refers : Refers defs map
  definitions : map.containsKey "$defs" = false
  types : TypesAreStrings map

/-- What an object is like after that. -/
structure Resolved (map : JsonObject) : Prop where
  reference : reference map = none
  definitions : map.containsKey "$defs" = false
  types : TypesAreStrings map

theorem Resolvable.resolved
    (hdefs : ∀ field ∈ defs, ∃ map, field.2 = .obj map)
    {fields others : JsonObject} (hfields : Resolvable defs fields)
    (hplain : PortableSchema.reference fields = none)
    (hrel : FieldsRel (fun _ => Resolves defs) fields others) :
    Resolved others where
  reference :=
    (reference_eq_of_rel hrel fun _ _ => asStr_of_resolves hdefs).trans hplain
  definitions := (hrel.containsKey "$defs").trans hfields.definitions
  types := by
    intro items hmem y hy
    obtain ⟨x, hx, hresolves⟩ := hrel.mem_right hmem
    obtain ⟨names, rfl, hnames⟩ := arr_of_resolves hdefs hresolves
    obtain ⟨name, hname, hy⟩ := forall₂_mem_right hnames hy
    obtain ⟨text, rfl⟩ := hfields.types names hx name hname
    exact ⟨text, eq_str_of_asStr (asStr_of_resolves hdefs hy)⟩

theorem get_insertAll_of_get_eq_none
    {siblings map : JsonObject} {key : String}
    (hkey : siblings.get key = none) :
    (insertAll siblings map).get key = map.get key := by
  induction siblings generalizing map with
  | nil => rfl
  | cons sibling siblings ih =>
      obtain ⟨k, x⟩ := sibling
      rw [JsonObject.get_cons] at hkey
      split at hkey
      · cases hkey
      rename_i hne
      calc (insertAll ((k, x) :: siblings) map).get key
          = (map.insert k x).get key := ih hkey
        _ = map.get key := by rw [JsonObject.get_insert, if_neg hne]

theorem get_eq_none_of_containsKey
    {map : JsonObject} {key : String} (hkey : map.containsKey key = false) :
    map.get key = none := by
  unfold JsonObject.containsKey at hkey
  simpa using hkey

theorem Resolvable.insertAll
    {siblings map : JsonObject} (hsiblings : Resolvable defs siblings)
    (hplain : siblings.get "$ref" = none) (hmap : Resolvable defs map) :
    Resolvable defs (PortableSchema.insertAll siblings map) where
  refers := by
    intro text htext
    rw [PortableSchema.reference, get_insertAll_of_get_eq_none hplain] at htext
    exact hmap.refers text htext
  definitions := by
    rw [JsonObject.containsKey, get_insertAll_of_get_eq_none
      (get_eq_none_of_containsKey hsiblings.definitions)]
    exact hmap.definitions
  types := by
    intro items hmem
    rcases mem_insertAll hmem with hsibling | hfield
    · exact hsiblings.types items hsibling
    · exact hmap.types items hfield

theorem Resolvable.remove
    {map : JsonObject} (hmap : Resolvable defs map) {key : String} :
    Resolvable defs (JsonObject.remove key map) where
  refers := by
    intro text htext
    rw [PortableSchema.reference, JsonObject.get_remove] at htext
    split at htext
    · cases htext
    · exact hmap.refers text htext
  definitions := by
    rw [JsonObject.containsKey, JsonObject.get_remove]
    split
    · rfl
    · exact hmap.definitions
  types items hmem := hmap.types items (List.mem_of_mem_filter hmem)

/-- The value can be inlined. -/
def Inlines (defs : JsonObject) (x : Json) : Prop :=
  ∃ y, Resolves defs x y ∧ EveryObject Resolved y

/-- The definition can be put in place beside any siblings whose values can be
inlined. -/
def Substitutes (defs : JsonObject) (name : String) : Prop :=
  ∀ target, defs.get name = some target → ∀ siblings,
    siblings.get "$ref" = none → Resolvable defs siblings →
    (∀ field ∈ siblings, Inlines defs field.2) →
    Inlines defs (withSiblings siblings target)

theorem inlines_obj
    (hdefs : ∀ field ∈ defs, ∃ map, field.2 = .obj map)
    {fields : JsonObject} (hfields : Resolvable defs fields)
    (hvalues : ∀ field ∈ fields, Inlines defs field.2)
    (hreference : ∀ name, reference fields = some (defsPrefix ++ name) →
      Substitutes defs name) : Inlines defs (.obj fields) := by
  cases href : reference fields with
  | none =>
      obtain ⟨others, hothers⟩ := exists_fieldsRel
        (fun _ x y => Resolves defs x y ∧ EveryObject Resolved y) fields
        fun key x hmem => hvalues (key, x) hmem
      have hrel : FieldsRel (fun _ => Resolves defs) fields others :=
        hothers.imp_of_mem fun _ _ _ _ hxy => hxy.1
      refine ⟨.obj others, resolves_obj href hrel,
        hfields.resolved hdefs href hrel, everyField_iff.mpr ?_⟩
      rintro ⟨key, y⟩ hmem
      obtain ⟨x, -, -, hy⟩ := hothers.mem_right hmem
      exact hy
  | some text =>
      obtain ⟨name, rfl, hname⟩ := hfields.refers text href
      obtain ⟨target, htarget⟩ := Option.isSome_iff_exists.mp hname
      obtain ⟨y, hy, hresolved⟩ := hreference name href target htarget
        (JsonObject.remove "$ref" fields) (by simp [JsonObject.get_remove])
        hfields.remove fun field hmem =>
          hvalues field (List.mem_of_mem_filter hmem)
      exact ⟨y, resolves_ref href ((definition_defsPrefix name).trans htarget) hy,
        hresolved⟩

theorem inlines_of_references
    (hdefs : ∀ field ∈ defs, ∃ map, field.2 = .obj map) {x : Json}
    (hx : EveryObject (Resolvable defs) x)
    (hreferences : ∀ map, Inside map x → ∀ name,
      reference map = some (defsPrefix ++ name) → Substitutes defs name) :
    Inlines defs x := by
  induction x using json_induct with
  | hnull | hbool _ | hnum _ | hstr _ => exact ⟨_, ⟨1, rfl⟩, trivial⟩
  | harr items ih =>
      obtain ⟨others, hothers⟩ : ∃ others, List.Forall₂
          (fun x y => Resolves defs x y ∧ EveryObject Resolved y) items others :=
        exists_forall₂ items fun x hmem => ih x hmem (everyItem_iff.mp hx x hmem)
          fun map hinside => hreferences map (.item hmem hinside)
      refine ⟨.arr others, resolves_arr (hothers.imp fun _ _ hxy => hxy.1),
        everyItem_iff.mpr ?_⟩
      intro y hmem
      obtain ⟨x, -, -, hy⟩ := forall₂_mem_right hothers hmem
      exact hy
  | hobj fields ih =>
      refine inlines_obj hdefs hx.1 ?_ (hreferences fields .here)
      exact fun field hmem => ih field hmem (everyField_iff.mp hx.2 field hmem)
        fun map hinside => hreferences map (.field hmem hinside)

/-- Every definition can be put in place. -/
theorem substitutes
    (hdefs : ∀ field ∈ defs, ∃ map, field.2 = .obj map)
    (hresolvable : ∀ field ∈ defs, EveryObject (Resolvable defs) field.2)
    (hacyclic : ∀ name, ¬ Relation.TransGen (RefersTo defs) name name)
    (name : String) : Substitutes defs name := by
  have htarget : ∀ name other, RefersTo defs name other →
      other ∈ {other | other ∈ defs.map Prod.fst} := by
    rintro name other ⟨target, map, hget, hinside, href⟩
    have hmem := JsonObject.mem_of_get hget
    obtain ⟨found, hfound, hcontains⟩ :=
      (everyObject_iff.mp (hresolvable _ hmem) map hinside).refers _ href
    exact JsonObject.containsKey_iff.mp (defsPrefix_inj hfound ▸ hcontains)
  have hwf := wellFounded_of_acyclic (List.finite_toSet (defs.map Prod.fst))
    htarget hacyclic
  induction name using hwf.induction with
  | _ name ih =>
      intro target hget siblings hplain hsiblings hvalues
      have hmem := JsonObject.mem_of_get hget
      obtain ⟨map, hmap⟩ := hdefs _ hmem
      simp only at hmap
      subst hmap
      have hinner := hresolvable _ hmem
      refine inlines_obj hdefs (hsiblings.insertAll hplain hinner.1) ?_ ?_
      · intro field hfield
        rcases mem_insertAll hfield with hsibling | hown
        · exact hvalues field hsibling
        · refine inlines_of_references hdefs
            (everyField_iff.mp hinner.2 field hown) ?_
          exact fun inner hinside other href => ih other
            ⟨_, inner, hget, .field hown hinside, href⟩
      · intro other href
        rw [reference, get_insertAll_of_get_eq_none hplain] at href
        exact ih other ⟨_, map, hget, .here, href⟩

end Inlining

/-! ## Inlining a whole schema -/

theorem rootDefs_of_get
    {schema defs : JsonObject} (hget : schema.get "$defs" = some (.obj defs)) :
    rootDefs schema = defs := by
  unfold rootDefs
  rw [hget]

theorem Inlinable.resolvable
    {schema : JsonObject} (hschema : Inlinable schema) {field : String × Json}
    (hmem : field ∈ schema) :
    EveryObject (Resolvable (rootDefs schema)) field.2 := by
  refine everyObject_iff.mpr fun map hinside => ⟨?_, ?_, ?_⟩
  · exact everyObject_iff.mp hschema.refers map (.field hmem hinside)
  · exact everyObject_iff.mp (hschema.atRoot field hmem) map hinside
  · exact everyObject_iff.mp hschema.types map (.field hmem hinside)

theorem Inlinable.inlines
    {schema defs : JsonObject} (hschema : Inlinable schema)
    (hget : schema.get "$defs" = some (.obj defs)) :
    Inlines defs (.obj (schema.remove "$defs")) := by
  obtain ⟨_, ⟨⟩, hdefs⟩ := hschema.definitions _ hget
  have hfields : ∀ field ∈ schema, EveryObject (Resolvable defs) field.2 :=
    fun field hmem => rootDefs_of_get hget ▸ hschema.resolvable hmem
  have hvalues := (hfields _ (JsonObject.mem_of_get hget)).2
  have hacyclic := hschema.acyclic
  have hrefers := hschema.refers.1
  rw [rootDefs_of_get hget] at hacyclic hrefers
  have hroot : Resolvable defs (schema.remove "$defs") := by
    refine ⟨?_, ?_, ?_⟩
    · intro text htext
      rw [reference, JsonObject.get_remove, if_neg (by decide)] at htext
      exact hrefers text htext
    · simp [JsonObject.containsKey, JsonObject.get_remove]
    · exact fun items hmem => hschema.types.1 items (List.mem_of_mem_filter hmem)
  refine inlines_of_references hdefs ⟨hroot, everyField_iff.mpr ?_⟩ ?_
  · exact fun field hmem => hfields field (List.mem_of_mem_filter hmem)
  · exact fun _ _ name _ =>
      substitutes hdefs (everyField_iff.mp hvalues) hacyclic name

theorem Inlinable.exists_inlined
    {schema : JsonObject} (hschema : Inlinable schema) :
    ∃ inlined : JsonObject,
      (∃ bound, ∀ fuel, bound ≤ fuel →
        inlineDefs fuel schema = some (.obj inlined)) ∧
      EveryObject Resolved (.obj inlined) := by
  cases hget : schema.get "$defs" with
  | none =>
      have hdefs : rootDefs schema = [] := by
        unfold rootDefs
        rw [hget]
      have hplain : ∀ map, Refers [] map → reference map = none := by
        intro map hrefers
        rw [Option.eq_none_iff_forall_ne_some]
        intro text htext
        obtain ⟨name, -, hname⟩ := hrefers text htext
        simp [JsonObject.containsKey] at hname
      have hresolved : ∀ map, Resolvable (rootDefs schema) map → Resolved map :=
        fun map hmap => ⟨hplain map (hdefs ▸ hmap.refers), hmap.definitions,
          hmap.types⟩
      refine ⟨schema, ⟨0, fun fuel _ => by rw [inlineDefs, hget]⟩,
        ⟨?_, ?_, hschema.types.1⟩, everyField_iff.mpr fun field hmem =>
          everyObject_imp hresolved (hschema.resolvable hmem)⟩
      · exact hplain schema (hdefs ▸ hschema.refers.1)
      · rw [JsonObject.containsKey, hget]
        rfl
  | some x =>
      obtain ⟨defs, rfl, hdefs⟩ := hschema.definitions x hget
      obtain ⟨y, ⟨bound, hbound⟩, hresolved⟩ := hschema.inlines hget
      obtain ⟨inlined, rfl⟩ := obj_of_resolveRefs hdefs hbound
      refine ⟨inlined, ⟨bound, fun fuel hle => ?_⟩, hresolved⟩
      rw [inlineDefs, hget]
      exact resolveRefs_mono hle hbound

/-! ## Nullable types -/

/-- What an object is like when its nullable types are collapsed as well. -/
structure Single (map : JsonObject) : Prop where
  reference : reference map = none
  definitions : map.containsKey "$defs" = false
  types : NoNullableType map

theorem collapseNullableTypes_of_strings
    {items : List Json} (hitems : ∀ x ∈ items, ∃ text, x = .str text) :
    collapseNullableTypes (.arr items) = .arr items := by
  rw [collapseNullableTypes, collapseNullableItems_eq_map]
  refine congrArg Json.arr ((List.map_congr_left fun x hx => ?_).trans
    (List.map_id' items))
  obtain ⟨text, rfl⟩ := hitems x hx
  rfl

theorem nullableField_type_cases
    {items : List Json} (hitems : ∀ x ∈ items, ∃ text, x = .str text) :
    (∃ text, nullableField "type" (.arr items) = .str text) ∨
      nullableField "type" (.arr items) = .arr items ∧
        ∀ a b, items = [a, b] → isNull a = isNull b := by
  have hkept := collapseNullableTypes_of_strings hitems
  match items with
  | [a, b] =>
      obtain ⟨s, rfl⟩ := hitems a (by simp)
      obtain ⟨t, rfl⟩ := hitems b (by simp)
      by_cases hnull : isNull (.str s) = isNull (.str t)
      · refine Or.inr ⟨?_, ?_⟩
        · rw [nullableField, if_neg (fun hboth => hboth.2 hnull), hkept]
        · rintro _ _ ⟨⟩
          exact hnull
      · left
        rw [nullableField, if_pos ⟨rfl, hnull⟩]
        split
        · exact ⟨t, rfl⟩
        · exact ⟨s, rfl⟩
  | [] | [_] | _ :: _ :: _ :: _ =>
      exact Or.inr ⟨hkept, by simp⟩

theorem asStr_collapseNullableTypes (x : Json) :
    (collapseNullableTypes x).asStr = x.asStr := by
  cases x <;> rfl

theorem noNullableType_collapseNullableFields
    {fields : JsonObject} (hfields : TypesAreStrings fields) :
    NoNullableType (collapseNullableFields fields) := by
  intro a b hmem
  obtain ⟨x, hx, hvalue⟩ := (collapseNullableFields_rel fields).mem_right hmem
  cases x with
  | null | bool _ | num _ | str _ | obj _ => cases hvalue
  | arr items =>
      rcases nullableField_type_cases (hfields items hx) with
        ⟨text, htext⟩ | ⟨hkept, hpair⟩
      · rw [htext] at hvalue
        cases hvalue
      · rw [hkept] at hvalue
        exact hpair a b (Json.arr.inj hvalue).symm

theorem single_collapseNullableTypes
    {x : Json} (hx : EveryObject Resolved x) :
    EveryObject Single (collapseNullableTypes x) := by
  induction x using json_induct with
  | hnull | hbool _ | hnum _ | hstr _ => trivial
  | harr items ih =>
      rw [collapseNullableTypes, collapseNullableItems_eq_map]
      refine everyItem_iff.mpr (List.forall_mem_map.mpr fun x hmem => ?_)
      exact ih x hmem (everyItem_iff.mp hx x hmem)
  | hobj fields ih =>
      have hrel := collapseNullableFields_rel fields
      refine ⟨⟨?_, ?_, noNullableType_collapseNullableFields hx.1.types⟩,
        everyField_iff.mpr ?_⟩
      · refine (reference_eq_of_rel hrel ?_).trans hx.1.reference
        rintro x _ rfl
        rw [nullableField_of_ne (by decide), asStr_collapseNullableTypes]
      · exact (hrel.containsKey "$defs").trans hx.1.definitions
      · rintro ⟨key, y⟩ hmem
        obtain ⟨x, hfield, rfl⟩ := hrel.mem_right hmem
        have hvalue := ih (key, x) hfield (everyField_iff.mp hx.2 _ hfield)
        by_cases hkey : key = "type"
        · subst hkey
          cases x with
          | null | bool _ | num _ | str _ | obj _ => exact hvalue
          | arr items =>
              have hitems := hx.1.types items hfield
              rcases nullableField_type_cases hitems with
                ⟨text, htext⟩ | ⟨hkept, -⟩
              · simp only [htext]
                trivial
              · rw [collapseNullableTypes_of_strings hitems] at hvalue
                simpa only [hkept] using hvalue
        · simpa only [nullableField_of_ne hkey] using hvalue

/-! ## Unions of scalars -/

/-- What an object is like in the end. -/
structure Normal (map : JsonObject) : Prop extends Single map where
  unions : shouldCollapse map = false

theorem asStr_collapseScalarAnyOf (x : Json) :
    (collapseScalarAnyOf x).asStr = x.asStr := by
  cases x <;> rfl

theorem isNull_eq (x : Json) : isNull x = decide (x.asStr = some "null") := by
  cases x <;> simp [isNull, Json.asStr]

theorem collapseScalarFields_rel (fields : JsonObject) :
    FieldsRel (fun _ x y => y = collapseScalarAnyOf x) fields
      (collapseScalarFields fields) := by
  rw [collapseScalarFields_eq_map]
  exact List.forall₂_map_right_iff.mpr
    (List.forall₂_same.mpr fun field _ => ⟨rfl, rfl⟩)

theorem Single.collapseScalarFields
    {fields : JsonObject} (hfields : Single fields) :
    Single (PortableSchema.collapseScalarFields fields) where
  reference := by
    refine (reference_eq_of_rel (collapseScalarFields_rel fields) ?_).trans
      hfields.reference
    rintro x _ rfl
    exact asStr_collapseScalarAnyOf x
  definitions :=
    ((collapseScalarFields_rel fields).containsKey "$defs").trans
      hfields.definitions
  types := by
    intro a b hmem
    obtain ⟨x, hx, hvalue⟩ := (collapseScalarFields_rel fields).mem_right hmem
    cases x with
    | null | bool _ | num _ | str _ | obj _ => cases hvalue
    | arr items =>
        rw [collapseScalarAnyOf, collapseScalarItems_eq_map] at hvalue
        obtain ⟨p, others, rfl, rfl, hothers⟩ :=
          List.map_eq_cons_iff.mp (Json.arr.inj hvalue).symm
        obtain ⟨q, rest, rfl, rfl, hrest⟩ := List.map_eq_cons_iff.mp hothers
        obtain rfl := List.map_eq_nil_iff.mp hrest
        simpa only [isNull_eq, asStr_collapseScalarAnyOf] using
          hfields.types p q hx

theorem mem_collapseBranches
    {branches : List Json} {map : JsonObject} {field : String × Json}
    (hmem : field ∈ collapseBranches branches map) :
    (∃ text, field.2 = .str text) ∨
      (field.1 = "enum" ∧ keptEnum branches = some field.2) ∨
        field ∈ map := by
  unfold collapseBranches at hmem
  rcases JsonObject.mem_insert hmem with rfl | hmem
  · exact Or.inl ⟨_, rfl⟩
  have hdescribed : ∀ {described : JsonObject}, described =
      (if map.containsKey "description" then map
        else if (joinedDescription branches).isEmpty then map
        else map.insert "description" (.str (joinedDescription branches))) →
      field ∈ described → (∃ text, field.2 = .str text) ∨ field ∈ map := by
    rintro _ rfl hfield
    split_ifs at hfield
    · exact Or.inr hfield
    · exact Or.inr hfield
    · rcases JsonObject.mem_insert hfield with rfl | hold
      · exact Or.inl ⟨_, rfl⟩
      · exact Or.inr hold
  split at hmem
  · rename_i values hvalues
    rcases JsonObject.mem_insert hmem with rfl | hmem
    · exact Or.inr (Or.inl ⟨rfl, hvalues⟩)
    · exact (hdescribed rfl hmem).imp_right Or.inr
  · exact (hdescribed rfl hmem).imp_right Or.inr

theorem everyObject_of_getField
    {p : JsonObject → Prop} {branch values : Json} {key : String}
    (hbranch : EveryObject p branch) (hget : getField branch key = some values) :
    EveryObject p values := by
  obtain ⟨fields, hfields, hvalue⟩ := Option.bind_eq_some_iff.mp hget
  cases branch with
  | obj map =>
      cases hfields
      exact everyField_iff.mp hbranch.2 _ (JsonObject.mem_of_get hvalue)
  | null | bool _ | num _ | str _ | arr _ => cases hfields

/-- The object that takes the place of a union is in normal form. -/
theorem normal_collapseBranches
    {map : JsonObject} {branches : List Json} (hmap : Single map)
    (hbranches : map.get "anyOf" = some (.arr branches))
    (hvalues : ∀ field ∈ map, EveryObject Normal field.2) :
    EveryObject Normal
      (.obj (collapseBranches branches (map.remove "anyOf"))) := by
  have hkey : ∀ key, key ∉ ["type", "enum", "description", "anyOf"] →
      (collapseBranches branches (map.remove "anyOf")).get key = map.get key := by
    intro key hkey
    simp only [List.mem_cons, List.not_mem_nil, or_false, not_or] at hkey
    rw [get_collapseBranches_of_ne _ _ hkey.1 hkey.2.1 hkey.2.2.1,
      JsonObject.get_remove, if_neg hkey.2.2.2]
  refine ⟨⟨⟨?_, ?_, ?_⟩, ?_⟩, everyField_iff.mpr fun field hmem => ?_⟩
  · rw [reference, hkey _ (by decide)]
    exact hmap.reference
  · rw [JsonObject.containsKey, hkey _ (by decide)]
    exact hmap.definitions
  · intro a b hmem
    rcases mem_collapseBranches hmem with ⟨text, htext⟩ | ⟨henum, -⟩ | hold
    · cases htext
    · simp at henum
    · exact hmap.types a b (List.mem_of_mem_filter hold)
  · simp [shouldCollapse, JsonObject.containsKey, get_collapseBranches_type]
  · rcases mem_collapseBranches hmem with ⟨text, htext⟩ | ⟨-, henum⟩ | hold
    · rw [htext]
      trivial
    · obtain ⟨branch, hbranch, hfound⟩ := List.exists_of_findSome?_eq_some henum
      have harr := hvalues _ (JsonObject.mem_of_get hbranches)
      exact everyObject_of_getField (everyItem_iff.mp harr branch hbranch) hfound
    · exact hvalues field (List.mem_of_mem_filter hold)

theorem normal_collapseScalarAnyOf
    {x : Json} (hx : EveryObject Single x) :
    EveryObject Normal (collapseScalarAnyOf x) := by
  induction x using json_induct with
  | hnull | hbool _ | hnum _ | hstr _ => trivial
  | harr items ih =>
      rw [collapseScalarAnyOf, collapseScalarItems_eq_map]
      refine everyItem_iff.mpr (List.forall_mem_map.mpr fun x hmem => ?_)
      exact ih x hmem (everyItem_iff.mp hx x hmem)
  | hobj fields ih =>
      have hsingle := hx.1.collapseScalarFields
      have hvalues : ∀ field ∈ collapseScalarFields fields,
          EveryObject Normal field.2 := by
        rintro ⟨key, y⟩ hmem
        obtain ⟨x, hfield, rfl⟩ :=
          (collapseScalarFields_rel fields).mem_right hmem
        exact ih (key, x) hfield (everyField_iff.mp hx.2 _ hfield)
      rw [collapseScalarAnyOf, collapseUnion]
      by_cases hcollapse : shouldCollapse (collapseScalarFields fields) = true
      · obtain ⟨-, branches, hbranches, -⟩ := shouldCollapse_iff.mp hcollapse
        rw [if_pos hcollapse, hbranches]
        exact normal_collapseBranches hsingle hbranches hvalues
      · rw [if_neg hcollapse]
        exact ⟨⟨hsingle, by simpa using hcollapse⟩, everyField_iff.mpr hvalues⟩

/-! ## A second rewrite -/

theorem NormalForm.of_normal
    {schema : JsonObject} (hnormal : EveryObject Normal (.obj schema)) :
    NormalForm schema where
  references := everyObject_imp (fun _ hmap => hmap.reference) hnormal
  definitions := get_eq_none_of_containsKey hnormal.1.definitions
  types := everyObject_imp (fun _ hmap => hmap.types) hnormal
  unions := by
    refine everyObject_imp (fun map hmap => ?_) hnormal
    rw [← shouldCollapse_iff, hmap.unions]
    exact Bool.false_ne_true

/-- A schema in normal form is left as it is. -/
theorem NormalForm.toPortable_eq
    {schema : JsonObject} (hnormal : NormalForm schema) (fuel : ℕ) :
    toPortable fuel schema = some schema := by
  have hkept : EveryObject (fun map => shouldCollapse map = false)
      (.obj schema) := by
    refine everyObject_imp (fun map hmap => ?_) hnormal.unions
    rw [← shouldCollapse_iff] at hmap
    simpa using hmap
  rw [toPortable, inlineDefs, hnormal.definitions]
  simp only [Option.bind_some, collapseNullableTypes_of_single hnormal.types,
    collapseScalarAnyOf_of_normal hkept]
  rfl

/-- The rewrite ends in a schema in normal form, which it leaves as it is. -/
theorem toPortable_normalizes
    {schema : JsonObject} (hschema : Inlinable schema) :
    ∃ portable, (∃ bound, ∀ fuel, bound ≤ fuel →
        toPortable fuel schema = some portable) ∧
      NormalForm portable ∧
      ∀ fuel, toPortable fuel portable = some portable := by
  obtain ⟨inlined, ⟨bound, hbound⟩, hresolved⟩ := hschema.exists_inlined
  have hnormal := normal_collapseScalarAnyOf
    (single_collapseNullableTypes hresolved)
  obtain ⟨portable, hportable⟩ : ∃ portable : JsonObject,
      collapseScalarAnyOf (collapseNullableTypes (.obj inlined)) =
        .obj portable := ⟨_, rfl⟩
  rw [hportable] at hnormal
  refine ⟨portable, ⟨bound, fun fuel hle => ?_⟩, .of_normal hnormal,
    (NormalForm.of_normal hnormal).toPortable_eq⟩
  rw [toPortable, hbound fuel hle, Option.bind_some, hportable]
  rfl

/-- Definitions of falling rank do not refer to each other in a circle. -/
theorem acyclic_of_references
    {defs : JsonObject} (rank : String → ℕ)
    (hrank : ∀ field ∈ defs, EveryObject (fun map => ∀ other,
      reference map = some (defsPrefix ++ other) → rank other < rank field.1)
      field.2) (name : String) :
    ¬ Relation.TransGen (RefersTo defs) name name := by
  refine acyclic_of_rank rank ?_ name
  rintro name other ⟨target, map, hget, hinside, href⟩
  exact everyObject_iff.mp (hrank _ (JsonObject.mem_of_get hget)) map hinside
    other href

namespace Sample

def referTo (name : String) : Json := .obj [("$ref", .str (defsPrefix ++ name))]

/-- The definition of an entry refers to that of its project. -/
def entry : Json :=
  .obj [("properties", .obj [
      ("comments", .obj [("type", .arr [.str "string", .str "null"])]),
      ("project_id", union [referTo "ProjectRef", ofType "null"])]),
    ("type", .str "object")]

def importDefs : JsonObject := [("Entry", entry), ("ProjectRef", projectRef)]

/-- A tool that takes an array of entries. -/
def importTool : JsonObject :=
  [("$defs", .obj importDefs),
    ("properties", .obj [("entries", .obj [
      ("items", referTo "Entry"), ("type", .str "array")])]),
    ("type", .str "object")]

def importRank (name : String) : ℕ := if name = "Entry" then 1 else 0

theorem refers_of_none
    {defs map : JsonObject} (hplain : reference map = none) : Refers defs map := by
  intro text htext
  rw [hplain] at htext
  cases htext

theorem refers_referTo {name : String} (hname : importDefs.containsKey name = true) :
    Refers importDefs [("$ref", .str (defsPrefix ++ name))] := by
  rintro _ ⟨⟩
  exact ⟨name, rfl, hname⟩

theorem inlinable_importTool : Inlinable importTool where
  definitions := by
    rintro _ ⟨⟩
    refine ⟨importDefs, rfl, ?_⟩
    simp [importDefs, entry, projectRef, union]
  atRoot := by
    simp [importTool, importDefs, entry, projectRef, projectId, referTo, union,
      ofType, EveryObject, EveryField, EveryItem, JsonObject.containsKey,
      JsonObject.get_cons]
  refers := by
    have hdefs : rootDefs importTool = importDefs := rfl
    have hentry := refers_referTo (show importDefs.containsKey "Entry" = true from rfl)
    have hproject :=
      refers_referTo (show importDefs.containsKey "ProjectRef" = true from rfl)
    rw [hdefs]
    simpa [importTool, importDefs, entry, projectRef, projectId, referTo, union,
      ofType, EveryObject, EveryField, EveryItem, refers_of_none, reference,
      JsonObject.get_cons] using And.intro hproject hentry
  acyclic := by
    refine acyclic_of_references importRank ?_
    simp [importTool, importDefs, rootDefs, entry, projectRef, projectId,
      referTo, union, ofType, EveryObject, EveryField, EveryItem, reference,
      JsonObject.get_cons, Json.asStr, importRank]
  types := by
    simp [importTool, importDefs, entry, projectRef, projectId, referTo, union,
      ofType, EveryObject, EveryField, EveryItem, TypesAreStrings]

theorem importTool_normalizes :
    ∃ portable, (∃ bound, ∀ fuel, bound ≤ fuel →
        toPortable fuel importTool = some portable) ∧
      NormalForm portable ∧
      ∀ fuel, toPortable fuel portable = some portable :=
  toPortable_normalizes inlinable_importTool

end Sample

end PortableSchema

end RuprogressMcp
