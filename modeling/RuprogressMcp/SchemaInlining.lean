import RuprogressMcp.PortableSchema

/-!
# Inlining the definitions of a schema

The walk that puts definitions in the place of references ends, because no
chain of references runs on for ever, and what it leaves is a schema without
references that accepts no more than the one it started from.
-/

namespace RuprogressMcp

namespace PortableSchema

open JsonSchema

/-- No `type` is one name or null. -/
def NoNullableType (map : JsonObject) : Prop :=
  ∀ a b, ("type", .arr [a, b]) ∈ map → isNull a = isNull b

/-- No object inside the value is one that a walk acts on: it has no reference,
no nullable `type` and no union that is collapsed. -/
def Inert (x : Json) : Prop :=
  EveryObject (fun map => reference map = none ∧ NoNullableType map ∧
    shouldCollapse map = false) x

theorem Inert.of_mem_arr
    {items : List Json} (hinert : Inert (.arr items)) {x : Json}
    (hmem : x ∈ items) : Inert x :=
  everyItem_iff.mp hinert x hmem

theorem Inert.of_mem_obj
    {fields : JsonObject} (hinert : Inert (.obj fields)) {field : String × Json}
    (hmem : field ∈ fields) : Inert field.2 :=
  everyField_iff.mp hinert.2 field hmem

/-- The second schema needs no definitions and accepts no more than the
first. -/
structure Narrower (reading : String → ℚ) (defs : JsonObject) (s t : Json) :
    Prop where
  schema : IsSchema Inert [] t
  valid : ∀ x, Validates reading [] t x → Validates reading defs s x

theorem Narrower.keyword
    {reading : String → ℚ} {defs : JsonObject} {key : String} {y : Json}
    (hkeyword : Keyword Inert (fun t => ∃ s, Narrower reading defs s t) key y) :
    Keyword Inert (IsSchema Inert []) key y :=
  hkeyword.imp fun _ ht => ht.elim fun _ hst => hst.schema

/-! ## Inlining -/

/-- With enough fuel the walk ends with this value. -/
def Resolves (defs : JsonObject) (x y : Json) : Prop :=
  ∃ fuel, resolveRefs defs fuel x = some y

theorem resolveRefs_arr_iff
    {defs : JsonObject} {fuel : ℕ} {items : List Json} {y : Json} :
    resolveRefs defs (fuel + 1) (.arr items) = some y ↔
      ∃ others, List.Forall₂ (fun a b => resolveRefs defs fuel a = some b)
        items others ∧ .arr others = y := by
  simp only [resolveRefs, Option.map_eq_some_iff, mapM_eq_some_iff]

theorem resolveField_eq_some_iff
    {resolve : Json → Option Json} {field other : String × Json} :
    resolveField resolve field = some other ↔
      other.1 = field.1 ∧ resolve field.2 = some other.2 := by
  obtain ⟨k, x⟩ := field
  obtain ⟨l, y⟩ := other
  simp only [resolveField, Option.map_eq_some_iff, Prod.mk.injEq]
  constructor
  · rintro ⟨z, hz, rfl, rfl⟩
    exact ⟨rfl, hz⟩
  · rintro ⟨rfl, hy⟩
    exact ⟨y, hy, rfl, rfl⟩

theorem resolveRefs_obj_iff
    {defs map : JsonObject} {fuel : ℕ} {y : Json} (hplain : reference map = none) :
    resolveRefs defs (fuel + 1) (.obj map) = some y ↔
      ∃ others, FieldsRel (fun _ a b => resolveRefs defs fuel a = some b)
        map others ∧ .obj others = y := by
  simp only [resolveRefs, hplain, Option.map_eq_some_iff, mapM_eq_some_iff,
    resolveField_eq_some_iff, FieldsRel]

theorem resolveRefs_ref
    {defs map : JsonObject} {fuel : ℕ} {text : String} {target : Json}
    (href : reference map = some text)
    (htarget : definition defs text = some target) :
    resolveRefs defs (fuel + 1) (.obj map) =
      resolveRefs defs fuel (withSiblings (map.remove "$ref") target) := by
  simp only [resolveRefs, href, htarget]

theorem resolveRefs_succ
    {defs : JsonObject} {fuel : ℕ} {x y : Json}
    (hresolve : resolveRefs defs fuel x = some y) :
    resolveRefs defs (fuel + 1) x = some y := by
  induction fuel generalizing x y with
  | zero => simp [resolveRefs] at hresolve
  | succ fuel ih =>
      cases x with
      | null | bool _ | num _ | str _ => exact hresolve
      | arr items =>
          obtain ⟨others, hitems, rfl⟩ := resolveRefs_arr_iff.mp hresolve
          exact resolveRefs_arr_iff.mpr
            ⟨others, hitems.imp fun _ _ hab => ih hab, rfl⟩
      | obj map =>
          cases href : reference map with
          | none =>
              obtain ⟨others, hfields, rfl⟩ :=
                (resolveRefs_obj_iff href).mp hresolve
              exact (resolveRefs_obj_iff href).mpr
                ⟨others, hfields.imp_of_mem fun _ _ _ _ hab => ih hab, rfl⟩
          | some text =>
              cases htarget : definition defs text with
              | none =>
                  simp only [resolveRefs, href, htarget] at hresolve ⊢
                  exact hresolve
              | some target =>
                  rw [resolveRefs_ref href htarget] at hresolve ⊢
                  exact ih hresolve

theorem resolveRefs_mono
    {defs : JsonObject} {fuel more : ℕ} {x y : Json} (hle : fuel ≤ more)
    (hresolve : resolveRefs defs fuel x = some y) :
    resolveRefs defs more x = some y := by
  induction more, hle using Nat.le_induction with
  | base => exact hresolve
  | succ more _ ih => exact resolveRefs_succ ih

theorem resolves_arr
    {defs : JsonObject} {items others : List Json}
    (hitems : List.Forall₂ (Resolves defs) items others) :
    Resolves defs (.arr items) (.arr others) := by
  obtain ⟨fuel, hfuel⟩ := exists_bound_forall₂
    (fun fuel a b => resolveRefs defs fuel a = some b)
    (fun _ _ _ _ hle hab => resolveRefs_mono hle hab) hitems
  exact ⟨fuel + 1, resolveRefs_arr_iff.mpr ⟨others, hfuel, rfl⟩⟩

theorem resolves_obj
    {defs map others : JsonObject} (hplain : reference map = none)
    (hfields : FieldsRel (fun _ => Resolves defs) map others) :
    Resolves defs (.obj map) (.obj others) := by
  obtain ⟨fuel, hfuel⟩ := exists_bound_forall₂
    (fun fuel (a b : String × Json) =>
      b.1 = a.1 ∧ resolveRefs defs fuel a.2 = some b.2)
    (fun _ _ _ _ hle hab => ⟨hab.1, resolveRefs_mono hle hab.2⟩)
    (hfields.imp fun a b hab => hab.2.imp fun fuel hfuel => ⟨hab.1, hfuel⟩)
  exact ⟨fuel + 1, (resolveRefs_obj_iff hplain).mpr ⟨others, hfuel, rfl⟩⟩

theorem resolves_ref
    {defs map : JsonObject} {text : String} {target y : Json}
    (href : reference map = some text)
    (htarget : definition defs text = some target)
    (hresolves : Resolves defs (withSiblings (map.remove "$ref") target) y) :
    Resolves defs (.obj map) y := by
  obtain ⟨fuel, hfuel⟩ := hresolves
  exact ⟨fuel + 1, (resolveRefs_ref href htarget).trans hfuel⟩

/-- A property may be called `$ref`, but its value is then no text. -/
theorem reference_eq_none_of_place
    {fields : JsonObject} (hplace : ∀ field ∈ fields, IsPlace field.2) :
    reference fields = none := by
  unfold reference
  cases hget : fields.get "$ref" with
  | none => rfl
  | some x =>
      have hx := hplace _ (JsonObject.mem_of_get hget)
      cases x with
      | bool _ | obj _ => rfl
      | null | num _ | str _ | arr _ => exact hx.elim

theorem resolveRefs_unique
    {defs : JsonObject} {fuel more : ℕ} {x y z : Json}
    (hy : resolveRefs defs fuel x = some y)
    (hz : resolveRefs defs more x = some z) : y = z := by
  have hleft := resolveRefs_mono (le_max_left fuel more) hy
  have hright := resolveRefs_mono (le_max_right fuel more) hz
  exact Option.some.inj (hleft.symm.trans hright)

theorem walks_resolves (defs : JsonObject) : Walks Inert (Resolves defs) where
  str text := ⟨1, rfl⟩
  num n := ⟨1, rfl⟩
  listed x := by
    induction x using json_induct with
    | hnull | hbool _ | hnum _ | hstr _ => exact fun _ => ⟨1, rfl⟩
    | harr items ih =>
        intro hinert
        apply resolves_arr
        exact List.forall₂_same.mpr fun x hx =>
          ih x hx (hinert.of_mem_arr hx)
    | hobj fields ih =>
        intro hinert
        apply resolves_obj
        · exact hinert.1.1
        · exact List.forall₂_same.mpr fun field hfield =>
            ⟨rfl, ih field hfield (hinert.of_mem_obj hfield)⟩
  arr _ _ := resolves_arr
  obj _ _ hplace := resolves_obj (reference_eq_none_of_place hplace)

/-- The keys that may stand beside a reference. -/
def Described (siblings : JsonObject) : Prop :=
  ∀ key x, (key, x) ∈ siblings → key = "description" ∧ ∃ text, x = .str text

theorem mem_insertAll
    {siblings map : JsonObject} {field : String × Json}
    (hmem : field ∈ insertAll siblings map) :
    field ∈ siblings ∨ field ∈ map := by
  induction siblings generalizing map with
  | nil => exact Or.inr hmem
  | cons sibling siblings ih =>
      rcases ih hmem with htail | hmap
      · exact Or.inl (List.mem_cons_of_mem _ htail)
      · rcases JsonObject.mem_insert hmap with rfl | hold
        · exact Or.inl List.mem_cons_self
        · exact Or.inr hold

theorem Described.get_insertAll
    {siblings map : JsonObject} {key : String} (hdescribed : Described siblings)
    (hkey : key ≠ "description") :
    (insertAll siblings map).get key = map.get key := by
  induction siblings generalizing map with
  | nil => rfl
  | cons sibling siblings ih =>
      have hhead := hdescribed sibling.1 sibling.2 List.mem_cons_self
      have htail : Described siblings := fun k x hmem =>
        hdescribed k x (List.mem_cons_of_mem _ hmem)
      have hne : key ≠ sibling.1 := fun heq => hkey (heq.trans hhead.1)
      calc (insertAll (sibling :: siblings) map).get key
          = (map.insert sibling.1 sibling.2).get key := ih htail
        _ = map.get key := by rw [JsonObject.get_insert, if_neg hne]

theorem Described.keyword_insertAll
    {listed sub : Json → Prop} {siblings fields : JsonObject}
    (hdescribed : Described siblings)
    (hfields : ∀ key x, (key, x) ∈ fields → Keyword listed sub key x) :
    ∀ key x, (key, x) ∈ insertAll siblings fields →
      Keyword listed sub key x := by
  intro key x hmem
  rcases mem_insertAll hmem with hsibling | hfield
  · obtain ⟨rfl, text, rfl⟩ := hdescribed key x hsibling
    exact .description text
  · exact hfields key x hfield

theorem reference_eq_none_of_keyword
    {listed sub : Json → Prop} {fields : JsonObject}
    (hfields : ∀ key x, (key, x) ∈ fields → Keyword listed sub key x) :
    reference fields = none := by
  unfold reference
  cases hget : fields.get "$ref" with
  | none => rfl
  | some x =>
      exact absurd rfl (hfields _ x (JsonObject.mem_of_get hget)).ne_ref.1

theorem withSiblings_nil (x : Json) : withSiblings [] x = x := by
  cases x <;> rfl

/-- Inlining ends and narrows the schema. -/
theorem inlining_narrows
    (reading : String → ℚ) {defs : JsonObject} {s : Json}
    (hschema : IsSchema Inert defs s) :
    ∀ siblings, Described siblings → ∃ t,
      Resolves defs (withSiblings siblings s) t ∧
        Narrower reading defs s t := by
  refine IsSchema.induct ?_ ?_ ?_ hschema
  · intro b siblings _
    exact ⟨.bool b, ⟨1, rfl⟩, .bool b, by simp⟩
  · intro fields text target href htarget hbeside _ ih siblings hdescribed
    have hrest : Described ((insertAll siblings fields).remove "$ref") := by
      intro key x hmem
      obtain ⟨hmem, hkey⟩ := List.mem_filter.mp hmem
      rcases mem_insertAll hmem with hsibling | hfield
      · exact hdescribed key x hsibling
      · exact hbeside key x hfield (by simpa using hkey)
    have htext : reference (insertAll siblings fields) = some text := by
      rw [reference, hdescribed.get_insertAll (by decide), href]
      rfl
    obtain ⟨t, hresolves, hplain, hvalid⟩ := ih _ hrest
    refine ⟨t, resolves_ref htext htarget hresolves, hplain, ?_⟩
    intro x hx
    refine validates_obj_iff.mpr
      (Meets.of_ref href ?_ htarget (hvalid x hx))
    intro key href hdescription
    cases hget : fields.get key with
    | none => rfl
    | some y =>
        exact absurd (hbeside key y (JsonObject.mem_of_get hget) href).1
          hdescription
  · intro fields hfields siblings hdescribed
    have hkeywords := hdescribed.keyword_insertAll hfields
    have hplain := reference_eq_none_of_keyword hkeywords
    obtain ⟨others, hresolves, hnarrowed, hothers⟩ := exists_narrowed
      (Narrower reading defs) (walks_resolves defs) (fun s hs => hs.1.isPlace)
      (fun s hs => by
        simpa only [withSiblings_nil] using hs.2 [] (by simp [Described]))
      hkeywords
    refine ⟨.obj others, resolves_obj hplain hresolves, .object others ?_, ?_⟩
    · intro key y hmem
      exact Narrower.keyword (hothers key y hmem)
    · intro x hx
      refine validates_obj_iff.mpr ?_
      refine Meets.congr (insertAll siblings fields) ?_ ?_
      · exact fun key hdescription _ =>
          (hdescribed.get_insertAll hdescription).symm
      · exact Meets.of_narrowed hnarrowed (fun s t y hst => hst.valid y)
          (validates_obj_iff.mp hx)

end PortableSchema

end RuprogressMcp
