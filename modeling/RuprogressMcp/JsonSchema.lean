import RuprogressMcp.JsonValue

/-!
# Validation against a JSON Schema

The schemas made of the keywords `type`, `properties`, `required`,
`additionalProperties`, `items`, `enum`, `anyOf`, `minimum`, `maximum`,
`description` and `$ref` into the definitions of the root.  Every keyword is
positive in the schemas below it, so an instance that is valid stays valid
when the schema is followed further down, and a schema that is rewritten place
by place to narrower ones is narrower itself.
-/

namespace JsonSchema

/-! ## Equality and types of instances -/

section Validation

variable (reading : String → ℚ)

/-- The value of a number; `reading` is the value of a floating point text. -/
def value : JsonNumber → ℚ
  | .posInt n => n.toNat
  | .negInt n => n.toInt
  | .float text => reading text

mutual

/-- Equality of instances: numbers are compared by value. -/
def Same : Json → Json → Prop
  | .null, .null => True
  | .bool a, .bool b => a = b
  | .num a, .num b => value reading a = value reading b
  | .str a, .str b => a = b
  | .arr a, .arr b => SameItems a b
  | .obj a, .obj b => SameFields a b
  | _, _ => False

def SameItems : List Json → List Json → Prop
  | [], [] => True
  | a :: as, b :: bs => Same a b ∧ SameItems as bs
  | _, _ => False

def SameFields : JsonObject → JsonObject → Prop
  | [], [] => True
  | (k, a) :: as, (l, b) :: bs => k = l ∧ Same a b ∧ SameFields as bs
  | _, _ => False

end

def HasType (name : String) : Json → Prop
  | .null => name = "null"
  | .bool _ => name = "boolean"
  | .num n => name = "number" ∨ name = "integer" ∧ (value reading n).den = 1
  | .str _ => name = "string"
  | .arr _ => name = "array"
  | .obj _ => name = "object"

/-- The keyword `type` with one name or with several. -/
def AllowsType : Json → Json → Prop
  | .str name, x => HasType reading name x
  | .arr names, x => ∃ name, .str name ∈ names ∧ HasType reading name x
  | _, _ => True

/-! ## The keywords -/

/-- The definition that a reference names. -/
def definition (defs : JsonObject) (reference : String) : Option Json :=
  (reference.toList.dropPrefix? "#/$defs/".toList).bind fun name =>
    defs.get (String.ofList name)

/-- The property has a schema of its own. -/
def Named (fields : JsonObject) (name : String) : Prop :=
  ∃ named : JsonObject, fields.get "properties" = some (.obj named) ∧
    named.containsKey name = true

/-- The instance meets every keyword of the schema, where `valid` says what
meets the schemas below it. -/
structure Meets (valid : Json → Json → Prop) (defs fields : JsonObject)
    (x : Json) : Prop where
  type : ∀ t, fields.get "type" = some t → AllowsType reading t x
  enum : ∀ values, fields.get "enum" = some (.arr values) →
    ∃ listed ∈ values, Same reading listed x
  minimum : ∀ bound n, fields.get "minimum" = some (.num bound) →
    x = .num n → value reading bound ≤ value reading n
  maximum : ∀ bound n, fields.get "maximum" = some (.num bound) →
    x = .num n → value reading n ≤ value reading bound
  required : ∀ (names : List Json) (members : JsonObject) (name : String),
    fields.get "required" = some (.arr names) → x = .obj members →
    .str name ∈ names → members.containsKey name = true
  properties : ∀ (named members : JsonObject) (name : String) (s y : Json),
    fields.get "properties" = some (.obj named) → x = .obj members →
    (name, y) ∈ members → named.get name = some s → valid s y
  additionalProperties : ∀ s members name y,
    fields.get "additionalProperties" = some s → x = .obj members →
    (name, y) ∈ members → ¬ Named fields name → valid s y
  items : ∀ s elements y, fields.get "items" = some s → x = .arr elements →
    y ∈ elements → valid s y
  anyOf : ∀ branches, fields.get "anyOf" = some (.arr branches) →
    ∃ branch ∈ branches, valid branch x
  ref : ∀ reference, fields.get "$ref" = some (.str reference) →
    ∃ target, definition defs reference = some target ∧ valid target x

/-- The instance is valid when the schema is followed this far down. -/
def ValidWithin (defs : JsonObject) : ℕ → Json → Json → Prop
  | _ + 1, .bool b, _ => b = true
  | depth + 1, .obj fields, x =>
      Meets reading (ValidWithin defs depth) defs fields x
  | _, _, _ => False

def Validates (defs : JsonObject) (s x : Json) : Prop :=
  ∃ depth, ValidWithin reading defs depth s x

/-- The definitions at the root of a schema. -/
def rootDefs (schema : JsonObject) : JsonObject :=
  match schema.get "$defs" with
  | some (.obj defs) => defs
  | _ => []

/-- The instance validates against the whole schema. -/
def Accepts (schema : JsonObject) (x : Json) : Prop :=
  Validates reading (rootDefs schema) (.obj schema) x

end Validation

/-! ## Following the schema further down -/

variable {reading : String → ℚ} {defs : JsonObject}

theorem Meets.mono
    {valid wider : Json → Json → Prop} {fields : JsonObject} {x : Json}
    (hwider : ∀ s y, valid s y → wider s y)
    (hmeets : Meets reading valid defs fields x) :
    Meets reading wider defs fields x where
  type := hmeets.type
  enum := hmeets.enum
  minimum := hmeets.minimum
  maximum := hmeets.maximum
  required := hmeets.required
  properties named members name s y hget hx hmem hnamed :=
    hwider s y (hmeets.properties named members name s y hget hx hmem hnamed)
  additionalProperties s members name y hget hx hmem hnamed :=
    hwider s y (hmeets.additionalProperties s members name y hget hx hmem hnamed)
  items s elements y hget hx hmem :=
    hwider s y (hmeets.items s elements y hget hx hmem)
  anyOf := by
    intro branches hget
    obtain ⟨branch, hmem, hvalid⟩ := hmeets.anyOf branches hget
    exact ⟨branch, hmem, hwider branch x hvalid⟩
  ref := by
    intro reference hget
    obtain ⟨target, htarget, hvalid⟩ := hmeets.ref reference hget
    exact ⟨target, htarget, hwider target x hvalid⟩

/-- Only the keywords are read. -/
theorem Meets.congr
    {valid : Json → Json → Prop} (fields : JsonObject) {other : JsonObject}
    {x : Json}
    (hget : ∀ key, key ≠ "description" → key ≠ "$defs" →
      other.get key = fields.get key)
    (hmeets : Meets reading valid defs fields x) :
    Meets reading valid defs other x := by
  obtain ⟨htype, henum, hmin, hmax, hrequired, hproperties, hadditional, hitems,
    hanyOf, href⟩ := hmeets
  have hnamed (name : String) : Named other name ↔ Named fields name := by
    unfold Named
    rw [hget "properties" (by decide) (by decide)]
  constructor
  · rwa [hget "type" (by decide) (by decide)]
  · rwa [hget "enum" (by decide) (by decide)]
  · rwa [hget "minimum" (by decide) (by decide)]
  · rwa [hget "maximum" (by decide) (by decide)]
  · rwa [hget "required" (by decide) (by decide)]
  · rwa [hget "properties" (by decide) (by decide)]
  · simp only [hnamed]
    rwa [hget "additionalProperties" (by decide) (by decide)]
  · rwa [hget "items" (by decide) (by decide)]
  · rwa [hget "anyOf" (by decide) (by decide)]
  · rwa [hget "$ref" (by decide) (by decide)]

/-- A reference with nothing but a description beside it. -/
theorem Meets.of_ref
    {valid : Json → Json → Prop} {fields : JsonObject} {reference : String}
    {target x : Json} (href : fields.get "$ref" = some (.str reference))
    (hbeside : ∀ key, key ≠ "$ref" → key ≠ "description" →
      fields.get key = none)
    (htarget : definition defs reference = some target)
    (hvalid : valid target x) : Meets reading valid defs fields x := by
  constructor
  · simp [hbeside "type" (by decide) (by decide)]
  · simp [hbeside "enum" (by decide) (by decide)]
  · simp [hbeside "minimum" (by decide) (by decide)]
  · simp [hbeside "maximum" (by decide) (by decide)]
  · simp [hbeside "required" (by decide) (by decide)]
  · simp [hbeside "properties" (by decide) (by decide)]
  · simp [hbeside "additionalProperties" (by decide) (by decide)]
  · simp [hbeside "items" (by decide) (by decide)]
  · simp [hbeside "anyOf" (by decide) (by decide)]
  · intro other hother
    rw [href, Option.some.injEq, Json.str.injEq] at hother
    exact ⟨target, hother ▸ htarget, hvalid⟩

/-- Four keywords say something about a text. -/
theorem Meets.of_str
    {valid : Json → Json → Prop} {fields : JsonObject} {text : String}
    (htype : ∀ t, fields.get "type" = some t →
      AllowsType reading t (.str text))
    (henum : ∀ values, fields.get "enum" = some (.arr values) →
      ∃ listed ∈ values, Same reading listed (.str text))
    (hanyOf : ∀ branches, fields.get "anyOf" = some (.arr branches) →
      ∃ branch ∈ branches, valid branch (.str text))
    (href : ∀ reference, fields.get "$ref" = some (.str reference) →
      ∃ target, definition defs reference = some target ∧
        valid target (.str text)) :
    Meets reading valid defs fields (.str text) where
  type := htype
  enum := henum
  minimum := by simp
  maximum := by simp
  required := by simp
  properties := by simp
  additionalProperties := by simp
  items := by simp
  anyOf := hanyOf
  ref := href

theorem ValidWithin.succ
    {depth : ℕ} {s x : Json} (hvalid : ValidWithin reading defs depth s x) :
    ValidWithin reading defs (depth + 1) s x := by
  induction depth generalizing s x with
  | zero => simp [ValidWithin] at hvalid
  | succ depth ih =>
      cases s with
      | bool b => exact hvalid
      | obj fields => exact Meets.mono (fun s y hy => ih hy) hvalid
      | null | num _ | str _ | arr _ => simp [ValidWithin] at hvalid

theorem ValidWithin.mono
    {depth further : ℕ} {s x : Json} (hle : depth ≤ further)
    (hvalid : ValidWithin reading defs depth s x) :
    ValidWithin reading defs further s x := by
  induction further, hle using Nat.le_induction with
  | base => exact hvalid
  | succ further _ ih => exact ih.succ

/-- Finitely many bounds have a common one. -/
theorem exists_common_bound
    {α : Type*} {P : ℕ → α → Prop}
    (hmono : ∀ m n a, m ≤ n → P m a → P n a) (l : List α)
    (hbounded : ∀ a ∈ l, ∃ n, P n a) : ∃ n, ∀ a ∈ l, P n a := by
  induction l with
  | nil => exact ⟨0, by simp⟩
  | cons a l ih =>
      obtain ⟨m, hm⟩ := hbounded a List.mem_cons_self
      obtain ⟨n, hn⟩ := ih fun b hb => hbounded b (List.mem_cons_of_mem a hb)
      refine ⟨max m n, ?_⟩
      intro b hb
      rcases List.mem_cons.mp hb with rfl | hb
      · exact hmono m _ b (le_max_left m n) hm
      · exact hmono n _ b (le_max_right m n) (hn b hb)

theorem exists_depth
    {y : Json} (o : Option Json)
    (hvalid : ∀ s, o = some s → Validates reading defs s y) :
    ∃ depth, ∀ s, o = some s → ValidWithin reading defs depth s y := by
  cases o with
  | none => exact ⟨0, by simp⟩
  | some s =>
      obtain ⟨depth, hdepth⟩ := hvalid s rfl
      refine ⟨depth, ?_⟩
      rintro _ ⟨⟩
      exact hdepth

theorem exists_depth_properties
    {fields members : JsonObject}
    (hmeets : Meets reading (Validates reading defs) defs fields
      (.obj members)) :
    ∃ depth, ∀ member ∈ members, ∀ (named : JsonObject) (s : Json),
      fields.get "properties" = some (.obj named) →
      named.get member.1 = some s →
      ValidWithin reading defs depth s member.2 := by
  apply exists_common_bound
  · intro m n member hle hm named s hget hnamed
    exact (hm named s hget hnamed).mono hle
  rintro ⟨name, y⟩ hmem
  by_cases hproperties : ∃ named : JsonObject,
      fields.get "properties" = some (.obj named)
  · obtain ⟨named, hget⟩ := hproperties
    obtain ⟨depth, hdepth⟩ := exists_depth (named.get name) fun s hnamed =>
      hmeets.properties named members name s y hget rfl hmem hnamed
    refine ⟨depth, ?_⟩
    intro other s hother hnamed
    rw [hget, Option.some.injEq, Json.obj.injEq] at hother
    subst hother
    exact hdepth s hnamed
  · exact ⟨0, fun named s hget => absurd ⟨named, hget⟩ hproperties⟩

theorem exists_depth_additionalProperties
    {fields members : JsonObject}
    (hmeets : Meets reading (Validates reading defs) defs fields
      (.obj members)) :
    ∃ depth, ∀ member ∈ members, ∀ s,
      fields.get "additionalProperties" = some s → ¬ Named fields member.1 →
      ValidWithin reading defs depth s member.2 := by
  apply exists_common_bound
  · intro m n member hle hm s hget hnamed
    exact (hm s hget hnamed).mono hle
  rintro ⟨name, y⟩ hmem
  by_cases hnamed : Named fields name
  · exact ⟨0, fun s _ hnot => absurd hnamed hnot⟩
  · obtain ⟨depth, hdepth⟩ := exists_depth (fields.get "additionalProperties")
      fun s hget =>
        hmeets.additionalProperties s members name y hget rfl hmem hnamed
    exact ⟨depth, fun s hget _ => hdepth s hget⟩

theorem exists_depth_items
    {fields : JsonObject} {elements : List Json}
    (hmeets : Meets reading (Validates reading defs) defs fields
      (.arr elements)) :
    ∃ depth, ∀ y ∈ elements, ∀ s, fields.get "items" = some s →
      ValidWithin reading defs depth s y := by
  apply exists_common_bound
  · intro m n y hle hm s hget
    exact (hm s hget).mono hle
  intro y hmem
  exact exists_depth (fields.get "items") fun s hget =>
    hmeets.items s elements y hget rfl hmem

theorem exists_depth_anyOf
    {fields : JsonObject} {x : Json}
    (hmeets : Meets reading (Validates reading defs) defs fields x) :
    ∃ depth, ∀ branches, fields.get "anyOf" = some (.arr branches) →
      ∃ branch ∈ branches, ValidWithin reading defs depth branch x := by
  by_cases hanyOf : ∃ branches, fields.get "anyOf" = some (.arr branches)
  · obtain ⟨branches, hget⟩ := hanyOf
    obtain ⟨branch, hmem, depth, hdepth⟩ := hmeets.anyOf branches hget
    refine ⟨depth, ?_⟩
    intro others hothers
    rw [hget, Option.some.injEq, Json.arr.injEq] at hothers
    exact ⟨branch, hothers ▸ hmem, hdepth⟩
  · exact ⟨0, fun branches hget => absurd ⟨branches, hget⟩ hanyOf⟩

theorem exists_depth_ref
    {fields : JsonObject} {x : Json}
    (hmeets : Meets reading (Validates reading defs) defs fields x) :
    ∃ depth, ∀ reference, fields.get "$ref" = some (.str reference) →
      ∃ target, definition defs reference = some target ∧
        ValidWithin reading defs depth target x := by
  by_cases href : ∃ reference, fields.get "$ref" = some (.str reference)
  · obtain ⟨reference, hget⟩ := href
    obtain ⟨target, htarget, depth, hdepth⟩ := hmeets.ref reference hget
    refine ⟨depth, ?_⟩
    intro other hother
    rw [hget, Option.some.injEq, Json.str.injEq] at hother
    exact ⟨target, hother ▸ htarget, hdepth⟩
  · exact ⟨0, fun reference hget => absurd ⟨reference, hget⟩ href⟩

theorem exists_depth_members
    {fields : JsonObject} {x : Json}
    (hmeets : Meets reading (Validates reading defs) defs fields x) :
    ∃ depth, ∀ members, x = .obj members → ∀ member ∈ members,
      (∀ (named : JsonObject) (s : Json),
        fields.get "properties" = some (.obj named) →
        named.get member.1 = some s →
        ValidWithin reading defs depth s member.2) ∧
      ∀ s, fields.get "additionalProperties" = some s →
        ¬ Named fields member.1 →
        ValidWithin reading defs depth s member.2 := by
  by_cases hx : ∃ members, x = .obj members
  · obtain ⟨members, rfl⟩ := hx
    obtain ⟨m, hm⟩ := exists_depth_properties hmeets
    obtain ⟨n, hn⟩ := exists_depth_additionalProperties hmeets
    refine ⟨max m n, ?_⟩
    rintro _ ⟨⟩ member hmem
    refine ⟨?_, ?_⟩
    · intro named s hget hnamed
      exact (hm member hmem named s hget hnamed).mono (le_max_left m n)
    · intro s hget hnamed
      exact (hn member hmem s hget hnamed).mono (le_max_right m n)
  · exact ⟨0, fun members hobj => absurd ⟨members, hobj⟩ hx⟩

theorem exists_depth_elements
    {fields : JsonObject} {x : Json}
    (hmeets : Meets reading (Validates reading defs) defs fields x) :
    ∃ depth, ∀ elements, x = .arr elements → ∀ y ∈ elements, ∀ s,
      fields.get "items" = some s → ValidWithin reading defs depth s y := by
  by_cases hx : ∃ elements, x = .arr elements
  · obtain ⟨elements, rfl⟩ := hx
    obtain ⟨depth, hdepth⟩ := exists_depth_items hmeets
    refine ⟨depth, ?_⟩
    rintro _ ⟨⟩
    exact hdepth
  · exact ⟨0, fun elements harr => absurd ⟨elements, harr⟩ hx⟩

/-- Validity is what the keywords say it is. -/
theorem validates_obj_iff
    {fields : JsonObject} {x : Json} :
    Validates reading defs (.obj fields) x ↔
      Meets reading (Validates reading defs) defs fields x := by
  constructor
  · rintro ⟨depth, hvalid⟩
    cases depth with
    | zero => simp [ValidWithin] at hvalid
    | succ depth => exact Meets.mono (fun s y hy => ⟨depth, hy⟩) hvalid
  · intro hmeets
    obtain ⟨a, hmembers⟩ := exists_depth_members hmeets
    obtain ⟨b, helements⟩ := exists_depth_elements hmeets
    obtain ⟨c, hanyOf⟩ := exists_depth_anyOf hmeets
    obtain ⟨d, href⟩ := exists_depth_ref hmeets
    refine ⟨a + b + c + d + 1, ?_⟩
    exact {
      hmeets with
      properties := fun named members name s y hget hx hmem hnamed =>
        ((hmembers members hx (name, y) hmem).1 named s hget hnamed).mono
          (by omega)
      additionalProperties := fun s members name y hget hx hmem hnamed =>
        ((hmembers members hx (name, y) hmem).2 s hget hnamed).mono (by omega)
      items := fun s elements y hget hx hmem =>
        (helements elements hx y hmem s hget).mono (by omega)
      anyOf := fun branches hget =>
        (hanyOf branches hget).imp fun branch hbranch =>
          ⟨hbranch.1, hbranch.2.mono (by omega)⟩
      ref := fun reference hget =>
        (href reference hget).imp fun target htarget =>
          ⟨htarget.1, htarget.2.mono (by omega)⟩ }

@[simp] theorem validates_bool_iff {b : Bool} {x : Json} :
    Validates reading defs (.bool b) x ↔ b = true := by
  constructor
  · rintro ⟨depth, hvalid⟩
    cases depth with
    | zero => simp [ValidWithin] at hvalid
    | succ depth => exact hvalid
  · intro hb
    exact ⟨1, hb⟩

end JsonSchema
