import RuprogressMcp.JsonSchema

/-!
# Rewriting a schema to a narrower one

The grammar of the schemas that `JsonSchema` reads, and the relation between
two of them that differ place by place.  When each place of the second is
narrower than its place in the first, every instance of the second is an
instance of the first.
-/

namespace JsonSchema

/-! ## Objects inside a value -/

mutual

/-- Every object inside the value has the property. -/
def EveryObject (p : JsonObject → Prop) : Json → Prop
  | .obj fields => p fields ∧ EveryField p fields
  | .arr items => EveryItem p items
  | _ => True

def EveryItem (p : JsonObject → Prop) : List Json → Prop
  | [] => True
  | item :: rest => EveryObject p item ∧ EveryItem p rest

def EveryField (p : JsonObject → Prop) : JsonObject → Prop
  | [] => True
  | (_, value) :: rest => EveryObject p value ∧ EveryField p rest

end

theorem everyItem_iff {p : JsonObject → Prop} {items : List Json} :
    EveryItem p items ↔ ∀ item ∈ items, EveryObject p item := by
  induction items with
  | nil => simp [EveryItem]
  | cons item rest ih => simp [EveryItem, ih]

theorem everyField_iff {p : JsonObject → Prop} {fields : JsonObject} :
    EveryField p fields ↔ ∀ field ∈ fields, EveryObject p field.2 := by
  induction fields with
  | nil => simp [EveryField]
  | cons field rest ih => simp [EveryField, ih]

/-! ## The grammar -/

/-- A keyword with a value of its shape, where `sub` says which values are
schemas and `listed` which ones an `enum` lists. -/
inductive Keyword (listed sub : Json → Prop) : String → Json → Prop
  | typeName (name : String) : Keyword listed sub "type" (.str name)
  | typeNames (names : List String) :
      Keyword listed sub "type" (.arr (names.map .str))
  | enum (values : List Json) (hlisted : ∀ x ∈ values, listed x) :
      Keyword listed sub "enum" (.arr values)
  | minimum (bound : JsonNumber) : Keyword listed sub "minimum" (.num bound)
  | maximum (bound : JsonNumber) : Keyword listed sub "maximum" (.num bound)
  | required (names : List String) :
      Keyword listed sub "required" (.arr (names.map .str))
  | description (text : String) : Keyword listed sub "description" (.str text)
  | properties (named : JsonObject) (hnamed : ∀ field ∈ named, sub field.2) :
      Keyword listed sub "properties" (.obj named)
  | additionalProperties (s : Json) (hs : sub s) :
      Keyword listed sub "additionalProperties" s
  | items (s : Json) (hs : sub s) : Keyword listed sub "items" s
  | anyOf (branches : List Json) (hbranches : ∀ s ∈ branches, sub s) :
      Keyword listed sub "anyOf" (.arr branches)

/-- A schema: references name a definition that is a schema itself, so no
chain of them runs on for ever, and have at most a description beside them. -/
inductive IsSchema (listed : Json → Prop) (defs : JsonObject) : Json → Prop
  | bool (b : Bool) : IsSchema listed defs (.bool b)
  | ref (fields : JsonObject) (reference : String) (target : Json)
      (href : fields.get "$ref" = some (.str reference))
      (htarget : definition defs reference = some target)
      (hbeside : ∀ key x, (key, x) ∈ fields → key ≠ "$ref" →
        key = "description" ∧ ∃ text, x = .str text)
      (hschema : IsSchema listed defs target) : IsSchema listed defs (.obj fields)
  | object (fields : JsonObject)
      (hfields : ∀ key x, (key, x) ∈ fields →
        Keyword listed (IsSchema listed defs) key x) :
      IsSchema listed defs (.obj fields)

/-- A whole schema with its definitions at the root. -/
structure IsRootSchema (listed : Json → Prop) (schema : JsonObject) : Prop where
  defs : ∀ x, schema.get "$defs" = some x → ∃ defs, x = .obj defs
  bare : schema.get "$ref" = none
  root : IsSchema listed (rootDefs schema) (.obj (schema.remove "$defs"))

variable {listed : Json → Prop} {defs : JsonObject}

theorem Keyword.imp
    {sub other : Json → Prop} {key : String} {x : Json}
    (hother : ∀ s, sub s → other s) (hkeyword : Keyword listed sub key x) :
    Keyword listed other key x := by
  cases hkeyword with
  | typeName name => exact .typeName name
  | typeNames names => exact .typeNames names
  | enum values hlisted => exact .enum values hlisted
  | minimum bound => exact .minimum bound
  | maximum bound => exact .maximum bound
  | required names => exact .required names
  | description text => exact .description text
  | properties named hnamed =>
      exact .properties named fun field hfield =>
        hother field.2 (hnamed field hfield)
  | additionalProperties _ hs => exact .additionalProperties _ (hother _ hs)
  | items _ hs => exact .items _ (hother _ hs)
  | anyOf branches hbranches =>
      exact .anyOf branches fun s hs => hother s (hbranches s hs)

theorem Keyword.ne_ref
    {sub : Json → Prop} {key : String} {x : Json}
    (hkeyword : Keyword listed sub key x) : key ≠ "$ref" ∧ key ≠ "$defs" := by
  cases hkeyword <;> decide

theorem definition_nil_ne_some {text : String} {target : Json} :
    definition [] text ≠ some target := by
  intro htarget
  obtain ⟨name, -, hname⟩ := Option.bind_eq_some_iff.mp htarget
  simp at hname

/-- A fact about every object inside a keyword's value holds of the objects
inside its schemas. -/
theorem Keyword.and_everyObject
    {sub : Json → Prop} {p : JsonObject → Prop} {key : String} {x : Json}
    (hkeyword : Keyword listed sub key x) (hevery : EveryObject p x) :
    Keyword listed (fun s => sub s ∧ EveryObject p s) key x := by
  cases hkeyword with
  | typeName name => exact .typeName name
  | typeNames names => exact .typeNames names
  | enum values hlisted => exact .enum values hlisted
  | minimum bound => exact .minimum bound
  | maximum bound => exact .maximum bound
  | required names => exact .required names
  | description text => exact .description text
  | properties named hnamed =>
      have hfields := everyField_iff.mp hevery.2
      exact .properties named fun field hfield =>
        ⟨hnamed field hfield, hfields field hfield⟩
  | additionalProperties _ hs => exact .additionalProperties _ ⟨hs, hevery⟩
  | items _ hs => exact .items _ ⟨hs, hevery⟩
  | anyOf branches hbranches =>
      have hitems := everyItem_iff.mp hevery
      exact .anyOf branches fun s hs => ⟨hbranches s hs, hitems s hs⟩

/-- Induction over a schema and the definitions it refers to. -/
@[elab_as_elim]
theorem IsSchema.induct
    {P : Json → Prop} (hbool : ∀ b, P (.bool b))
    (href : ∀ (fields : JsonObject) (reference : String) (target : Json),
      fields.get "$ref" = some (.str reference) →
      definition defs reference = some target →
      (∀ key x, (key, x) ∈ fields → key ≠ "$ref" →
        key = "description" ∧ ∃ text, x = .str text) →
      IsSchema listed defs target → P target → P (.obj fields))
    (hobject : ∀ fields : JsonObject,
      (∀ key x, (key, x) ∈ fields →
        Keyword listed (fun s => IsSchema listed defs s ∧ P s) key x) →
      P (.obj fields))
    {s : Json} (hschema : IsSchema listed defs s) : P s := by
  refine @IsSchema.rec listed defs (fun s _ => P s)
    (fun key x _ =>
      Keyword listed (fun s => IsSchema listed defs s ∧ P s) key x)
    hbool ?_ ?_ ?_ ?_ ?_ ?_ ?_ ?_ ?_ ?_ ?_ ?_ ?_ s hschema
  · exact href
  · exact fun fields _ ih => hobject fields ih
  · exact .typeName
  · exact .typeNames
  · exact .enum
  · exact .minimum
  · exact .maximum
  · exact .required
  · exact .description
  · exact fun named hnamed ih =>
      .properties named fun field hfield =>
        ⟨hnamed field hfield, ih field hfield⟩
  · exact fun s hs ih => .additionalProperties s ⟨hs, ih⟩
  · exact fun s hs ih => .items s ⟨hs, ih⟩
  · exact fun branches hbranches ih =>
      .anyOf branches fun s hs => ⟨hbranches s hs, ih s hs⟩

/-! ## Fields that correspond -/

theorem exists_forall₂
    {α β : Type*} {rel : α → β → Prop} (l : List α)
    (hrel : ∀ a ∈ l, ∃ b, rel a b) : ∃ others, List.Forall₂ rel l others := by
  induction l with
  | nil => exact ⟨[], .nil⟩
  | cons a l ih =>
      obtain ⟨b, hb⟩ := hrel a List.mem_cons_self
      obtain ⟨others, hothers⟩ :=
        ih fun c hc => hrel c (List.mem_cons_of_mem a hc)
      exact ⟨b :: others, .cons hb hothers⟩

theorem forall₂_mem_right
    {α β : Type*} {rel : α → β → Prop} {l : List α} {others : List β}
    (hrel : List.Forall₂ rel l others) {b : β} (hmem : b ∈ others) :
    ∃ a ∈ l, rel a b := by
  induction hrel with
  | nil => simp at hmem
  | @cons a c l others hhead _ ih =>
      rcases List.mem_cons.mp hmem with rfl | htail
      · exact ⟨a, List.mem_cons_self, hhead⟩
      · obtain ⟨d, hd, hrel⟩ := ih htail
        exact ⟨d, List.mem_cons_of_mem a hd, hrel⟩

theorem eq_map_of_forall₂
    {α β : Type*} {f : α → β} {l : List α} {others : List β}
    (hrel : List.Forall₂ (fun a b => b = f a) l others) :
    others = l.map f := by
  induction hrel with
  | nil => rfl
  | cons hhead _ ih => rw [List.map_cons, hhead, ih]

theorem exists_bound_forall₂
    {α β : Type*} (P : ℕ → α → β → Prop) {l : List α} {others : List β}
    (hmono : ∀ m n a b, m ≤ n → P m a b → P n a b)
    (hrel : List.Forall₂ (fun a b => ∃ n, P n a b) l others) :
    ∃ n, List.Forall₂ (P n) l others := by
  induction hrel with
  | nil => exact ⟨0, .nil⟩
  | cons hhead _ ih =>
      obtain ⟨m, hm⟩ := hhead
      obtain ⟨n, hn⟩ := ih
      refine ⟨max m n, .cons (hmono m _ _ _ (le_max_left m n) hm) ?_⟩
      exact hn.imp fun a b => hmono n _ a b (le_max_right m n)

theorem mapM_eq_some_iff
    {α β : Type*} {f : α → Option β} {l : List α} {others : List β} :
    l.mapM f = some others ↔ List.Forall₂ (fun a b => f a = some b) l others := by
  induction l generalizing others with
  | nil => simp [eq_comm]
  | cons a l ih =>
      rw [List.mapM_cons, List.forall₂_cons_left_iff]
      simp only [Option.bind_eq_bind, Option.bind_eq_some_iff, ih,
        Option.pure_def, Option.some.injEq]
      constructor
      · rintro ⟨b, hb, rest, hrest, rfl⟩
        exact ⟨b, rest, hb, hrest, rfl⟩
      · rintro ⟨b, rest, hb, hrest, rfl⟩
        exact ⟨b, hb, rest, hrest, rfl⟩

/-- The two objects have the same keys in the same order, and the values of
each key are related. -/
def FieldsRel (rel : String → Json → Json → Prop) :
    JsonObject → JsonObject → Prop :=
  List.Forall₂ fun field other =>
    other.1 = field.1 ∧ rel field.1 field.2 other.2

theorem FieldsRel.get
    {rel : String → Json → Json → Prop} {fields others : JsonObject}
    (hrel : FieldsRel rel fields others) (key : String) :
    Option.Rel (rel key) (fields.get key) (others.get key) := by
  induction hrel with
  | nil => exact .none
  | @cons field other fields others hhead _ ih =>
      obtain ⟨k, x⟩ := field
      obtain ⟨l, y⟩ := other
      obtain ⟨rfl, hxy⟩ := hhead
      rw [JsonObject.get_cons, JsonObject.get_cons]
      split
      next hkey =>
        subst hkey
        exact .some hxy
      next => exact ih

theorem FieldsRel.get_eq_some
    {rel : String → Json → Json → Prop} {fields others : JsonObject}
    {key : String} {x : Json} (hrel : FieldsRel rel fields others)
    (hget : fields.get key = some x) :
    ∃ y, others.get key = some y ∧ rel key x y := by
  have hkey := hrel.get key
  rw [hget] at hkey
  cases hother : others.get key with
  | none =>
      rw [hother] at hkey
      cases hkey
  | some y =>
      rw [hother] at hkey
      cases hkey with
      | some hxy => exact ⟨y, rfl, hxy⟩

theorem FieldsRel.containsKey
    {rel : String → Json → Json → Prop} {fields others : JsonObject}
    (hrel : FieldsRel rel fields others) (key : String) :
    others.containsKey key = fields.containsKey key := by
  have hkey := hrel.get key
  unfold JsonObject.containsKey
  generalize fields.get key = x at hkey ⊢
  generalize others.get key = y at hkey ⊢
  cases hkey with
  | none => rfl
  | some _ => rfl

theorem FieldsRel.imp_of_mem
    {rel other : String → Json → Json → Prop} {fields others : JsonObject}
    (hrel : FieldsRel rel fields others)
    (himp : ∀ key x y, (key, x) ∈ fields → rel key x y → other key x y) :
    FieldsRel other fields others := by
  induction hrel with
  | nil => exact .nil
  | @cons field _ fields _ hhead _ ih =>
      refine .cons ⟨hhead.1, himp _ _ _ List.mem_cons_self hhead.2⟩ (ih ?_)
      exact fun key x y hmem => himp key x y (List.mem_cons_of_mem _ hmem)

theorem FieldsRel.mem_right
    {rel : String → Json → Json → Prop} {fields others : JsonObject}
    (hrel : FieldsRel rel fields others) {key : String} {y : Json}
    (hmem : (key, y) ∈ others) : ∃ x, (key, x) ∈ fields ∧ rel key x y := by
  obtain ⟨⟨k, x⟩, hfield, rfl, hxy⟩ := forall₂_mem_right hrel hmem
  exact ⟨x, hfield, hxy⟩

theorem exists_fieldsRel
    (rel : String → Json → Json → Prop) (fields : JsonObject)
    (hrel : ∀ key x, (key, x) ∈ fields → ∃ y, rel key x y) :
    ∃ others, FieldsRel rel fields others := by
  apply exists_forall₂
  rintro ⟨key, x⟩ hmem
  obtain ⟨y, hy⟩ := hrel key x hmem
  exact ⟨(key, y), rfl, hy⟩

theorem FieldsRel.eq_map
    {f : String → Json → Json} {fields others : JsonObject}
    (hrel : FieldsRel (fun key x y => y = f key x) fields others) :
    others = fields.map fun field => (field.1, f field.1 field.2) := by
  apply eq_map_of_forall₂
  exact hrel.imp fun _ _ hfield => Prod.ext hfield.1 hfield.2

/-! ## Narrowing -/

/-- How the value of a keyword may be narrowed: the schemas below it are
related, a `type` may keep one of its names, and the rest stays. -/
inductive KeywordRel (rel : Json → Json → Prop) : String → Json → Json → Prop
  | kept (key : String) (x : Json)
      (hkey : key ∈ ["type", "enum", "minimum", "maximum", "required",
        "description"]) : KeywordRel rel key x x
  | type (names : List String) (name : String) (hname : name ∈ names) :
      KeywordRel rel "type" (.arr (names.map .str)) (.str name)
  | properties (named others : JsonObject)
      (hnamed : FieldsRel (fun _ => rel) named others) :
      KeywordRel rel "properties" (.obj named) (.obj others)
  | nested (key : String) (s t : Json)
      (hkey : key = "additionalProperties" ∨ key = "items") (hrel : rel s t) :
      KeywordRel rel key s t
  | anyOf (branches others : List Json)
      (hbranches : List.Forall₂ rel branches others) :
      KeywordRel rel "anyOf" (.arr branches) (.arr others)

theorem KeywordRel.eq_of_plain
    {rel : Json → Json → Prop} {key : String} {x y : Json}
    (hkey : key ∈ ["enum", "minimum", "maximum", "required"])
    (hrel : KeywordRel rel key x y) : y = x := by
  cases hrel with
  | kept _ _ _ => rfl
  | type => simp at hkey
  | properties => simp at hkey
  | nested _ _ _ hnested => rcases hnested with rfl | rfl <;> simp at hkey
  | anyOf => simp at hkey

theorem KeywordRel.allowsType
    {reading : String → ℚ} {rel : Json → Json → Prop} {key : String}
    {t u x : Json} (hkey : key = "type") (hrel : KeywordRel rel key t u)
    (hallows : AllowsType reading u x) : AllowsType reading t x := by
  cases hrel with
  | kept => exact hallows
  | type names name hname =>
      exact ⟨name, List.mem_map.mpr ⟨name, hname, rfl⟩, hallows⟩
  | properties => simp at hkey
  | nested _ _ _ hnested => rcases hnested with rfl | rfl <;> simp at hkey
  | anyOf => simp at hkey

theorem KeywordRel.properties_of
    {rel : Json → Json → Prop} {key : String} {x y : Json}
    (hkey : key = "properties") (hrel : KeywordRel rel key x y) :
    ∃ named others, x = .obj named ∧ y = .obj others ∧
      FieldsRel (fun _ => rel) named others := by
  cases hrel with
  | kept _ _ hkept => simp [hkey] at hkept
  | type => simp at hkey
  | properties named others hnamed => exact ⟨named, others, rfl, rfl, hnamed⟩
  | nested _ _ _ hnested => rcases hnested with rfl | rfl <;> simp at hkey
  | anyOf => simp at hkey

theorem KeywordRel.nested_of
    {rel : Json → Json → Prop} {key : String} {s t : Json}
    (hkey : key = "additionalProperties" ∨ key = "items")
    (hrel : KeywordRel rel key s t) : rel s t := by
  cases hrel with
  | kept _ _ hkept => rcases hkey with rfl | rfl <;> simp at hkept
  | type => simp at hkey
  | properties => simp at hkey
  | nested _ _ _ _ hst => exact hst
  | anyOf => simp at hkey

theorem KeywordRel.anyOf_of
    {rel : Json → Json → Prop} {key : String} {branches : List Json} {y : Json}
    (hkey : key = "anyOf") (hrel : KeywordRel rel key (.arr branches) y) :
    ∃ others, y = .arr others ∧ List.Forall₂ rel branches others := by
  cases hrel with
  | kept _ _ hkept => simp [hkey] at hkept
  | type => simp at hkey
  | nested _ _ _ hnested => rcases hnested with rfl | rfl <;> simp at hkey
  | anyOf _ others hbranches => exact ⟨others, rfl, hbranches⟩

theorem KeywordRel.ne_ref
    {rel : Json → Json → Prop} {key : String} {x y : Json}
    (hrel : KeywordRel rel key x y) : key ≠ "$ref" := by
  rintro rfl
  generalize hkey : "$ref" = key at hrel
  cases hrel with
  | kept _ _ hkept => simp [← hkey] at hkept
  | type => simp at hkey
  | properties => simp at hkey
  | nested _ _ _ hnested => rcases hnested with rfl | rfl <;> simp at hkey
  | anyOf => simp at hkey

theorem named_of_narrowed
    {rel : Json → Json → Prop} {fields narrowed : JsonObject} {name : String}
    (hrel : FieldsRel (KeywordRel rel) fields narrowed)
    (hnamed : Named narrowed name) : Named fields name := by
  obtain ⟨others, hget, hcontains⟩ := hnamed
  have hkey := hrel.containsKey "properties"
  rw [JsonObject.containsKey, hget, Option.isSome_some, eq_comm,
    JsonObject.containsKey, Option.isSome_iff_exists] at hkey
  obtain ⟨x, hfields⟩ := hkey
  obtain ⟨y, hnarrowed, hkeyword⟩ := hrel.get_eq_some hfields
  obtain ⟨named, _, rfl, rfl, hproperties⟩ := hkeyword.properties_of rfl
  rw [hget, Option.some.injEq, Json.obj.injEq] at hnarrowed
  subst hnarrowed
  exact ⟨named, hfields, (hproperties.containsKey name).symm.trans hcontains⟩

/-- An instance that meets the narrowed keywords meets the keywords. -/
theorem Meets.of_narrowed
    {reading : String → ℚ} {valid narrower rel : Json → Json → Prop}
    {other fields narrowed : JsonObject} {x : Json}
    (hrel : FieldsRel (KeywordRel rel) fields narrowed)
    (hvalid : ∀ s t y, rel s t → narrower t y → valid s y)
    (hmeets : Meets reading narrower other narrowed x) :
    Meets reading valid defs fields x where
  type := by
    intro t hget
    obtain ⟨u, hother, hkeyword⟩ := hrel.get_eq_some hget
    exact hkeyword.allowsType rfl (hmeets.type u hother)
  enum := by
    intro values hget
    obtain ⟨_, hother, hkeyword⟩ := hrel.get_eq_some hget
    cases hkeyword.eq_of_plain (by simp)
    exact hmeets.enum values hother
  minimum := by
    intro bound n hget hx
    obtain ⟨_, hother, hkeyword⟩ := hrel.get_eq_some hget
    cases hkeyword.eq_of_plain (by simp)
    exact hmeets.minimum bound n hother hx
  maximum := by
    intro bound n hget hx
    obtain ⟨_, hother, hkeyword⟩ := hrel.get_eq_some hget
    cases hkeyword.eq_of_plain (by simp)
    exact hmeets.maximum bound n hother hx
  required := by
    intro names members name hget hx hname
    obtain ⟨_, hother, hkeyword⟩ := hrel.get_eq_some hget
    cases hkeyword.eq_of_plain (by simp)
    exact hmeets.required names members name hother hx hname
  properties := by
    intro named members name s y hget hx hmem hnamed
    obtain ⟨_, hother, hkeyword⟩ := hrel.get_eq_some hget
    obtain ⟨_, others, ⟨⟩, rfl, hproperties⟩ := hkeyword.properties_of rfl
    obtain ⟨t, hothers, hst⟩ := hproperties.get_eq_some hnamed
    exact hvalid s t y hst
      (hmeets.properties others members name t y hother hx hmem hothers)
  additionalProperties := by
    intro s members name y hget hx hmem hnamed
    obtain ⟨t, hother, hkeyword⟩ := hrel.get_eq_some hget
    exact hvalid s t y (hkeyword.nested_of (Or.inl rfl))
      (hmeets.additionalProperties t members name y hother hx hmem
        fun hnarrowed => hnamed (named_of_narrowed hrel hnarrowed))
  items := by
    intro s elements y hget hx hmem
    obtain ⟨t, hother, hkeyword⟩ := hrel.get_eq_some hget
    exact hvalid s t y (hkeyword.nested_of (Or.inr rfl))
      (hmeets.items t elements y hother hx hmem)
  anyOf := by
    intro branches hget
    obtain ⟨_, hother, hkeyword⟩ := hrel.get_eq_some hget
    obtain ⟨others, rfl, hbranches⟩ := hkeyword.anyOf_of rfl
    obtain ⟨t, hmem, hmeet⟩ := hmeets.anyOf others hother
    obtain ⟨s, hs, hst⟩ := forall₂_mem_right hbranches hmem
    exact ⟨s, hs, hvalid s t x hst hmeet⟩
  ref := by
    intro reference hget
    obtain ⟨_, _, hkeyword⟩ := hrel.get_eq_some hget
    exact absurd rfl hkeyword.ne_ref

/-! ## Walks over a schema -/

/-- A value that stands where a schema is expected. -/
def IsPlace : Json → Prop
  | .bool _ | .obj _ => True
  | _ => False

theorem IsSchema.isPlace {s : Json} (hschema : IsSchema listed defs s) :
    IsPlace s := by
  cases hschema <;> trivial

/-- A walk leaves texts, numbers and listed values alone and goes into arrays
and into objects whose values are schemas. -/
structure Walks (listed : Json → Prop) (walk : Json → Json → Prop) : Prop where
  str : ∀ text, walk (.str text) (.str text)
  num : ∀ n, walk (.num n) (.num n)
  listed : ∀ x, listed x → walk x x
  arr : ∀ items others, List.Forall₂ walk items others →
    walk (.arr items) (.arr others)
  obj : ∀ fields others : JsonObject, (∀ field ∈ fields, IsPlace field.2) →
    FieldsRel (fun _ => walk) fields others → walk (.obj fields) (.obj others)

section Walks

variable {walk rel : Json → Json → Prop}

theorem Walks.self_of_forall
    (hwalks : Walks listed walk) {items : List Json}
    (hitems : ∀ x ∈ items, walk x x) : walk (.arr items) (.arr items) :=
  hwalks.arr items items (List.forall₂_same.mpr hitems)

theorem Walks.names (hwalks : Walks listed walk) (names : List String) :
    walk (.arr (names.map .str)) (.arr (names.map .str)) := by
  apply hwalks.self_of_forall
  intro x hx
  obtain ⟨name, -, rfl⟩ := List.mem_map.mp hx
  exact hwalks.str name

/-- A walk that narrows the schemas below a keyword narrows the keyword. -/
theorem Keyword.exists_walk
    {sub : Json → Prop} {key : String} {x : Json}
    (hwalks : Walks listed walk) (hplace : ∀ s, sub s → IsPlace s)
    (hsub : ∀ s, sub s → ∃ t, walk s t ∧ rel s t)
    (hkeyword : Keyword listed sub key x) :
    ∃ y, walk x y ∧ KeywordRel rel key x y ∧
      Keyword listed (fun t => ∃ s, rel s t) key y := by
  cases hkeyword with
  | typeName name =>
      exact ⟨_, hwalks.str name, .kept _ _ (by simp), .typeName name⟩
  | typeNames names =>
      exact ⟨_, hwalks.names names, .kept _ _ (by simp), .typeNames names⟩
  | enum values hlisted =>
      exact ⟨_, hwalks.self_of_forall fun x hx => hwalks.listed x (hlisted x hx),
        .kept _ _ (by simp), .enum values hlisted⟩
  | minimum bound =>
      exact ⟨_, hwalks.num bound, .kept _ _ (by simp), .minimum bound⟩
  | maximum bound =>
      exact ⟨_, hwalks.num bound, .kept _ _ (by simp), .maximum bound⟩
  | required names =>
      exact ⟨_, hwalks.names names, .kept _ _ (by simp), .required names⟩
  | description text =>
      exact ⟨_, hwalks.str text, .kept _ _ (by simp), .description text⟩
  | properties named hnamed =>
      obtain ⟨others, hothers⟩ := exists_fieldsRel
        (fun _ s t => walk s t ∧ rel s t) named
        fun name s hmem => hsub s (hnamed (name, s) hmem)
      refine ⟨.obj others, ?_, .properties named others ?_,
        .properties others ?_⟩
      · exact hwalks.obj named others
          (fun field hfield => hplace field.2 (hnamed field hfield))
          (hothers.imp_of_mem fun _ _ _ _ hst => hst.1)
      · exact hothers.imp_of_mem fun _ _ _ _ hst => hst.2
      · intro field hfield
        obtain ⟨s, -, hst⟩ := hothers.mem_right hfield
        exact ⟨s, hst.2⟩
  | additionalProperties _ hs =>
      obtain ⟨t, hwalk, hst⟩ := hsub _ hs
      exact ⟨t, hwalk, .nested _ _ _ (Or.inl rfl) hst,
        .additionalProperties t ⟨_, hst⟩⟩
  | items _ hs =>
      obtain ⟨t, hwalk, hst⟩ := hsub _ hs
      exact ⟨t, hwalk, .nested _ _ _ (Or.inr rfl) hst, .items t ⟨_, hst⟩⟩
  | anyOf branches hbranches =>
      obtain ⟨others, hothers⟩ := exists_forall₂ branches
        fun s hs => hsub s (hbranches s hs)
      refine ⟨.arr others, hwalks.arr branches others ?_,
        .anyOf branches others ?_, .anyOf others ?_⟩
      · exact hothers.imp fun _ _ hst => hst.1
      · exact hothers.imp fun _ _ hst => hst.2
      · intro t ht
        obtain ⟨s, -, hst⟩ := forall₂_mem_right hothers ht
        exact ⟨s, hst.2⟩

theorem exists_narrowed
    (rel : Json → Json → Prop) {sub : Json → Prop} {fields : JsonObject}
    (hwalks : Walks listed walk) (hplace : ∀ s, sub s → IsPlace s)
    (hsub : ∀ s, sub s → ∃ t, walk s t ∧ rel s t)
    (hfields : ∀ key x, (key, x) ∈ fields → Keyword listed sub key x) :
    ∃ others, FieldsRel (fun _ => walk) fields others ∧
      FieldsRel (KeywordRel rel) fields others ∧
      ∀ key y, (key, y) ∈ others →
        Keyword listed (fun t => ∃ s, rel s t) key y := by
  obtain ⟨others, hothers⟩ := exists_fieldsRel
    (fun key x y => walk x y ∧ KeywordRel rel key x y ∧
      Keyword listed (fun t => ∃ s, rel s t) key y) fields
    fun key x hmem => (hfields key x hmem).exists_walk hwalks hplace hsub
  refine ⟨others, ?_, ?_, ?_⟩
  · exact hothers.imp_of_mem fun _ _ _ _ hrel => hrel.1
  · exact hothers.imp_of_mem fun _ _ _ _ hrel => hrel.2.1
  · intro key y hmem
    obtain ⟨x, -, hrel⟩ := hothers.mem_right hmem
    exact hrel.2.2

end Walks

/-- Induction over a value and the values inside it. -/
theorem json_induct
    {P : Json → Prop} (hnull : P .null) (hbool : ∀ b, P (.bool b))
    (hnum : ∀ n, P (.num n)) (hstr : ∀ text, P (.str text))
    (harr : ∀ items : List Json, (∀ x ∈ items, P x) → P (.arr items))
    (hobj : ∀ fields : JsonObject, (∀ field ∈ fields, P field.2) →
      P (.obj fields)) (x : Json) : P x := by
  refine @Json.rec P (fun items => ∀ x ∈ items, P x)
    (fun fields => ∀ field ∈ fields, P field.2) (fun field => P field.2)
    hnull hbool hnum hstr harr hobj ?_ ?_ ?_ ?_ ?_ x
  · simp
  · exact fun item rest hitem hrest => List.forall_mem_cons.mpr ⟨hitem, hrest⟩
  · simp
  · exact fun field rest hfield hrest =>
      List.forall_mem_cons.mpr ⟨hfield, hrest⟩
  · exact fun _ _ hvalue => hvalue

/-! ## One object inside a value -/

/-- The object stands somewhere in the value. -/
inductive Inside (map : JsonObject) : Json → Prop
  | here : Inside map (.obj map)
  | field {fields : JsonObject} {field : String × Json}
      (hmem : field ∈ fields) (hinside : Inside map field.2) :
      Inside map (.obj fields)
  | item {items : List Json} {x : Json}
      (hmem : x ∈ items) (hinside : Inside map x) : Inside map (.arr items)

theorem everyObject_iff {p : JsonObject → Prop} {x : Json} :
    EveryObject p x ↔ ∀ map, Inside map x → p map := by
  constructor
  · intro hevery map hinside
    induction hinside with
    | here => exact hevery.1
    | field hmem _ ih => exact ih (everyField_iff.mp hevery.2 _ hmem)
    | item hmem _ ih => exact ih (everyItem_iff.mp hevery _ hmem)
  · induction x using json_induct with
    | hnull | hbool _ | hnum _ | hstr _ => exact fun _ => trivial
    | harr items ih =>
        exact fun hp => everyItem_iff.mpr fun x hx =>
          ih x hx fun map hinside => hp map (.item hx hinside)
    | hobj fields ih =>
        exact fun hp => ⟨hp fields .here, everyField_iff.mpr fun field hfield =>
          ih field hfield fun map hinside => hp map (.field hfield hinside)⟩

theorem everyObject_imp
    {p q : JsonObject → Prop} (himp : ∀ map, p map → q map) {x : Json}
    (hevery : EveryObject p x) : EveryObject q x :=
  everyObject_iff.mpr fun map hinside =>
    himp map (everyObject_iff.mp hevery map hinside)

end JsonSchema
