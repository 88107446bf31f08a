import RuprogressMcp.JsonValue

/-!
# Derived JSON decoders

The decoders that a derive macro writes for a record or an enumeration, as
combinators.  A decoder returns nothing on a value that it rejects.  A record
is read from an object or, position by position, from an array; an absent
optional field and a null one both give nothing; an enumeration without
payloads is read from the name of a variant or from a single-entry map from
that name to null.
-/

abbrev Decoder (α : Type) : Type := Json → Option α

/-- The variants of an enumeration without payloads, with the distinct names
they are serialized as. -/
structure UnitVariants (α : Type) where
  all : List α
  name : α → String
  complete : ∀ a, a ∈ all
  injective : Function.Injective name

namespace UnitVariants

variable {α : Type} (variants : UnitVariants α)

def table : List (String × α) :=
  variants.all.map fun a => (variants.name a, a)

theorem lookup_table {s : String} {a : α} :
    variants.table.lookup s = some a ↔ s = variants.name a := by
  unfold table
  constructor
  · intro hlookup
    obtain ⟨before, after, hsplit, -⟩ := List.lookup_eq_some_iff.mp hlookup
    have hmem : (s, a) ∈ variants.all.map fun a => (variants.name a, a) := by
      simp [hsplit]
    obtain ⟨b, -, hb⟩ := List.mem_map.mp hmem
    cases hb
    rfl
  · rintro rfl
    have hall := variants.complete a
    generalize variants.all = all at hall
    induction all with
    | nil => simp at hall
    | cons b rest ih =>
        rw [List.map_cons, List.lookup_cons]
        by_cases hb : variants.name a = variants.name b
        · simp [variants.injective hb]
        · obtain rfl | hrest := List.mem_cons.mp hall
          · exact absurd rfl hb
          · simp only [beq_eq_false_iff_ne.mpr hb]
            exact ih hrest

end UnitVariants

namespace Decode

variable {α β : Type}

/-! ## Scalars -/

def string : Decoder String := Json.asStr

def bool : Decoder Bool
  | .bool b => some b
  | _ => none

def u64 : Decoder ℕ := Json.asU64

/-- An unsigned integer that fits the given number of bits. -/
def unsigned (bits : ℕ) : Decoder ℕ :=
  fun value => (u64 value).filter fun n => n < 2 ^ bits

def u32 : Decoder ℕ := unsigned 32

def u8 : Decoder ℕ := unsigned 8

def i64 : Decoder ℤ
  | .num (.posInt n) => if n.toNat < 2 ^ 63 then some n.toNat else none
  | .num (.negInt n) => some n.toInt
  | _ => none

/-- Any number is a floating point value. -/
def f64 : Decoder JsonNumber
  | .num n => some n
  | _ => none

/-! ## Structures of values -/

def option (decode : Decoder α) : Decoder (Option α)
  | .null => some none
  | value => (decode value).map some

def vec (decode : Decoder α) : Decoder (List α)
  | .arr items => items.mapM decode
  | _ => none

/-- The first of two readings that accepts the value. -/
def untagged (first second : Decoder α) : Decoder α :=
  fun value => first value <|> second value

def unitEnum (variants : UnitVariants α) : Decoder α
  | .str s => variants.table.lookup s
  | .obj [(name, .null)] => variants.table.lookup name
  | _ => none

/-! ## Records -/

/-- The named fields of a record given as an object, all of whose keys are
known, or as an array in the order of declaration. -/
def fields (names : List String) : Decoder JsonObject
  | .obj object =>
      if object.all fun field => names.contains field.1 then some object
      else none
  | .arr items =>
      if items.length ≤ names.length then some (names.zip items) else none
  | _ => none

def required (object : JsonObject) (key : String) (decode : Decoder α) :
    Option α :=
  (object.get key).bind decode

/-- A field whose absence is a default. -/
def defaulted (object : JsonObject) (key : String) (decode : Decoder α)
    (default : α) : Option α :=
  match object.get key with
  | some value => decode value
  | none => some default

def optional (object : JsonObject) (key : String) (decode : Decoder α) :
    Option (Option α) :=
  defaulted object key (option decode) none

/-- An optional field that tells an absent key from a null value. -/
def doubleOption (object : JsonObject) (key : String) (decode : Decoder α) :
    Option (Option (Option α)) :=
  defaulted object key (fun value => (option decode value).map some) none

/-! ## What an accepted value looks like -/

theorem unitEnum_eq_some
    {variants : UnitVariants α} {value : Json} {a : α} :
    unitEnum variants value = some a ↔
      value = .str (variants.name a) ∨
        value = .obj [(variants.name a, .null)] := by
  unfold unitEnum
  split
  · simp [variants.lookup_table]
  · simp [variants.lookup_table]
  · rename_i hstr hobj
    constructor
    · intro h
      simp at h
    · rintro (rfl | rfl)
      · exact absurd rfl (hstr _)
      · exact absurd rfl (hobj _)

theorem required_eq_some
    {object : JsonObject} {key : String} {decode : Decoder α} {a : α} :
    required object key decode = some a ↔
      ∃ value, object.get key = some value ∧ decode value = some a := by
  simp [required, Option.bind_eq_some_iff]

theorem fields_obj
    {names : List String} {args object : JsonObject}
    (hfields : fields names (.obj args) = some object) : object = args := by
  simp only [fields, Option.ite_none_right_eq_some, Option.some.injEq] at hfields
  exact hfields.2.symm

theorem tag_of_fields
    {names : List String} {args : JsonObject} {key : String}
    {variants : UnitVariants α} {rest : JsonObject → α → Option β} {b : β}
    (tag : β → α) (hrest : ∀ object a b, rest object a = some b → tag b = a)
    (hdecode : ((fields names (.obj args)).bind fun object =>
      (required object key (unitEnum variants)).bind (rest object)) = some b) :
    args.get key = some (.str (variants.name (tag b))) ∨
      args.get key = some (.obj [(variants.name (tag b), .null)]) := by
  obtain ⟨object, hobject, hdecode⟩ := Option.bind_eq_some_iff.mp hdecode
  obtain ⟨a, htag, hdecode⟩ := Option.bind_eq_some_iff.mp hdecode
  obtain ⟨value, hvalue, hvariant⟩ := required_eq_some.mp htag
  rw [fields_obj hobject] at hvalue
  rw [hrest _ _ _ hdecode, hvalue]
  obtain rfl | rfl := unitEnum_eq_some.mp hvariant
  · exact Or.inl rfl
  · exact Or.inr rfl

theorem defaulted_ne
    {object : JsonObject} {key : String} {decode : Decoder α} {default a : α}
    (hdecode : defaulted object key decode default = some a)
    (hne : a ≠ default) : object.containsKey key = true := by
  unfold defaulted at hdecode
  split at hdecode
  · rename_i value hvalue
    simp [JsonObject.containsKey, hvalue]
  · exact absurd (Option.some.inj hdecode).symm hne

theorem vec_mem
    {decode : Decoder α} {value : Json} {decoded : List α}
    (hvec : vec decode value = some decoded) :
    ∃ items, value = .arr items ∧
      ∀ a, a ∈ decoded ↔ ∃ item ∈ items, decode item = some a := by
  cases value with
  | arr items =>
      refine ⟨items, rfl, ?_⟩
      simp only [vec] at hvec
      induction items generalizing decoded with
      | nil =>
          cases hvec
          simp
      | cons item rest ih =>
          rw [List.mapM_cons] at hvec
          obtain ⟨a, ha, hvec⟩ := Option.bind_eq_some_iff.mp hvec
          obtain ⟨as, has, hvec⟩ := Option.bind_eq_some_iff.mp hvec
          cases hvec
          intro b
          rw [List.mem_cons, ih has]
          simp [ha, eq_comm]
  | null | bool | num | str | obj => simp [vec] at hvec

theorem optional_eq_some_some
    {object : JsonObject} {key : String} {decode : Decoder α} {a : α}
    (hread : optional object key decode = some (some a)) :
    ∃ value, object.get key = some value ∧ decode value = some a := by
  unfold optional defaulted at hread
  split at hread
  · rename_i value hvalue
    refine ⟨value, hvalue, ?_⟩
    unfold option at hread
    split at hread
    · simp at hread
    · simpa using hread
  · simp at hread

end Decode
