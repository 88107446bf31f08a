import Mathlib.Tactic

/-!
# JSON values

The value tree of a JSON document whose objects are kept in key order, with
the accessors that read one shape of value, the ordered insertion of a field,
and the length of the compact text of a value.
-/

/-- A number is an unsigned or a negative machine integer, or a floating point
value, given by the text it is printed as. -/
inductive JsonNumber where
  | posInt (n : UInt64)
  | negInt (n : Int64)
  | float (text : String)
deriving DecidableEq

inductive Json where
  | null
  | bool (b : Bool)
  | num (n : JsonNumber)
  | str (s : String)
  | arr (items : List Json)
  | obj (fields : List (String × Json))

/-- The fields of an object, in the order in which they are visited. -/
abbrev JsonObject : Type := List (String × Json)

namespace Json

mutual

def decEq : (a b : Json) → Decidable (a = b)
  | .null, .null => isTrue rfl
  | .bool a, .bool b =>
      if h : a = b then isTrue (congrArg Json.bool h)
      else isFalse fun heq => h (Json.bool.inj heq)
  | .num a, .num b =>
      if h : a = b then isTrue (congrArg Json.num h)
      else isFalse fun heq => h (Json.num.inj heq)
  | .str a, .str b =>
      if h : a = b then isTrue (congrArg Json.str h)
      else isFalse fun heq => h (Json.str.inj heq)
  | .arr a, .arr b =>
      match decEqItems a b with
      | isTrue h => isTrue (congrArg Json.arr h)
      | isFalse h => isFalse fun heq => h (Json.arr.inj heq)
  | .obj a, .obj b =>
      match decEqFields a b with
      | isTrue h => isTrue (congrArg Json.obj h)
      | isFalse h => isFalse fun heq => h (Json.obj.inj heq)
  | .null, .bool _ | .null, .num _ | .null, .str _ | .null, .arr _ | .null, .obj _
  | .bool _, .null | .bool _, .num _ | .bool _, .str _ | .bool _, .arr _ | .bool _, .obj _
  | .num _, .null | .num _, .bool _ | .num _, .str _ | .num _, .arr _ | .num _, .obj _
  | .str _, .null | .str _, .bool _ | .str _, .num _ | .str _, .arr _ | .str _, .obj _
  | .arr _, .null | .arr _, .bool _ | .arr _, .num _ | .arr _, .str _ | .arr _, .obj _
  | .obj _, .null | .obj _, .bool _ | .obj _, .num _ | .obj _, .str _ | .obj _, .arr _ =>
      isFalse nofun

def decEqItems : (a b : List Json) → Decidable (a = b)
  | [], [] => isTrue rfl
  | [], _ :: _ => isFalse nofun
  | _ :: _, [] => isFalse nofun
  | a :: as, b :: bs =>
      match decEq a b, decEqItems as bs with
      | isTrue h, isTrue hs => isTrue (h ▸ hs ▸ rfl)
      | isFalse h, _ => isFalse fun heq => h (List.cons.inj heq).1
      | _, isFalse hs => isFalse fun heq => hs (List.cons.inj heq).2

def decEqFields : (a b : JsonObject) → Decidable (a = b)
  | [], [] => isTrue rfl
  | [], _ :: _ => isFalse nofun
  | _ :: _, [] => isFalse nofun
  | (k, a) :: as, (l, b) :: bs =>
      if hk : k = l then
        match decEq a b, decEqFields as bs with
        | isTrue h, isTrue hs => isTrue (hk ▸ h ▸ hs ▸ rfl)
        | isFalse h, _ => isFalse fun heq => h (Prod.mk.inj (List.cons.inj heq).1).2
        | _, isFalse hs => isFalse fun heq => hs (List.cons.inj heq).2
      else isFalse fun heq => hk (Prod.mk.inj (List.cons.inj heq).1).1

end

instance : DecidableEq Json := decEq

/-! ## Reading one shape -/

def asStr : Json → Option String
  | .str s => some s
  | _ => none

def asArray : Json → Option (List Json)
  | .arr items => some items
  | _ => none

def asObject : Json → Option JsonObject
  | .obj fields => some fields
  | _ => none

def asU64 : Json → Option ℕ
  | .num (.posInt n) => some n.toNat
  | _ => none

@[simp] theorem asArray_arr (items : List Json) :
    (Json.arr items).asArray = some items := rfl

end Json

namespace JsonObject

def get (fields : JsonObject) (key : String) : Option Json :=
  fields.lookup key

def containsKey (fields : JsonObject) (key : String) : Bool :=
  (fields.get key).isSome

/-- Insert a field at its place in key order, replacing an earlier value. -/
def insert (key : String) (value : Json) : JsonObject → JsonObject
  | [] => [(key, value)]
  | (k, v) :: rest =>
      if key = k then (k, value) :: rest
      else if key < k then (key, value) :: (k, v) :: rest
      else (k, v) :: insert key value rest

/-- Assign through the reference to the value of a key. -/
def update (key : String) (value : Json) : JsonObject → JsonObject
  | [] => []
  | (k, v) :: rest =>
      if key = k then (k, value) :: rest else (k, v) :: update key value rest

def remove (key : String) (fields : JsonObject) : JsonObject :=
  fields.filter fun field => field.1 ≠ key

/-- The object with the given fields, as inserted one after the other. -/
def ofFields (fields : List (String × Json)) : JsonObject :=
  fields.foldl (fun object field => object.insert field.1 field.2) []

@[simp] theorem get_nil (key : String) : get [] key = none := rfl

theorem get_cons (key k : String) (v : Json) (rest : JsonObject) :
    get ((k, v) :: rest) key = if key = k then some v else get rest key := by
  unfold get
  rw [List.lookup_cons]
  by_cases heq : key = k
  · simp [heq]
  · simp [heq, beq_eq_false_iff_ne.mpr heq]

theorem containsKey_iff {fields : JsonObject} {key : String} :
    fields.containsKey key = true ↔ key ∈ fields.map Prod.fst := by
  unfold containsKey
  induction fields with
  | nil => simp
  | cons field rest ih =>
      obtain ⟨k, v⟩ := field
      rw [get_cons]
      by_cases heq : key = k
      · simp [heq]
      · simp only [heq, if_false, List.map_cons, List.mem_cons, false_or]
        exact ih

theorem get_insert (key other : String) (value : Json) (fields : JsonObject) :
    get (insert key value fields) other =
      if other = key then some value else get fields other := by
  induction fields with
  | nil => rw [insert, get_cons]
  | cons field rest ih =>
      obtain ⟨k, v⟩ := field
      unfold insert
      split
      · rename_i heq
        subst heq
        by_cases hother : other = key <;> simp [get_cons, hother]
      · rename_i hne
        split
        · rw [get_cons]
        · rw [get_cons, get_cons, ih]
          by_cases hother : other = key
          · simp [hother, hne]
          · simp [hother]

theorem get_update (key other : String) (value : Json) (fields : JsonObject) :
    get (update key value fields) other =
      if other = key then (get fields key).map fun _ => value
      else get fields other := by
  induction fields with
  | nil => by_cases hother : other = key <;> simp [update, get, hother]
  | cons field rest ih =>
      obtain ⟨k, v⟩ := field
      unfold update
      split
      · rename_i heq
        subst heq
        by_cases hother : other = key <;> simp [get_cons, hother]
      · rename_i hne
        rw [get_cons, get_cons, get_cons, ih]
        by_cases hother : other = key
        · simp [hother, hne]
        · simp [hother]

theorem get_remove (key other : String) (fields : JsonObject) :
    get (remove key fields) other =
      if other = key then none else get fields other := by
  induction fields with
  | nil => simp [remove]
  | cons field rest ih =>
      obtain ⟨k, v⟩ := field
      unfold remove at ih ⊢
      by_cases hk : k = key
      · rw [List.filter_cons_of_neg (by simpa using hk), ih, get_cons]
        by_cases hother : other = key
        · simp [hother]
        · have hne : other ≠ k := fun heq => hother (heq.trans hk)
          simp [hother, hne]
      · rw [List.filter_cons_of_pos (by simpa using hk), get_cons, get_cons, ih]
        by_cases hother : other = k
        · have hne : other ≠ key := fun heq => hk (hother ▸ heq)
          simp [hother, hk]
        · simp [hother]

theorem mem_insert
    {key : String} {value : Json} {fields : JsonObject} {field : String × Json}
    (hmem : field ∈ JsonObject.insert key value fields) :
    field = (key, value) ∨ field ∈ fields := by
  induction fields with
  | nil => exact Or.inl (by simpa [JsonObject.insert] using hmem)
  | cons head rest ih =>
      obtain ⟨k, v⟩ := head
      unfold JsonObject.insert at hmem
      split at hmem
      · rename_i heq
        subst heq
        obtain hhead | hrest := List.mem_cons.mp hmem
        · exact Or.inl hhead
        · exact Or.inr (List.mem_cons_of_mem _ hrest)
      · split at hmem
        · exact List.mem_cons.mp hmem
        · obtain hhead | hrest := List.mem_cons.mp hmem
          · exact Or.inr (hhead ▸ List.mem_cons_self)
          · exact (ih hrest).imp id (List.mem_cons_of_mem _)

theorem mem_ofFields
    {fields : List (String × Json)} {field : String × Json}
    (hmem : field ∈ JsonObject.ofFields fields) : field ∈ fields := by
  suffices hgeneral : ∀ (fields : List (String × Json)) (start : JsonObject),
      field ∈ fields.foldl (fun object f => object.insert f.1 f.2) start →
        field ∈ start ∨ field ∈ fields by
    simpa using hgeneral fields [] hmem
  intro fields
  induction fields with
  | nil => exact fun start h => Or.inl h
  | cons head rest ih =>
      intro start h
      obtain hstart | hrest := ih _ h
      · obtain hhead | hold := mem_insert hstart
        · exact Or.inr (hhead ▸ List.mem_cons_self)
        · exact Or.inl hold
      · exact Or.inr (List.mem_cons_of_mem _ hrest)

theorem mem_of_get
    {fields : JsonObject} {key : String} {value : Json}
    (hget : fields.get key = some value) : (key, value) ∈ fields := by
  induction fields with
  | nil => simp at hget
  | cons head rest ih =>
      obtain ⟨k, v⟩ := head
      rw [JsonObject.get_cons] at hget
      split at hget
      · rename_i heq
        cases hget
        exact heq ▸ List.mem_cons_self
      · exact List.mem_cons_of_mem _ (ih hget)

end JsonObject

/-! ## Length of the compact text -/

/-- The bytes one character takes inside a string literal: quotes, backslashes
and the five short escapes take two, the other control characters six. -/
def escapedLen (c : Char) : ℕ :=
  if c = '"' ∨ c = '\\' then 2
  else if c = '\n' ∨ c = '\r' ∨ c = '\t' ∨ c.val = 8 ∨ c.val = 12 then 2
  else if c.val < 32 then 6
  else c.utf8Size

def stringLen (s : String) : ℕ :=
  2 + (s.toList.map escapedLen).sum

def decimalLen (n : ℕ) : ℕ := (Nat.toDigits 10 n).length

def JsonNumber.textLen : JsonNumber → ℕ
  | .posInt n => decimalLen n.toNat
  | .negInt n => 1 + decimalLen n.toInt.natAbs
  | .float text => text.utf8ByteSize

namespace Json

mutual

/-- The length in bytes of the compact text of a value. -/
def textLen : Json → ℕ
  | .null => 4
  | .bool b => if b then 4 else 5
  | .num n => n.textLen
  | .str s => stringLen s
  | .arr items => 2 + itemsLen items + (items.length - 1)
  | .obj fields => 2 + fieldsLen fields + (fields.length - 1)

def itemsLen : List Json → ℕ
  | [] => 0
  | item :: rest => item.textLen + itemsLen rest

def fieldsLen : JsonObject → ℕ
  | [] => 0
  | (key, value) :: rest =>
      stringLen key + 1 + value.textLen + fieldsLen rest

end

theorem itemsLen_append (items more : List Json) :
    itemsLen (items ++ more) = itemsLen items + itemsLen more := by
  induction items with
  | nil => simp [itemsLen]
  | cons item rest ih =>
      simp only [List.cons_append, itemsLen, ih]
      omega

theorem textLen_take_mono (items : List Json) {m n : ℕ} (hle : m ≤ n) :
    (Json.arr (items.take m)).textLen ≤ (Json.arr (items.take n)).textLen := by
  obtain ⟨more, hmore⟩ : ∃ more, items.take n = items.take m ++ more := by
    refine ⟨(items.take n).drop m, ?_⟩
    have htake : items.take m = (items.take n).take m := by
      rw [List.take_take, min_eq_left hle]
    rw [htake, List.take_append_drop]
  rw [hmore]
  simp only [textLen, itemsLen_append, List.length_append]
  omega

end Json
