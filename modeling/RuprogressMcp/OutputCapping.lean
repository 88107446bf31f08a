import RuprogressMcp.ToolOutput

/-!
# What the response caps keep

The bisection over prefix lengths keeps the longest prefix of the top-level
array that fits the byte cap, and the array is shortened exactly when it is
nonempty and the payload exceeds one of the two caps.  A shortened payload is
marked exactly when it carries a pagination object, so the cut is silent for
the payloads without one.
-/

namespace RuprogressMcp

/-! ## The top-level array as a place -/

theorem firstArray_putFirstArray
    {fields : JsonObject} {items : List Json}
    (harray : firstArray fields = some items) (kept : List Json) :
    firstArray (putFirstArray kept fields) = some kept := by
  induction fields with
  | nil => simp [firstArray] at harray
  | cons field rest ih =>
      obtain ⟨key, value⟩ := field
      cases hvalue : value.asArray with
      | none =>
          simp only [firstArray, hvalue] at harray
          simp only [putFirstArray, hvalue, firstArray]
          exact ih harray
      | some old => simp [putFirstArray, hvalue, firstArray]

theorem putFirstArray_putFirstArray
    (fields : JsonObject) (first second : List Json) :
    putFirstArray second (putFirstArray first fields) =
      putFirstArray second fields := by
  induction fields with
  | nil => rfl
  | cons field rest ih =>
      obtain ⟨key, value⟩ := field
      cases hvalue : value.asArray with
      | none => simp [putFirstArray, hvalue, ih]
      | some old => simp [putFirstArray, hvalue]

theorem putFirstArray_self
    {fields : JsonObject} {items : List Json}
    (harray : firstArray fields = some items) :
    putFirstArray items fields = fields := by
  induction fields with
  | nil => rfl
  | cons field rest ih =>
      obtain ⟨key, value⟩ := field
      cases value with
      | arr old =>
          simp only [firstArray, Json.asArray, Option.some.injEq] at harray
          simp [putFirstArray, Json.asArray, harray]
      | null | bool | num | str | obj =>
          simp only [firstArray, Json.asArray] at harray
          simp [putFirstArray, Json.asArray, ih harray]

theorem length_putFirstArray (fields : JsonObject) (kept : List Json) :
    (putFirstArray kept fields).length = fields.length := by
  induction fields with
  | nil => rfl
  | cons field rest ih =>
      obtain ⟨key, value⟩ := field
      cases hvalue : value.asArray with
      | none => simp [putFirstArray, hvalue, ih]
      | some old => simp [putFirstArray, hvalue]

theorem fieldsLen_putFirstArray_mono
    (fields : JsonObject) (items : List Json) {m n : ℕ} (hle : m ≤ n) :
    Json.fieldsLen (putFirstArray (items.take m) fields) ≤
      Json.fieldsLen (putFirstArray (items.take n) fields) := by
  induction fields with
  | nil => rfl
  | cons field rest ih =>
      obtain ⟨key, value⟩ := field
      cases hvalue : value.asArray with
      | none =>
          simp only [putFirstArray, hvalue, Json.fieldsLen]
          omega
      | some old =>
          have hmono := Json.textLen_take_mono items hle
          simp only [putFirstArray, hvalue, Json.fieldsLen]
          omega

theorem topLevelArray_eq_some {value : Json} {items : List Json} :
    topLevelArray value = some items ↔
      ∃ fields, value = .obj fields ∧ firstArray fields = some items := by
  cases value <;> simp [topLevelArray, Json.asObject]

theorem topLevelArray_put
    {value : Json} {items : List Json}
    (harray : topLevelArray value = some items) (kept : List Json) :
    topLevelArray (putTopLevelArray kept value) = some kept := by
  obtain ⟨fields, rfl, hfirst⟩ := topLevelArray_eq_some.mp harray
  exact firstArray_putFirstArray hfirst kept

theorem put_put (value : Json) (first second : List Json) :
    putTopLevelArray second (putTopLevelArray first value) =
      putTopLevelArray second value := by
  cases value with
  | obj fields =>
      exact congrArg Json.obj (putFirstArray_putFirstArray fields first second)
  | null | bool | num | str | arr => rfl

theorem put_self
    {value : Json} {items : List Json}
    (harray : topLevelArray value = some items) :
    putTopLevelArray items value = value := by
  obtain ⟨fields, rfl, hfirst⟩ := topLevelArray_eq_some.mp harray
  exact congrArg Json.obj (putFirstArray_self hfirst)

/-- The payload with its array cut to a prefix. -/
def prefixed (value : Json) (items : List Json) (k : ℕ) : Json :=
  putTopLevelArray (items.take k) value

theorem serializedLen_prefixed_mono
    (value : Json) (items : List Json) {m n : ℕ} (hle : m ≤ n) :
    serializedLen (prefixed value items m) ≤
      serializedLen (prefixed value items n) := by
  unfold prefixed serializedLen
  cases value with
  | obj fields =>
      have hmono := fieldsLen_putFirstArray_mono fields items hle
      simp only [putTopLevelArray, Json.textLen, length_putFirstArray]
      omega
  | null | bool | num | str | arr => exact le_refl _

/-! ## Moving items to and from the spare stack -/

/-- The first `j` items on the shelf and the others in the spare stack. -/
def Shelf.split (items : List Json) (j : ℕ) : Shelf :=
  (items.take j, items.drop j)

theorem Shelf.shrink_split
    {items : List Json} {j : ℕ} (hj : j < items.length) :
    Shelf.shrink (Shelf.split items (j + 1)) = Shelf.split items j := by
  have htake : items.take (j + 1) = items.take j ++ [items[j]] := by
    rw [List.take_succ_eq_append_getElem hj]
  have hdrop : items.drop j = items[j] :: items.drop (j + 1) :=
    List.drop_eq_getElem_cons hj
  unfold Shelf.shrink Shelf.split
  rw [hdrop]
  simp only [htake, List.getLast?_concat, List.dropLast_concat]

theorem Shelf.grow_split
    {items : List Json} {j : ℕ} (hj : j < items.length) :
    Shelf.grow (Shelf.split items j) = Shelf.split items (j + 1) := by
  have htake : items.take (j + 1) = items.take j ++ [items[j]] := by
    rw [List.take_succ_eq_append_getElem hj]
  have hdrop : items.drop j = items[j] :: items.drop (j + 1) :=
    List.drop_eq_getElem_cons hj
  unfold Shelf.grow Shelf.split
  rw [htake, hdrop]

theorem Shelf.shrink_iterate
    {items : List Json} {n j : ℕ} (hj : j + n ≤ items.length) :
    Shelf.shrink^[n] (Shelf.split items (j + n)) = Shelf.split items j := by
  induction n with
  | zero => rfl
  | succ n ih =>
      rw [Function.iterate_succ_apply, ← Nat.add_assoc,
        Shelf.shrink_split (by omega)]
      exact ih (by omega)

theorem Shelf.grow_iterate
    {items : List Json} {n j : ℕ} (hj : j + n ≤ items.length) :
    Shelf.grow^[n] (Shelf.split items j) = Shelf.split items (j + n) := by
  induction n generalizing j with
  | zero => rfl
  | succ n ih =>
      rw [Function.iterate_succ_apply, Shelf.grow_split (by omega),
        ih (by omega)]
      congr 1
      omega

theorem Shelf.resize_split
    {items : List Json} {j k : ℕ}
    (hj : j ≤ items.length) (hk : k ≤ items.length) :
    Shelf.resize k (Shelf.split items j) = Shelf.split items k := by
  have hlen : ∀ n ≤ items.length, (Shelf.split items n).1.length = n := by
    intro n hn
    simp [Shelf.split, hn]
  unfold Shelf.resize
  rw [hlen j hj]
  by_cases hjk : j ≤ k
  · simp only [Nat.sub_eq_zero_of_le hjk, Function.iterate_zero_apply, hlen j hj]
    rw [Shelf.grow_iterate (by omega), Nat.add_sub_of_le hjk]
  · have hshrink :
        Shelf.shrink^[j - k] (Shelf.split items (k + (j - k))) =
          Shelf.split items k := Shelf.shrink_iterate (by omega)
    rw [Nat.add_sub_of_le (by omega)] at hshrink
    simp only [hshrink]
    rw [hlen k hk, Nat.sub_self, Function.iterate_zero_apply]

theorem setPrefix_prefixed
    {value : Json} {items : List Json} {j k : ℕ}
    (harray : topLevelArray value = some items)
    (hj : j ≤ items.length) (hk : k ≤ items.length) :
    setPrefix (prefixed value items j) (items.drop j) k =
      (prefixed value items k, items.drop k) := by
  have hresize := Shelf.resize_split hj hk
  unfold Shelf.split at hresize
  unfold setPrefix prefixed
  rw [topLevelArray_put harray]
  simp only [hresize, put_put]

/-! ## The bisection -/

/-- The payload with the first `k` items is within the byte cap. -/
def PrefixFits (value : Json) (items : List Json) (maxBytes k : ℕ) : Prop :=
  serializedLen (prefixed value items k) ≤ maxBytes

/-- Prefixes below `lo` fit and those from `hi` on do not. -/
structure Bisection.Narrows
    (value : Json) (items : List Json) (maxBytes : ℕ) (b : Bisection) : Prop where
  lo_le : b.lo ≤ b.hi
  hi_le : b.hi ≤ items.length
  shelved : ∃ j ≤ items.length,
    b.value = prefixed value items j ∧ b.spare = items.drop j
  below : ∀ k < b.lo, PrefixFits value items maxBytes k
  above : ∀ k, b.hi ≤ k → k ≤ items.length →
    ¬ PrefixFits value items maxBytes k

namespace Bisection.Narrows

variable {value : Json} {items : List Json} {maxBytes : ℕ} {b : Bisection}

theorem initial
    (harray : topLevelArray value = some items)
    (hlarge : maxBytes < serializedLen value) :
    Narrows value items maxBytes ⟨value, [], 0, items.length⟩ where
  lo_le := Nat.zero_le _
  hi_le := le_refl _
  shelved := by
    refine ⟨items.length, le_refl _, ?_, ?_⟩
    · unfold prefixed
      rw [List.take_length, put_self harray]
    · simp
  below := by simp
  above := by
    intro k hle hk
    have heq : k = items.length := le_antisymm hk hle
    unfold PrefixFits prefixed
    rw [heq, List.take_length, put_self harray]
    omega

theorem round
    (hnarrows : Narrows value items maxBytes b)
    (harray : topLevelArray value = some items) (hlt : b.lo < b.hi) :
    Narrows value items maxBytes (b.round maxBytes) ∧
      (b.round maxBytes).hi - (b.round maxBytes).lo < b.hi - b.lo := by
  obtain ⟨j, hj, hvalue, hspare⟩ := hnarrows.shelved
  have hle := hnarrows.hi_le
  have hmid : (b.lo + b.hi) / 2 ≤ items.length := by omega
  have hset :
      setPrefix b.value b.spare ((b.lo + b.hi) / 2) =
        (prefixed value items ((b.lo + b.hi) / 2),
          items.drop ((b.lo + b.hi) / 2)) := by
    rw [hvalue, hspare]
    exact setPrefix_prefixed harray hj hmid
  unfold Bisection.round
  simp only [hset]
  split
  · rename_i hfits
    refine ⟨⟨?_, hle, ⟨_, hmid, rfl, rfl⟩, ?_, hnarrows.above⟩, ?_⟩
    · show (b.lo + b.hi) / 2 + 1 ≤ b.hi
      omega
    · intro k hk
      have hk' : k ≤ (b.lo + b.hi) / 2 := Nat.lt_succ_iff.mp hk
      exact le_trans (serializedLen_prefixed_mono value items hk') hfits
    · show b.hi - ((b.lo + b.hi) / 2 + 1) < b.hi - b.lo
      omega
  · rename_i hover
    refine ⟨⟨?_, hmid, ⟨_, hmid, rfl, rfl⟩, hnarrows.below, ?_⟩, ?_⟩
    · show b.lo ≤ (b.lo + b.hi) / 2
      omega
    · intro k hk _ hfits
      exact hover (le_trans (serializedLen_prefixed_mono value items hk) hfits)
    · show (b.lo + b.hi) / 2 - b.lo < b.hi - b.lo
      omega

theorem loop
    (harray : topLevelArray value = some items) :
    ∀ {fuel : ℕ} {b : Bisection}, Narrows value items maxBytes b →
      b.hi - b.lo ≤ fuel →
      Narrows value items maxBytes (Bisection.loop maxBytes fuel b) ∧
        (Bisection.loop maxBytes fuel b).lo =
          (Bisection.loop maxBytes fuel b).hi := by
  intro fuel
  induction fuel with
  | zero =>
      intro b hnarrows hfuel
      have hle := hnarrows.lo_le
      exact ⟨hnarrows, by simp only [Bisection.loop]; omega⟩
  | succ fuel ih =>
      intro b hnarrows hfuel
      unfold Bisection.loop
      split
      · rename_i hlt
        obtain ⟨hround, hshorter⟩ := hnarrows.round harray hlt
        exact ih hround (by omega)
      · have hle := hnarrows.lo_le
        exact ⟨hnarrows, by omega⟩

end Bisection.Narrows

/-- `k` is the longest of the prefixes up to `len` that fits, or zero when
none does. -/
structure LongestFit
    (value : Json) (items : List Json) (maxBytes len k : ℕ) : Prop where
  le : k ≤ len
  fits : 0 < k → PrefixFits value items maxBytes k
  longest : ∀ j, k < j → j ≤ len → ¬ PrefixFits value items maxBytes j

theorem cutToBytes_spec
    {value : Json} {items : List Json}
    (harray : topLevelArray value = some items) (maxBytes : ℕ) :
    ∃ k, LongestFit value items maxBytes items.length k ∧
      cutToBytes value maxBytes items.length =
        (prefixed value items k, decide (k < items.length)) := by
  unfold cutToBytes
  split
  · rename_i hlarge
    obtain ⟨hnarrows, hmeet⟩ := Bisection.Narrows.loop harray
      (Bisection.Narrows.initial harray hlarge) (le_refl items.length)
    generalize Bisection.loop maxBytes items.length
      ⟨value, [], 0, items.length⟩ = b at hnarrows hmeet
    obtain ⟨j, hj, hvalue, hspare⟩ := hnarrows.shelved
    have hle := hnarrows.hi_le
    refine ⟨b.lo - 1, ⟨by omega, ?_, ?_⟩, ?_⟩
    · intro hpos
      exact hnarrows.below _ (by omega)
    · intro i hi hlen
      exact hnarrows.above i (by omega) hlen
    · simp only [hvalue, hspare, setPrefix_prefixed harray hj
        (show b.lo - 1 ≤ items.length by omega)]
  · rename_i hsmall
    have hwhole : prefixed value items items.length = value := by
      unfold prefixed
      rw [List.take_length, put_self harray]
    refine ⟨items.length, ⟨le_refl _, ?_, by omega⟩, by simp [hwhole]⟩
    intro _
    unfold PrefixFits
    rw [hwhole]
    omega

theorem prefixed_prefixed
    (value : Json) (items : List Json) {m k : ℕ} (hle : k ≤ m) :
    prefixed (prefixed value items m) (items.take m) k = prefixed value items k := by
  unfold prefixed
  rw [put_put, List.take_take, min_eq_left hle]

theorem applyCaps_spec
    {value : Json} {items : List Json}
    (harray : topLevelArray value = some items) (caps : OutputCaps) :
    ∃ k, LongestFit value items caps.maxBytes
        (min items.length caps.maxItems) k ∧
      applyCaps value caps =
        if k < items.length then markTruncated (prefixed value items k)
        else value := by
  have hcut : topLevelArray (prefixed value items caps.maxItems) =
      some (items.take caps.maxItems) := topLevelArray_put harray _
  obtain ⟨k, hlongest, hresult⟩ := cutToBytes_spec hcut caps.maxBytes
  have hlen : (items.take caps.maxItems).length =
      min items.length caps.maxItems := by
    rw [List.length_take, min_comm]
  have hle := hlongest.le
  rw [hlen] at hresult hle
  have hsame : ∀ j ≤ min items.length caps.maxItems,
      prefixed (prefixed value items caps.maxItems)
        (items.take caps.maxItems) j = prefixed value items j :=
    fun j hj => prefixed_prefixed value items (le_trans hj (min_le_right _ _))
  refine ⟨k, ⟨hle, ?_, ?_⟩, ?_⟩
  · intro hpos
    have hfits := hlongest.fits hpos
    unfold PrefixFits at hfits ⊢
    rwa [hsame k hle] at hfits
  · intro j hkj hj hfits
    refine hlongest.longest j hkj (hlen ▸ hj) ?_
    unfold PrefixFits at hfits ⊢
    rwa [hsame j hj]
  · unfold applyCaps
    rw [harray]
    simp only [show putTopLevelArray (items.take caps.maxItems) value =
      prefixed value items caps.maxItems from rfl, hresult, hsame k hle]
    by_cases hshort : k < items.length
    · have htruncated : (decide (caps.maxItems < items.length) ||
          decide (k < min items.length caps.maxItems)) = true := by
        by_cases hitems : caps.maxItems < items.length
        · simp [hitems]
        · simp [show k < min items.length caps.maxItems by omega]
      rw [if_pos htruncated, if_pos hshort]
    · have hall : k = items.length := by omega
      have hkept : ¬ (decide (caps.maxItems < items.length) ||
          decide (k < min items.length caps.maxItems)) = true := by
        simp only [Bool.or_eq_true, decide_eq_true_eq]
        omega
      rw [if_neg hkept, if_neg hshort, hall]
      unfold prefixed
      rw [List.take_length, put_self harray]

theorem LongestFit.lt_iff
    {value : Json} {items : List Json} {caps : OutputCaps} {k : ℕ}
    (harray : topLevelArray value = some items)
    (hlongest : LongestFit value items caps.maxBytes
      (min items.length caps.maxItems) k) :
    k < items.length ↔
      items ≠ [] ∧
        (caps.maxItems < items.length ∨ caps.maxBytes < serializedLen value) := by
  have hwhole : PrefixFits value items caps.maxBytes items.length ↔
      serializedLen value ≤ caps.maxBytes := by
    unfold PrefixFits prefixed
    rw [List.take_length, put_self harray]
  have hle := hlongest.le
  constructor
  · intro hlt
    refine ⟨List.ne_nil_of_length_pos (by omega), ?_⟩
    by_cases hitems : caps.maxItems < items.length
    · exact Or.inl hitems
    · right
      have hover := hlongest.longest items.length hlt (by omega)
      rw [hwhole] at hover
      omega
  · rintro ⟨hne, hitems | hbytes⟩
    · omega
    · by_contra hnot
      have hk : k = items.length := by omega
      have hpos : 0 < k := hk ▸ List.length_pos_iff.mpr hne
      have hfits := hlongest.fits hpos
      rw [hk, hwhole] at hfits
      omega

/-! ## Whether a cut is marked -/

/-- The number of elements of all arrays among the values of the fields. -/
def countElements : JsonObject → ℕ
  | [] => 0
  | (_, value) :: rest => (value.asArray.getD []).length + countElements rest

def arrayElements (value : Json) : ℕ :=
  countElements (value.asObject.getD [])

def paginationObject (value : Json) : Option JsonObject :=
  value.asObject.bind fun fields =>
    (JsonObject.get fields "pagination").bind Json.asObject

/-- The payload says that it was truncated and what to do about it. -/
def reportsCut (value : Json) : Bool :=
  match paginationObject value with
  | some pagination =>
      decide (pagination.get "truncated" = some (.bool true)) &&
        ((pagination.get "hint").bind Json.asStr).isSome
  | none => false

theorem countElements_putFirstArray
    {fields : JsonObject} {items : List Json}
    (harray : firstArray fields = some items) (kept : List Json) :
    countElements (putFirstArray kept fields) + items.length =
      countElements fields + kept.length := by
  induction fields with
  | nil => simp [firstArray] at harray
  | cons field rest ih =>
      obtain ⟨key, value⟩ := field
      cases hvalue : value.asArray with
      | none =>
          simp only [firstArray, hvalue] at harray
          have hrest := ih harray
          simp only [putFirstArray, hvalue, countElements]
          omega
      | some old =>
          simp only [firstArray, hvalue, Option.some.injEq] at harray
          subst harray
          simp only [putFirstArray, hvalue, countElements, Json.asArray_arr,
            Option.getD_some]
          omega

theorem arrayElements_prefixed
    {value : Json} {items : List Json}
    (harray : topLevelArray value = some items) {k : ℕ} (hk : k ≤ items.length) :
    arrayElements (prefixed value items k) + items.length =
      arrayElements value + k := by
  obtain ⟨fields, rfl, hfirst⟩ := topLevelArray_eq_some.mp harray
  have hcount := countElements_putFirstArray hfirst (items.take k)
  rw [List.length_take, min_eq_left hk] at hcount
  exact hcount

theorem countElements_update
    {fields : JsonObject} {key : String} {old new : JsonObject}
    (hget : JsonObject.get fields key = some (.obj old)) :
    countElements (JsonObject.update key (.obj new) fields) =
      countElements fields := by
  induction fields with
  | nil => simp [JsonObject.get] at hget
  | cons field rest ih =>
      obtain ⟨k, value⟩ := field
      rw [JsonObject.get_cons] at hget
      unfold JsonObject.update
      split
      · rename_i heq
        rw [if_pos heq, Option.some.injEq] at hget
        subst hget
        rfl
      · rename_i hne
        rw [if_neg hne] at hget
        simp only [countElements, ih hget]

theorem markTruncated_of_none
    {value : Json} (hnone : paginationObject value = none) :
    markTruncated value = value := by
  cases value with
  | obj fields =>
      cases hget : JsonObject.get fields "pagination" with
      | none => simp [markTruncated, hget]
      | some found =>
          cases found with
          | obj pagination =>
              simp [paginationObject, Json.asObject, hget] at hnone
          | null | bool | num | str | arr => simp [markTruncated, hget]
  | null | bool | num | str | arr => rfl

theorem markTruncated_of_some
    {value : Json} {pagination : JsonObject}
    (hsome : paginationObject value = some pagination) :
    ∃ fields, value = .obj fields ∧
      JsonObject.get fields "pagination" = some (.obj pagination) ∧
      markTruncated value =
        .obj (JsonObject.update "pagination" (.obj (markPagination pagination))
          fields) := by
  cases value with
  | obj fields =>
      cases hget : JsonObject.get fields "pagination" with
      | none => simp [paginationObject, Json.asObject, hget] at hsome
      | some found =>
          cases found with
          | obj inner =>
              have heq : inner = pagination := by
                simpa [paginationObject, Json.asObject, hget] using hsome
              subst heq
              exact ⟨fields, rfl, hget, by simp [markTruncated, hget]⟩
          | null | bool | num | str | arr =>
              simp [paginationObject, Json.asObject, hget] at hsome
  | null | bool | num | str | arr => simp [paginationObject, Json.asObject] at hsome

theorem firstArray_update
    {fields : JsonObject} {key : String} {old new : JsonObject}
    (hget : JsonObject.get fields key = some (.obj old)) :
    firstArray (JsonObject.update key (.obj new) fields) = firstArray fields := by
  induction fields with
  | nil => simp at hget
  | cons field rest ih =>
      obtain ⟨k, value⟩ := field
      rw [JsonObject.get_cons] at hget
      unfold JsonObject.update
      split
      · rename_i heq
        rw [if_pos heq, Option.some.injEq] at hget
        subst hget
        rfl
      · rename_i hne
        rw [if_neg hne] at hget
        simp only [firstArray, ih hget]

theorem topLevelArray_markTruncated (value : Json) :
    topLevelArray (markTruncated value) = topLevelArray value := by
  cases hpagination : paginationObject value with
  | none => rw [markTruncated_of_none hpagination]
  | some pagination =>
      obtain ⟨fields, rfl, hget, hmark⟩ := markTruncated_of_some hpagination
      rw [hmark]
      exact firstArray_update hget

theorem arrayElements_markTruncated (value : Json) :
    arrayElements (markTruncated value) = arrayElements value := by
  cases hpagination : paginationObject value with
  | none => rw [markTruncated_of_none hpagination]
  | some pagination =>
      obtain ⟨fields, rfl, hget, hmark⟩ := markTruncated_of_some hpagination
      rw [hmark]
      exact countElements_update hget

theorem paginationObject_markTruncated
    {value : Json} {pagination : JsonObject}
    (hsome : paginationObject value = some pagination) :
    paginationObject (markTruncated value) = some (markPagination pagination) := by
  obtain ⟨fields, rfl, hget, hmark⟩ := markTruncated_of_some hsome
  rw [hmark]
  simp [paginationObject, Json.asObject, JsonObject.get_update, hget]

theorem reportsCut_markTruncated (value : Json) :
    reportsCut (markTruncated value) = true ↔
      (paginationObject value).isSome = true := by
  cases hpagination : paginationObject value with
  | none =>
      rw [markTruncated_of_none hpagination]
      simp [reportsCut, hpagination]
  | some pagination =>
      have hmarked := paginationObject_markTruncated hpagination
      simp [reportsCut, hmarked, markPagination, JsonObject.get_insert, Json.asStr]

theorem get_putFirstArray_asObject
    (fields : JsonObject) (kept : List Json) (key : String) :
    (JsonObject.get (putFirstArray kept fields) key).bind Json.asObject =
      (JsonObject.get fields key).bind Json.asObject := by
  induction fields with
  | nil => rfl
  | cons field rest ih =>
      obtain ⟨k, value⟩ := field
      cases value with
      | arr old =>
          simp only [putFirstArray, Json.asArray_arr, JsonObject.get_cons]
          by_cases heq : key = k
          · simp [heq, Json.asObject]
          · simp [heq]
      | null | bool | num | str | obj =>
          simp only [putFirstArray, Json.asArray, JsonObject.get_cons]
          by_cases heq : key = k <;> simp [heq, ih]

theorem paginationObject_prefixed
    (value : Json) (items : List Json) (k : ℕ) :
    paginationObject (prefixed value items k) = paginationObject value := by
  cases value with
  | obj fields => exact get_putFirstArray_asObject fields _ "pagination"
  | null | bool | num | str | arr => rfl

/-- The payload is within both caps, or has nothing to drop. -/
def WithinCaps (value : Json) (caps : OutputCaps) : Prop :=
  ∀ items, topLevelArray value = some items →
    items = [] ∨
      (items.length ≤ caps.maxItems ∧ serializedLen value ≤ caps.maxBytes)

theorem not_withinCaps_iff
    {value : Json} {caps : OutputCaps} {items : List Json} {k : ℕ}
    (harray : topLevelArray value = some items)
    (hlongest : LongestFit value items caps.maxBytes
      (min items.length caps.maxItems) k) :
    WithinCaps value caps ↔ ¬ k < items.length := by
  rw [hlongest.lt_iff harray]
  unfold WithinCaps
  rw [harray]
  constructor
  · rintro hwithin ⟨hne, hcap⟩
    obtain hnil | ⟨hitems, hbytes⟩ := hwithin items rfl
    · exact hne hnil
    · omega
  · intro hnot items' heq
    cases heq
    by_cases hnil : items = []
    · exact Or.inl hnil
    · right
      have hcaps := fun hcap => hnot ⟨hnil, hcap⟩
      constructor
      · by_contra hitems
        exact hcaps (Or.inl (by omega))
      · by_contra hbytes
        exact hcaps (Or.inr (by omega))

/-- A response that lost array elements says so, exactly when the payload has
a pagination object to say it in or lost nothing in the first place. -/
theorem cut_is_reported_iff (payload : Json) (caps : OutputCaps) :
    (arrayElements (ok payload caps).structuredContent < arrayElements payload →
        reportsCut (ok payload caps).structuredContent = true) ↔
      (paginationObject payload).isSome = true ∨ WithinCaps payload caps := by
  show (arrayElements (applyCaps payload caps) < _ →
    reportsCut (applyCaps payload caps) = true) ↔ _
  cases harray : topLevelArray payload with
  | none =>
      have hsame : applyCaps payload caps = payload := by
        unfold applyCaps
        rw [harray]
      have hwithin : WithinCaps payload caps := by
        intro items hitems
        rw [harray] at hitems
        exact absurd hitems (by simp)
      rw [hsame]
      simp [hwithin]
  | some items =>
      obtain ⟨k, hlongest, hresult⟩ := applyCaps_spec harray caps
      rw [not_withinCaps_iff harray hlongest, hresult]
      by_cases hshort : k < items.length
      · have hcount := arrayElements_prefixed harray (le_of_lt hshort)
        have hlost : arrayElements (markTruncated (prefixed payload items k)) <
            arrayElements payload := by
          rw [arrayElements_markTruncated]
          omega
        rw [if_pos hshort, reportsCut_markTruncated, paginationObject_prefixed]
        simp [hlost, hshort]
      · rw [if_neg hshort]
        simp [hshort]

/-! ## A payload without pagination -/

/-- The outcome of one entry of an import; the created entry is given by its
serialized form. -/
structure ImportEntryResult where
  index : ℕ
  attempted : Bool
  success : Bool
  timeEntry : Option Json
  error : Option String

structure ImportTimeEntriesOutput where
  total : ℕ
  attempted : ℕ
  succeeded : ℕ
  failed : ℕ
  results : List ImportEntryResult

def ImportEntryResult.toValue (result : ImportEntryResult) : Json :=
  .obj (JsonObject.ofFields
    [("index", Pagination.number result.index),
      ("attempted", .bool result.attempted), ("success", .bool result.success),
      ("time_entry", result.timeEntry.getD .null),
      ("error", optionToValue Json.str result.error)])

def ImportTimeEntriesOutput.toValue (output : ImportTimeEntriesOutput) : Json :=
  .obj (JsonObject.ofFields
    [("total", Pagination.number output.total),
      ("attempted", Pagination.number output.attempted),
      ("succeeded", Pagination.number output.succeeded),
      ("failed", Pagination.number output.failed),
      ("results", .arr (output.results.map ImportEntryResult.toValue))])

theorem paginationObject_importTimeEntries (output : ImportTimeEntriesOutput) :
    paginationObject output.toValue = none := by
  simp [ImportTimeEntriesOutput.toValue, paginationObject, Json.asObject,
    JsonObject.ofFields, JsonObject.get_insert]

namespace Sample

/-- Two entries, both refused by Redmine. -/
def refusedImport : ImportTimeEntriesOutput where
  total := 2
  attempted := 2
  succeeded := 0
  failed := 2
  results :=
    [⟨0, true, false, none, some "Forbidden"⟩,
      ⟨1, true, false, none, some "Forbidden"⟩]

/-- Under an item cap of one the second outcome disappears without a word. -/
theorem import_outcome_cut_silently :
    ¬ (arrayElements (ok refusedImport.toValue ⟨1, 262144⟩).structuredContent <
          arrayElements refusedImport.toValue →
        reportsCut (ok refusedImport.toValue ⟨1, 262144⟩).structuredContent =
          true) := by
  decide +kernel

end Sample

end RuprogressMcp
