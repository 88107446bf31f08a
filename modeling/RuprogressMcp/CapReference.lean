import RuprogressMcp.OutputCapping
import RuprogressMcp.RustText

/-!
# The plain capping loop, and the size of a capped payload

`apply_caps_reference` pops one item after the other and serialises again, to
the text itself, until the payload fits.  It stops at the prefix that the bisection finds, so
both leave the same value behind.  The prefix is chosen before the mark of the
cut is written, so the capped payload is within the byte cap exactly when the
chosen prefix leaves room for the mark.
-/

namespace RuprogressMcp

/-! ## The text of a payload -/

/-- A character inside a string literal. -/
def escaped (c : Char) : List Char :=
  if c = '"' then ['\\', '"']
  else if c = '\\' then ['\\', '\\']
  else if c = '\n' then ['\\', 'n']
  else if c = '\r' then ['\\', 'r']
  else if c = '\t' then ['\\', 't']
  else if c.val = 8 then ['\\', 'b']
  else if c.val = 12 then ['\\', 'f']
  else if c.val < 32 then
    ['\\', 'u', '0', '0', Nat.digitChar (c.toNat / 16),
      Nat.digitChar (c.toNat % 16)]
  else [c]

def quoted (s : String) : List Char :=
  '"' :: s.toList.flatMap escaped ++ ['"']

def numberText : JsonNumber → List Char
  | .posInt n => Nat.toDigits 10 n.toNat
  | .negInt n => '-' :: Nat.toDigits 10 n.toInt.natAbs
  | .float text => text.toList

mutual

/-- The compact text of a value. -/
def compact : Json → List Char
  | .null => ['n', 'u', 'l', 'l']
  | .bool true => ['t', 'r', 'u', 'e']
  | .bool false => ['f', 'a', 'l', 's', 'e']
  | .num n => numberText n
  | .str s => quoted s
  | .arr items => '[' :: compactItems items ++ [']']
  | .obj fields => '{' :: compactFields fields ++ ['}']

def compactItems : List Json → List Char
  | [] => []
  | [item] => compact item
  | item :: next :: rest => compact item ++ ',' :: compactItems (next :: rest)

def compactFields : JsonObject → List Char
  | [] => []
  | [(key, value)] => quoted key ++ ':' :: compact value
  | (key, value) :: next :: rest =>
      quoted key ++ ':' :: compact value ++ ',' :: compactFields (next :: rest)

end

open RustText (byteLen)

theorem utf8Size_digitChar {n : ℕ} (hn : n < 16) :
    (Nat.digitChar n).utf8Size = 1 := by
  interval_cases n <;> decide

theorem byteLen_escaped (c : Char) : byteLen (escaped c) = escapedLen c := by
  unfold escaped escapedLen
  by_cases hquote : c = '"' ∨ c = '\\'
  · rcases hquote with rfl | rfl <;> decide
  obtain ⟨hquote, hslash⟩ := not_or.mp hquote
  rw [if_neg hquote, if_neg hslash, if_neg (not_or.mpr ⟨hquote, hslash⟩)]
  by_cases hshort : c = '\n' ∨ c = '\r' ∨ c = '\t' ∨ c.val = 8 ∨ c.val = 12
  · rw [if_pos hshort]
    split_ifs <;> first | decide | (exfalso; tauto)
  · rw [if_neg hshort]
    simp only [not_or] at hshort
    obtain ⟨hnewline, hreturn, htab, hback, hfeed⟩ := hshort
    rw [if_neg hnewline, if_neg hreturn, if_neg htab, if_neg hback,
      if_neg hfeed]
    split
    next hcontrol =>
      have hlt : c.toNat < 32 := hcontrol
      have hhigh := utf8Size_digitChar (show c.toNat / 16 < 16 by omega)
      have hlow := utf8Size_digitChar (Nat.mod_lt c.toNat (by decide : 0 < 16))
      have hplain : '\\'.utf8Size = 1 ∧ 'u'.utf8Size = 1 ∧
          '0'.utf8Size = 1 := by decide
      simp [byteLen, hhigh, hlow, hplain]
    next => simp [byteLen]

theorem byteLen_cons (c : Char) (text : List Char) :
    byteLen (c :: text) = c.utf8Size + byteLen text := by
  simp [byteLen]

theorem byteLen_quoted (s : String) : byteLen (quoted s) = stringLen s := by
  have hinner : ∀ text : List Char, byteLen (text.flatMap escaped) =
      (text.map escapedLen).sum := by
    intro text
    induction text with
    | nil => rfl
    | cons c rest ih =>
        rw [List.flatMap_cons, RustText.byteLen_append, byteLen_escaped, ih,
          List.map_cons, List.sum_cons]
  have hquote : '"'.utf8Size = 1 := by decide
  rw [quoted, RustText.byteLen_append, byteLen_cons, hinner, stringLen, hquote]
  have hlast : byteLen ['"'] = 1 := by decide
  omega

theorem byteLen_toDigits (n : ℕ) : byteLen (Nat.toDigits 10 n) = decimalLen n := by
  refine RustText.byteLen_eq_length fun c hc => ?_
  have hdigit := Nat.isDigit_of_mem_toDigits (by decide) (by decide) hc
  simp only [Char.isDigit, Bool.and_eq_true, decide_eq_true_eq, ge_iff_le]
    at hdigit
  have hsmall : c.val ≤ 127 := UInt32.le_trans hdigit.2 (by decide)
  simp [Char.utf8Size, hsmall]

theorem byteLen_numberText (n : JsonNumber) :
    byteLen (numberText n) = n.textLen := by
  have hminus : '-'.utf8Size = 1 := by decide
  cases n with
  | posInt n => exact byteLen_toDigits n.toNat
  | negInt n =>
      rw [numberText, byteLen_cons, byteLen_toDigits, hminus]
      rfl
  | float text => exact (RustText.utf8ByteSize_eq_byteLen text).symm

mutual

/-- The text is as long as the writer counts without building it. -/
theorem byteLen_compact : (value : Json) →
    byteLen (compact value) = value.textLen
  | .null => by decide
  | .bool true => by decide
  | .bool false => by decide
  | .num n => by
      rw [compact, byteLen_numberText, Json.textLen]
  | .str s => by
      rw [compact, byteLen_quoted, Json.textLen]
  | .arr items => by
      have hopen : '['.utf8Size = 1 := by decide
      have hclose : byteLen [']'] = 1 := by decide
      rw [compact, RustText.byteLen_append, byteLen_cons, hopen, hclose,
        byteLen_compactItems items, Json.textLen]
      omega
  | .obj fields => by
      have hopen : '{'.utf8Size = 1 := by decide
      have hclose : byteLen ['}'] = 1 := by decide
      rw [compact, RustText.byteLen_append, byteLen_cons, hopen, hclose,
        byteLen_compactFields fields, Json.textLen]
      omega

theorem byteLen_compactItems : (items : List Json) →
    byteLen (compactItems items) =
      Json.itemsLen items + (items.length - 1)
  | [] => rfl
  | [item] => by
      simp [compactItems, Json.itemsLen, byteLen_compact item]
  | item :: next :: rest => by
      have hcomma : ','.utf8Size = 1 := by decide
      rw [compactItems, RustText.byteLen_append, byteLen_cons, hcomma,
        byteLen_compact item, byteLen_compactItems (next :: rest)]
      simp only [Json.itemsLen, List.length_cons]
      omega

theorem byteLen_compactFields : (fields : JsonObject) →
    byteLen (compactFields fields) =
      Json.fieldsLen fields + (fields.length - 1)
  | [] => rfl
  | [(key, value)] => by
      have hcolon : ':'.utf8Size = 1 := by decide
      rw [compactFields, RustText.byteLen_append, byteLen_cons, hcolon,
        byteLen_quoted, byteLen_compact value]
      simp only [Json.fieldsLen, List.length_cons, List.length_nil]
      omega
  | (key, value) :: next :: rest => by
      have hcolon : ':'.utf8Size = 1 := by decide
      have hcomma : ','.utf8Size = 1 := by decide
      rw [compactFields, RustText.byteLen_append, RustText.byteLen_append,
        byteLen_cons, byteLen_cons, hcolon, hcomma, byteLen_quoted,
        byteLen_compact value, byteLen_compactFields (next :: rest)]
      simp only [Json.fieldsLen, List.length_cons]
      omega

end

/-! ## Popping until it fits -/

/-- Drop the last item of the array while the payload exceeds the cap. -/
def popLoop (maxBytes : ℕ) (value : Json) (truncated : Bool) : Json × Bool :=
  if byteLen (compact value) ≤ maxBytes then (value, truncated)
  else
    match _harray : topLevelArray value with
    | none => (value, truncated)
    | some items =>
        if _hempty : items = [] then (value, truncated)
        else popLoop maxBytes (putTopLevelArray items.dropLast value) true
termination_by ((topLevelArray value).getD []).length
decreasing_by
  have hpos := List.length_pos_iff.mpr _hempty
  rw [topLevelArray_put _harray, _harray]
  simp only [Option.getD_some, List.length_dropLast]
  omega

/-- The mark that the plain loop leaves in the pagination object. -/
def markReference (value : Json) : Json :=
  match (value.asObject.bind fun object =>
      JsonObject.get object "pagination").bind Json.asObject with
  | none => value
  | some pagination =>
      let marked := (pagination.insert "truncated" (.bool true)).insert "hint"
        (.str truncationHint)
      .obj (JsonObject.update "pagination" (.obj marked)
        (value.asObject.getD []))

theorem markReference_eq (value : Json) :
    markReference value = markTruncated value := by
  cases value with
  | obj fields =>
      simp only [markReference, markTruncated, Json.asObject, Option.bind_some,
        Option.getD_some]
      cases hget : JsonObject.get fields "pagination" with
      | none => rfl
      | some found => cases found <;> rfl
  | _ => rfl

def applyCapsReference (value : Json) (caps : OutputCaps) : Json :=
  match topLevelArray value with
  | none => value
  | some items =>
      let cut := putTopLevelArray (items.take caps.maxItems) value
      let (result, truncated) :=
        popLoop caps.maxBytes cut (decide (caps.maxItems < items.length))
      if truncated then markReference result else result

theorem LongestFit.unique
    {value : Json} {items : List Json} {maxBytes len k k' : ℕ}
    (hfirst : LongestFit value items maxBytes len k)
    (hsecond : LongestFit value items maxBytes len k') : k = k' := by
  rcases lt_trichotomy k k' with hlt | heq | hgt
  · exact absurd (hsecond.fits (by omega)) (hfirst.longest k' hlt hsecond.le)
  · exact heq
  · exact absurd (hfirst.fits (by omega)) (hsecond.longest k hgt hfirst.le)

theorem LongestFit.of_succ
    {value : Json} {items : List Json} {maxBytes len k : ℕ}
    (hlongest : LongestFit value items maxBytes (len + 1) k)
    (hover : ¬ PrefixFits value items maxBytes (len + 1)) :
    LongestFit value items maxBytes len k := by
  have hne : k ≠ len + 1 := by
    rintro rfl
    exact hover (hlongest.fits (by omega))
  have hle := hlongest.le
  exact ⟨by omega, hlongest.fits,
    fun j hj hjlen => hlongest.longest j hj (by omega)⟩

theorem popLoop_prefixed
    {value : Json} {items : List Json}
    (harray : topLevelArray value = some items) {maxBytes len k : ℕ}
    (hlen : len ≤ items.length)
    (hlongest : LongestFit value items maxBytes len k) (truncated : Bool) :
    popLoop maxBytes (prefixed value items len) truncated =
      (prefixed value items k, truncated || decide (k < len)) := by
  induction len generalizing truncated with
  | zero =>
      have hk : k = 0 := Nat.le_zero.mp hlongest.le
      subst hk
      have hnil : topLevelArray (prefixed value items 0) = some [] :=
        topLevelArray_put harray _
      rw [popLoop]
      split
      · simp
      · split
        · simp
        · rename_i found hfound
          rw [hnil] at hfound
          cases hfound
          simp
  | succ len ih =>
      have hshelf : topLevelArray (prefixed value items (len + 1)) =
          some (items.take (len + 1)) := topLevelArray_put harray _
      rw [popLoop]
      split
      · rename_i hfits
        rw [byteLen_compact] at hfits
        have hk : k = len + 1 := by
          by_contra hne
          have hle := hlongest.le
          exact hlongest.longest (len + 1) (by omega) le_rfl hfits
        simp [hk]
      · rename_i hover
        rw [byteLen_compact] at hover
        have hnext := hlongest.of_succ hover
        have hle := hnext.le
        split
        · rename_i hnone
          rw [hshelf] at hnone
          cases hnone
        · rename_i found hfound
          rw [hshelf] at hfound
          cases hfound
          have hne : items.take (len + 1) ≠ [] := by
            apply List.ne_nil_of_length_pos
            rw [List.length_take]
            omega
          have hdrop : (items.take (len + 1)).dropLast = items.take len := by
            rw [List.dropLast_eq_take, List.length_take, List.take_take]
            congr 1
            omega
          have hpopped : putTopLevelArray (items.take (len + 1)).dropLast
              (prefixed value items (len + 1)) = prefixed value items len := by
            rw [hdrop, prefixed, put_put, prefixed]
          rw [dif_neg hne, hpopped, ih (by omega) hnext]
          simp [show k < len + 1 by omega]

/-- Bisection and popping leave the same value behind. -/
theorem applyCaps_eq_reference (value : Json) (caps : OutputCaps) :
    applyCaps value caps = applyCapsReference value caps := by
  cases harray : topLevelArray value with
  | none => simp [applyCaps, applyCapsReference, harray]
  | some items =>
      obtain ⟨k, hlongest, hresult⟩ := applyCaps_spec harray caps
      have hle := hlongest.le
      have hcut : prefixed value items caps.maxItems =
          prefixed value items (min items.length caps.maxItems) := by
        have htake : items.take caps.maxItems =
            items.take (min items.length caps.maxItems) := by
          rw [List.take_eq_take_iff]
          omega
        rw [prefixed, htake, prefixed]
      have hpopped := popLoop_prefixed harray (min_le_left _ _) hlongest
        (decide (caps.maxItems < items.length))
      rw [hresult, applyCapsReference, harray]
      simp only [show putTopLevelArray (items.take caps.maxItems) value =
        prefixed value items caps.maxItems from rfl, hcut, hpopped]
      by_cases hshort : k < items.length
      · have hmark : (decide (caps.maxItems < items.length) ||
            decide (k < min items.length caps.maxItems)) = true := by
          simp only [Bool.or_eq_true, decide_eq_true_eq]
          omega
        rw [if_pos hshort, if_pos hmark, markReference_eq]
      · have hkept : ¬ (decide (caps.maxItems < items.length) ||
            decide (k < min items.length caps.maxItems)) = true := by
          simp only [Bool.or_eq_true, decide_eq_true_eq]
          omega
        have hwhole : prefixed value items k = value := by
          rw [show k = items.length by omega, prefixed, List.take_length,
            put_self harray]
        rw [if_neg hshort, if_neg hkept, hwhole]

/-! ## The size of the mark -/

theorem fieldsLen_update
    {fields : JsonObject} {key : String} {old : Json}
    (hget : fields.get key = some old) (new : Json) :
    (JsonObject.update key new fields).length = fields.length ∧
      Json.fieldsLen (JsonObject.update key new fields) + old.textLen =
        Json.fieldsLen fields + new.textLen := by
  induction fields with
  | nil => simp at hget
  | cons field rest ih =>
      obtain ⟨k, value⟩ := field
      rw [JsonObject.get_cons] at hget
      unfold JsonObject.update
      split
      · rename_i heq
        rw [if_pos heq] at hget
        cases hget
        simp only [List.length_cons, Json.fieldsLen, true_and]
        omega
      · rename_i hne
        rw [if_neg hne] at hget
        obtain ⟨hlength, hsize⟩ := ih hget
        simp only [List.length_cons, Json.fieldsLen, hlength, true_and]
        omega

/-- The bytes that the mark adds to a payload. -/
def markGrowth (value : Json) : ℤ :=
  match paginationObject value with
  | some pagination =>
      (Json.obj (markPagination pagination)).textLen -
        (Json.obj pagination).textLen
  | none => 0

theorem serializedLen_markTruncated (value : Json) :
    (serializedLen (markTruncated value) : ℤ) =
      serializedLen value + markGrowth value := by
  unfold markGrowth
  cases hpagination : paginationObject value with
  | none => simp [markTruncated_of_none hpagination]
  | some pagination =>
      obtain ⟨fields, rfl, hget, hmark⟩ := markTruncated_of_some hpagination
      obtain ⟨hlength, hsize⟩ :=
        fieldsLen_update hget (.obj (markPagination pagination))
      rw [hmark]
      simp only [serializedLen, Json.textLen, hlength] at hsize ⊢
      omega

/-! ## Whether a capped payload is within the caps -/

/-- A payload that is not cut fits as it is, and the longest prefix that fits
leaves free what the mark of the cut adds. -/
def RoomForMark (payload : Json) (caps : OutputCaps) : Prop :=
  (WithinCaps payload caps → serializedLen payload ≤ caps.maxBytes) ∧
    ∀ items k, topLevelArray payload = some items →
      LongestFit payload items caps.maxBytes
        (min items.length caps.maxItems) k →
      0 < k → k < items.length →
      (serializedLen (prefixed payload items k) : ℤ) + markGrowth payload ≤
        caps.maxBytes

theorem length_topLevelArray_applyCaps
    {payload : Json} {caps : OutputCaps} {kept : List Json}
    (hkept : topLevelArray (applyCaps payload caps) = some kept) :
    kept.length ≤ caps.maxItems := by
  cases harray : topLevelArray payload with
  | none => simp [applyCaps, harray] at hkept
  | some items =>
      obtain ⟨k, hlongest, hresult⟩ := applyCaps_spec harray caps
      have hle := hlongest.le
      rw [hresult] at hkept
      split at hkept
      · rw [topLevelArray_markTruncated, prefixed,
          topLevelArray_put harray] at hkept
        cases hkept
        rw [List.length_take]
        omega
      · rw [harray] at hkept
        cases hkept
        omega

/-- Where the emptied and marked payload fits, capping keeps to both caps
exactly when there is room for the mark. -/
theorem applyCaps_within_caps_iff
    (fields : JsonObject) (caps : OutputCaps)
    (hempty : serializedLen
      (markTruncated (putTopLevelArray [] (.obj fields))) ≤ caps.maxBytes) :
    (serializedLen (applyCaps (.obj fields) caps) ≤ caps.maxBytes ∧
        ∀ kept, topLevelArray (applyCaps (.obj fields) caps) = some kept →
          kept.length ≤ caps.maxItems) ↔
      RoomForMark (.obj fields) caps := by
  generalize Json.obj fields = payload at hempty ⊢
  have hitems : ∀ kept, topLevelArray (applyCaps payload caps) = some kept →
      kept.length ≤ caps.maxItems :=
    fun _ hkept => length_topLevelArray_applyCaps hkept
  rw [and_iff_left hitems]
  unfold RoomForMark
  cases harray : topLevelArray payload with
  | none =>
      have hwithin : WithinCaps payload caps := by
        intro items hsome
        simp [harray] at hsome
      simp [applyCaps, harray, hwithin]
  | some items =>
      obtain ⟨k, hlongest, hresult⟩ := applyCaps_spec harray caps
      rw [hresult, not_withinCaps_iff harray hlongest]
      by_cases hshort : k < items.length
      · have hsize := serializedLen_markTruncated (prefixed payload items k)
        have hgrowth : markGrowth (prefixed payload items k) =
            markGrowth payload := by
          unfold markGrowth
          rw [paginationObject_prefixed]
        rw [if_pos hshort]
        constructor
        · intro hfits
          refine ⟨fun hnot => absurd hshort hnot, ?_⟩
          intro found j hfound hother _ _
          cases hfound
          cases hlongest.unique hother
          omega
        · rintro ⟨-, hroom⟩
          rcases Nat.eq_zero_or_pos k with rfl | hpos
          · exact hempty
          · have := hroom items k rfl hlongest hpos hshort
            omega
      · rw [if_neg hshort]
        constructor
        · intro hfits
          refine ⟨fun _ => hfits, ?_⟩
          intro found j hfound hother _ hcut
          cases hfound
          cases hlongest.unique hother
          exact absurd hcut hshort
        · rintro ⟨hwhole, -⟩
          exact hwhole hshort

namespace Sample

def longText : Json := .str (String.ofList (List.replicate 120 'x'))

/-- Two items, each shorter than the mark, and a pagination object. -/
def twoItems : JsonObject :=
  [("items", .arr [longText, longText]), ("pagination", .obj [])]

theorem marked_payload_exceeds_cap :
    serializedLen (markTruncated (putTopLevelArray [] (.obj twoItems))) ≤ 200 ∧
      200 < serializedLen (applyCaps (.obj twoItems) ⟨10, 200⟩) := by
  decide +kernel

theorem one_item_leaves_room :
    serializedLen (applyCaps (.obj twoItems) ⟨1, 320⟩) ≤ 320 ∧
      RoomForMark (.obj twoItems) ⟨1, 320⟩ :=
  ⟨by decide +kernel,
    (applyCaps_within_caps_iff twoItems ⟨1, 320⟩ (by decide +kernel)).mp
      ⟨by decide +kernel, fun _ hkept => length_topLevelArray_applyCaps hkept⟩⟩

end Sample

end RuprogressMcp
