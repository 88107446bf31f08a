import RuprogressMcp.OutputCapping
import RuprogressMcp.RedminePages

/-!
# Paging through a list tool

A caller reads a list by calling its tool from offset zero and then with the
`next_offset` of the previous response until that is null.  The offset is
computed from the page that was fetched, before the response caps shorten it,
so the caller gets the whole list exactly when no page on the way exceeds a
cap: whatever the caps drop is skipped.
-/

namespace RuprogressMcp

theorem firstArray_eq_of_unique
    {fields : JsonObject} {items : List Json} {key : String}
    (hmem : (key, Json.arr items) ∈ fields)
    (hunique : ∀ field ∈ fields, ∀ found, field.2.asArray = some found →
      found = items) :
    firstArray fields = some items := by
  induction fields with
  | nil => simp at hmem
  | cons head rest ih =>
      obtain ⟨k, value⟩ := head
      cases hvalue : value.asArray with
      | some found =>
          simp only [firstArray, hvalue]
          exact congrArg some (hunique _ List.mem_cons_self found hvalue)
      | none =>
          simp only [firstArray, hvalue]
          obtain hhead | hrest := List.mem_cons.mp hmem
          · cases hhead
            simp at hvalue
          · exact ih hrest fun field hfield =>
              hunique field (List.mem_cons_of_mem _ hfield)

/-! ## The list tool -/

/-- The output struct of a list tool: one array field, the pagination and
possibly other fields, none of them an array. -/
structure ListShape where
  key : String
  siblings : List (String × Json)
  key_ne : key ≠ "pagination"
  siblings_ne : ∀ field ∈ siblings,
    field.1 ≠ key ∧ field.1 ≠ "pagination" ∧ field.2.asArray = none

namespace ListShape

variable (shape : ListShape)

def payload (items : List Json) (pagination : Pagination) : Json :=
  .obj (JsonObject.ofFields (shape.siblings ++
    [(shape.key, .arr items), ("pagination", .obj pagination.toObject)]))

theorem payload_get (items : List Json) (pagination : Pagination) :
    ∃ fields, shape.payload items pagination = .obj fields ∧
      JsonObject.get fields shape.key = some (.arr items) ∧
      JsonObject.get fields "pagination" = some (.obj pagination.toObject) := by
  refine ⟨_, rfl, ?_, ?_⟩
  · unfold JsonObject.ofFields
    rw [List.foldl_append]
    simp [JsonObject.get_insert, shape.key_ne]
  · unfold JsonObject.ofFields
    rw [List.foldl_append]
    simp [JsonObject.get_insert]

theorem topLevelArray_payload (items : List Json) (pagination : Pagination) :
    topLevelArray (shape.payload items pagination) = some items := by
  obtain ⟨fields, hpayload, hitems, -⟩ := shape.payload_get items pagination
  refine topLevelArray_eq_some.mpr ⟨fields, hpayload, ?_⟩
  refine firstArray_eq_of_unique (JsonObject.mem_of_get hitems) ?_
  intro field hfield found hfound
  have heq : fields = JsonObject.ofFields (shape.siblings ++
      [(shape.key, .arr items), ("pagination", .obj pagination.toObject)]) :=
    (Json.obj.inj hpayload).symm
  rw [heq] at hfield
  obtain hsibling | hown := List.mem_append.mp (JsonObject.mem_ofFields hfield)
  · rw [(shape.siblings_ne field hsibling).2.2] at hfound
    exact absurd hfound (by simp)
  · simp only [List.mem_cons, List.not_mem_nil, or_false] at hown
    obtain rfl | rfl := hown
    · exact (Option.some.inj hfound).symm
    · simp [Json.asArray] at hfound

theorem paginationObject_payload (items : List Json) (pagination : Pagination) :
    paginationObject (shape.payload items pagination) =
      some pagination.toObject := by
  obtain ⟨fields, hpayload, -, hpagination⟩ := shape.payload_get items pagination
  rw [hpayload]
  simp [paginationObject, Json.asObject, hpagination]

end ListShape

/-- One call of a list tool; the answer of Redmine is rendered item by item
beforehand. -/
def listTool {ε : Type} (shape : ListShape) (get : Endpoint ε Json)
    (toToolError : ε → CallToolResult) (caps : OutputCaps) (limit offset : ℕ) :
    CallToolResult :=
  match fetchPage get limit offset with
  | .ok page => ok (shape.payload page.items (Pagination.fromPage page)) caps
  | .error e => toToolError e

/-! ## The caller -/

def responseItems (result : CallToolResult) : List Json :=
  (topLevelArray result.structuredContent).getD []

def responseNextOffset (result : CallToolResult) : Option ℕ :=
  (paginationObject result.structuredContent).bind fun pagination =>
    (pagination.get "next_offset").bind Json.asU64

/-- Call the tool at an offset and follow `next_offset` until it is null; the
fuel bounds the number of calls. -/
def pageThrough (tool : ℕ → CallToolResult) : ℕ → ℕ → Option (List Json)
  | 0, _ => none
  | fuel + 1, offset =>
      let response := tool offset
      match responseNextOffset response with
      | none => some (responseItems response)
      | some next =>
          (pageThrough tool fuel next).map (responseItems response ++ ·)

/-! ## What one response carries -/

theorem get_markPagination_nextOffset (pagination : JsonObject) :
    JsonObject.get (markPagination pagination) "next_offset" =
      JsonObject.get pagination "next_offset" := by
  simp [markPagination, JsonObject.get_insert]

theorem get_toObject_nextOffset (pagination : Pagination) :
    JsonObject.get pagination.toObject "next_offset" =
      some (optionToValue Pagination.number pagination.nextOffset) := by
  unfold Pagination.toObject JsonObject.ofFields
  rw [List.foldl_append]
  cases pagination.hint <;> simp [JsonObject.get_insert]

theorem asU64_nextOffset {next : Option ℕ} (hnext : ∀ n ∈ next, n < 2 ^ 64) :
    (optionToValue Pagination.number next).asU64 = next := by
  cases next with
  | none => rfl
  | some n =>
      have hn := hnext n rfl
      simp [optionToValue, Pagination.number, Json.asU64,
        UInt64.toNat_ofNat_of_lt' hn]

theorem response_ok
    (shape : ListShape) (items : List Json) (pagination : Pagination)
    (caps : OutputCaps) (hnext : ∀ n ∈ pagination.nextOffset, n < 2 ^ 64) :
    ∃ k ≤ items.length,
      responseItems (ok (shape.payload items pagination) caps) = items.take k ∧
      responseNextOffset (ok (shape.payload items pagination) caps) =
        pagination.nextOffset ∧
      (WithinCaps (shape.payload items pagination) caps ↔ k = items.length) := by
  have harray := shape.topLevelArray_payload items pagination
  have hpagination := shape.paginationObject_payload items pagination
  have hread := asU64_nextOffset hnext
  obtain ⟨k, hlongest, hresult⟩ := applyCaps_spec harray caps
  have hle := hlongest.le
  refine ⟨k, by omega, ?_, ?_, ?_⟩
  · unfold responseItems ok
    rw [hresult]
    split
    · rw [topLevelArray_markTruncated]
      unfold prefixed
      rw [topLevelArray_put harray, Option.getD_some]
    · rw [harray, Option.getD_some, List.take_of_length_le (by omega)]
  · unfold responseNextOffset ok
    rw [hresult]
    split
    · rw [paginationObject_markTruncated
        ((paginationObject_prefixed _ _ _).trans hpagination)]
      simp [get_markPagination_nextOffset, get_toObject_nextOffset, hread]
    · simp [hpagination, get_toObject_nextOffset, hread]
  · rw [not_withinCaps_iff harray hlongest]
    omega

/-! ## The whole walk -/

section Walks

variable {ε : Type} (shape : ListShape) (listing : Listing Json)
  (caps : OutputCaps) (toToolError : ε → CallToolResult) (limit : ℕ)

/-- The page of the listing at an offset. -/
def Listing.page (offset : ℕ) : Page Json where
  items := listing.slice limit offset
  totalCount := listing.items.length
  offset := offset
  limit := limit
  truncated := false

/-- The payload of the call at an offset, before the caps. -/
def pagePayload (offset : ℕ) : Json :=
  shape.payload (listing.slice limit offset)
    (Pagination.fromPage (listing.page limit offset))

/-- The calls of a list tool over a faithful server. -/
def listCalls (offset : ℕ) : CallToolResult :=
  listTool shape listing.endpoint toToolError caps limit offset

theorem nextOffset_page {offset : ℕ} (hle : offset ≤ listing.items.length) :
    (Pagination.fromPage (listing.page limit offset)).nextOffset =
      if offset + limit < listing.items.length then some (offset + limit)
      else none := by
  have hcountable := listing.countable
  have hlength := listing.length_slice limit offset
  have hend : saturatingAdd offset (listing.slice limit offset).length =
      offset + min limit (listing.items.length - offset) := by
    unfold saturatingAdd
    rw [hlength]
    omega
  simp only [Pagination.fromPage, Listing.page, hend, decide_eq_true_eq]
  by_cases hmore : offset + limit < listing.items.length
  · have hmin : min limit (listing.items.length - offset) = limit := by omega
    rw [hmin]
  · rw [if_neg hmore, if_neg (by omega)]

theorem drop_eq_slice_append {offset : ℕ} :
    listing.items.drop offset =
      listing.slice limit offset ++ listing.items.drop (offset + limit) := by
  unfold Listing.slice
  rw [← List.drop_drop, List.take_append_drop]

/-- Every page from the given offset on is within the caps. -/
def PagesWithinCaps (offset : ℕ) : Prop :=
  ∀ start, offset ≤ start → start < listing.items.length →
    limit ∣ start - offset → WithinCaps (pagePayload shape listing limit start) caps

theorem pagesWithinCaps_iff {offset : ℕ}
    (hpos : 1 ≤ limit) (hlt : offset < listing.items.length) :
    PagesWithinCaps shape listing caps limit offset ↔
      WithinCaps (pagePayload shape listing limit offset) caps ∧
        PagesWithinCaps shape listing caps limit (offset + limit) := by
  constructor
  · intro hpages
    refine ⟨hpages offset (le_refl _) hlt (by simp), ?_⟩
    intro start hle hstart hdvd
    refine hpages start (by omega) hstart ?_
    have hsplit : start - offset = start - (offset + limit) + limit := by omega
    rw [hsplit]
    exact dvd_add hdvd (dvd_refl limit)
  · rintro ⟨hhead, hrest⟩ start hle hstart hdvd
    by_cases heq : start = offset
    · exact heq ▸ hhead
    · have hstep : limit ≤ start - offset := Nat.le_of_dvd (by omega) hdvd
      refine hrest start (by omega) hstart ?_
      have hsplit : start - (offset + limit) = start - offset - limit := by omega
      rw [hsplit]
      exact Nat.dvd_sub hdvd (dvd_refl limit)

theorem pagesWithinCaps_of_end {offset : ℕ}
    (hle : listing.items.length ≤ offset) :
    PagesWithinCaps shape listing caps limit offset := by
  intro start hstart hlt
  omega

/-- From any offset the walk ends, and what it has collected is the rest of
the list exactly when no page on the way exceeds a cap. -/
theorem pageThrough_spec (hpos : 1 ≤ limit) {fuel offset : ℕ}
    (hle : offset ≤ listing.items.length)
    (hfuel : listing.items.length - offset < fuel) :
    ∃ collected,
      pageThrough (listCalls shape listing caps toToolError limit) fuel offset =
        some collected ∧
      collected.length ≤ listing.items.length - offset ∧
      (collected = listing.items.drop offset ↔
        PagesWithinCaps shape listing caps limit offset) := by
  induction fuel generalizing offset with
  | zero => omega
  | succ fuel ih =>
      have hcountable := listing.countable
      have hlength := listing.length_slice limit offset
      have hnext := nextOffset_page listing limit hle
      obtain ⟨k, hk, hitems, hreported, hwithin⟩ := response_ok shape
        (listing.slice limit offset)
        (Pagination.fromPage (listing.page limit offset)) caps (by
          intro n hn
          rw [hnext, Option.mem_def] at hn
          split at hn
          · cases hn
            omega
          · cases hn)
      have hcall : listCalls shape listing caps toToolError limit offset =
          ok (pagePayload shape listing limit offset) caps := rfl
      unfold pageThrough
      simp only [hcall, pagePayload, hitems, hreported, hnext]
      by_cases hmore : offset + limit < listing.items.length
      · obtain ⟨rest, hrest, hbound, hiff⟩ := ih
          (show offset + limit ≤ listing.items.length by omega) (by omega)
        rw [if_pos hmore]
        refine ⟨(listing.slice limit offset).take k ++ rest, ?_, ?_, ?_⟩
        · simp [hrest]
        · rw [List.length_append, List.length_take]
          omega
        · rw [pagesWithinCaps_iff shape listing caps limit hpos (by omega),
            ← hiff, show WithinCaps (pagePayload shape listing limit offset) caps ↔
              k = (listing.slice limit offset).length from hwithin,
            drop_eq_slice_append listing limit]
          constructor
          · intro heq
            have hsum := congrArg List.length heq
            simp only [List.length_append, List.length_take, List.length_drop] at hsum
            have hfull : k = (listing.slice limit offset).length := by omega
            rw [hfull, List.take_length] at heq
            exact ⟨hfull, List.append_cancel_left heq⟩
          · rintro ⟨hfull, hdrop⟩
            rw [hfull, List.take_length, hdrop]
      · rw [if_neg hmore]
        have hlast : listing.slice limit offset = listing.items.drop offset := by
          unfold Listing.slice
          exact List.take_of_length_le (by simp; omega)
        refine ⟨(listing.slice limit offset).take k, rfl, ?_, ?_⟩
        · rw [List.length_take]
          omega
        · by_cases hlt : offset < listing.items.length
          · rw [pagesWithinCaps_iff shape listing caps limit hpos hlt,
              show WithinCaps (pagePayload shape listing limit offset) caps ↔
                k = (listing.slice limit offset).length from hwithin, ← hlast,
              and_iff_left (pagesWithinCaps_of_end shape listing caps limit
                (by omega))]
            constructor
            · intro heq
              have hsum := congrArg List.length heq
              rw [List.length_take] at hsum
              omega
            · intro hfull
              rw [hfull, List.take_length]
          · rw [iff_true_right (pagesWithinCaps_of_end shape listing caps limit
              (by omega)), ← hlast]
            have hnil : listing.slice limit offset = [] :=
              List.eq_nil_of_length_eq_zero (by omega)
            rw [hnil, List.take_nil]

/-- Following `next_offset` from the start yields the whole list, exactly when
every page on the way is within the response caps. -/
theorem paging_complete_iff (hpos : 1 ≤ limit) {fuel : ℕ}
    (hfuel : listing.items.length < fuel) :
    ∃ collected,
      pageThrough (listCalls shape listing caps toToolError limit) fuel 0 =
        some collected ∧
      (collected = listing.items ↔
        ∀ start < listing.items.length, limit ∣ start →
          WithinCaps (pagePayload shape listing limit start) caps) := by
  obtain ⟨collected, hcollected, -, hiff⟩ := pageThrough_spec shape listing caps
    toToolError limit hpos (Nat.zero_le _) (by simpa using hfuel)
  refine ⟨collected, hcollected, ?_⟩
  rw [List.drop_zero] at hiff
  rw [hiff]
  constructor
  · intro hpages start hlt hdvd
    exact hpages start (Nat.zero_le _) hlt hdvd
  · intro hpages start _ hlt hdvd
    exact hpages start hlt hdvd

end Walks

/-- Every page with a single item of the listing fits. -/
def SinglePagesFit (shape : ListShape) (listing : Listing Json)
    (caps : OutputCaps) : Prop :=
  1 ≤ caps.maxItems ∧ ∀ offset < listing.items.length,
    serializedLen (pagePayload shape listing 1 offset) ≤ caps.maxBytes

instance (shape : ListShape) (listing : Listing Json) (caps : OutputCaps) :
    Decidable (SinglePagesFit shape listing caps) :=
  inferInstanceAs (Decidable (_ ∧ _))

namespace Sample

def issuesShape : ListShape where
  key := "issues"
  siblings := []
  key_ne := by decide
  siblings_ne := by simp

def issue (id : ℕ) : Json := .obj [("id", Pagination.number id)]

def twoIssues : Listing Json := ⟨[issue 1, issue 2], by decide⟩

def unreachable (_ : Unit) : CallToolResult :=
  err .unreachable "Redmine is unreachable" none

theorem two_issues_paged :
    (∃ collected,
      pageThrough (listCalls issuesShape twoIssues ⟨200, 262144⟩ unreachable 1) 3 0 =
        some collected ∧
      (collected = twoIssues.items ↔
        ∀ start < twoIssues.items.length, 1 ∣ start →
          WithinCaps (pagePayload issuesShape twoIssues 1 start) ⟨200, 262144⟩)) ∧
    pageThrough (listCalls issuesShape twoIssues ⟨200, 262144⟩ unreachable 1) 3 0 =
      some twoIssues.items :=
  ⟨paging_complete_iff issuesShape twoIssues ⟨200, 262144⟩ unreachable 1
    (by decide) (by decide), by decide +kernel⟩

/-- An item cap of one drops the second issue of the only page, and no
`next_offset` leads back to it. -/
theorem second_issue_skipped :
    SinglePagesFit issuesShape twoIssues ⟨1, 262144⟩ ∧
      pageThrough (listCalls issuesShape twoIssues ⟨1, 262144⟩ unreachable 2) 3 0 =
        some [issue 1] ∧
      twoIssues.items ≠ [issue 1] := by
  decide +kernel

end Sample

end RuprogressMcp
