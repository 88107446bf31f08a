import RuprogressMcp.ToolOutput

/-!
# Pages of a Redmine collection

The two ways in which the client reads a list endpoint: one explicit page, or
a walk over all pages within its limits.  The walk uses one variable both as
the cursor of the next request and as the offset that it reports, so the page
it returns claims to start where it ended.
-/

namespace RuprogressMcp

/-- The pagination envelope of one response. -/
structure Envelope (α : Type) where
  items : List α
  totalCount : ℕ
  offset : ℕ
  limit : ℕ

/-- A list endpoint: the answer to a request for a limit and an offset. -/
abbrev Endpoint (ε α : Type) : Type := ℕ → ℕ → Except ε (Envelope α)

structure Limits where
  pageSize : ℕ
  maxPages : ℕ
  maxItems : ℕ

variable {ε α : Type}

def fetchPage (get : Endpoint ε α) (limit offset : ℕ) : Except ε (Page α) := do
  let envelope ← get limit offset
  return {
    items := envelope.items
    totalCount := envelope.totalCount
    offset := envelope.offset
    limit := envelope.limit
    truncated := false }

/-- The variables of the walk over all pages. -/
structure Walk (α : Type) where
  items : List α
  offset : ℕ
  totalCount : ℕ
  limitUsed : ℕ

def Walk.page (walk : Walk α) (truncated : Bool) : Page α where
  items := walk.items
  totalCount := walk.totalCount
  offset := walk.offset
  limit := walk.limitUsed
  truncated := truncated

/-- The loop of `fetch_all`; the number of pages that may still be fetched
decreases. -/
def fetchAllLoop (get : Endpoint ε α) (limits : Limits) :
    ℕ → Walk α → Except ε (Page α)
  | 0, walk => .ok (walk.page (decide (walk.offset < walk.totalCount)))
  | pagesLeft + 1, walk => do
      let envelope ← get limits.pageSize walk.offset
      let got := envelope.items.length
      let walk := { walk with
        totalCount := envelope.totalCount
        limitUsed := envelope.limit }
      if got = 0 then
        return walk.page (decide (walk.offset < walk.totalCount))
      let walk := { walk with items := walk.items ++ envelope.items }
      let newOffset := envelope.offset + got
      if 2 ^ 64 ≤ newOffset then
        return walk.page true
      if newOffset ≤ walk.offset then
        return walk.page true
      let walk := { walk with offset := newOffset }
      if walk.totalCount ≤ walk.offset then
        return walk.page false
      if limits.maxItems ≤ walk.items.length then
        return walk.page true
      fetchAllLoop get limits pagesLeft walk

def Walk.start (limits : Limits) : Walk α where
  items := []
  offset := 0
  totalCount := 0
  limitUsed := limits.pageSize

/-- Walk every page, subject to the limits. -/
def fetchAll (get : Endpoint ε α) (limits : Limits) : Except ε (Page α) :=
  fetchAllLoop get limits limits.maxPages (Walk.start limits)

/-! ## A faithful server -/

/-- A fixed collection whose size the `u64` total can express. -/
structure Listing (α : Type) where
  items : List α
  countable : items.length < 2 ^ 64

namespace Listing

variable (listing : Listing α)

def slice (limit offset : ℕ) : List α :=
  (listing.items.drop offset).take limit

/-- The answer to a request: the requested slice, at most `cap` items long,
with the offset, the limit and the total echoed. -/
def cappedEndpoint (cap : ℕ) : Endpoint ε α := fun limit offset =>
  .ok {
    items := listing.slice (min limit cap) offset
    totalCount := listing.items.length
    offset := offset
    limit := limit }

/-- The answer of a server without a cap of its own. -/
def endpoint : Endpoint ε α := fun limit offset =>
  .ok {
    items := listing.slice limit offset
    totalCount := listing.items.length
    offset := offset
    limit := limit }

theorem length_slice (limit offset : ℕ) :
    (listing.slice limit offset).length =
      min limit (listing.items.length - offset) := by
  simp [slice]

theorem take_append_slice {offset : ℕ} (limit : ℕ)
    (hle : offset ≤ listing.items.length) :
    listing.items.take offset ++ listing.slice limit offset =
      listing.items.take (offset + (listing.slice limit offset).length) := by
  rw [length_slice]
  unfold slice
  rw [List.take_add]
  congr 1
  by_cases hlimit : limit ≤ listing.items.length - offset
  · rw [min_eq_left hlimit]
  · rw [min_eq_right (by omega), List.take_of_length_le (by simp; omega),
      List.take_of_length_le (by simp)]

end Listing

/-! ## Where the walk ends -/

/-- The walk has collected the first `offset` items. -/
structure Walk.Collected (listing : Listing α) (walk : Walk α) : Prop where
  bound : walk.offset ≤ listing.items.length
  items : walk.items = listing.items.take walk.offset

/-- What a walk over a faithful server returns: the items before its cursor,
which only moves forward, and does move when a page can be read. -/
structure Walk.Ends
    (listing : Listing α) (step pagesLeft : ℕ) (walk : Walk α) (page : Page α) :
    Prop where
  items : page.items = listing.items.take page.offset
  forward : walk.offset ≤ page.offset
  bound : page.offset ≤ listing.items.length
  total : page.totalCount = walk.totalCount ∨
    page.totalCount = listing.items.length
  progress : 0 < pagesLeft → 0 < step → walk.offset < listing.items.length →
    walk.offset < page.offset

theorem fetchAllLoop_faithful
    (listing : Listing α) (limits : Limits) (cap pagesLeft : ℕ)
    {walk : Walk α} (hcollected : walk.Collected listing) :
    ∃ page, fetchAllLoop (ε := ε) (listing.cappedEndpoint cap) limits pagesLeft
        walk = .ok page ∧
      walk.Ends listing (min limits.pageSize cap) pagesLeft page := by
  induction pagesLeft generalizing walk with
  | zero =>
      exact ⟨_, rfl, hcollected.items, le_refl _, hcollected.bound, Or.inl rfl,
        fun hpages => absurd hpages (lt_irrefl 0)⟩
  | succ pagesLeft ih =>
      have hbound := hcollected.bound
      have hcountable := listing.countable
      have hlength := listing.length_slice (min limits.pageSize cap) walk.offset
      unfold fetchAllLoop
      simp only [Listing.cappedEndpoint, bind, Except.bind, pure, Except.pure]
      split
      · rename_i hgot
        refine ⟨_, rfl, hcollected.items, le_refl _, hbound, Or.inr rfl, ?_⟩
        intro _ hstep hmore
        omega
      · rename_i hgot
        rw [if_neg (by omega), if_neg (by omega)]
        have hnext : Walk.Collected listing
            { items := walk.items ++
                listing.slice (min limits.pageSize cap) walk.offset
              offset := walk.offset +
                (listing.slice (min limits.pageSize cap) walk.offset).length
              totalCount := listing.items.length
              limitUsed := limits.pageSize } := by
          constructor
          · show walk.offset + _ ≤ _
            omega
          · show walk.items ++ _ = _
            rw [hcollected.items]
            exact listing.take_append_slice _ hbound
        have hmoves : walk.offset < walk.offset +
            (listing.slice (min limits.pageSize cap) walk.offset).length := by
          omega
        split
        · exact ⟨_, rfl, hnext.items, le_of_lt hmoves, hnext.bound, Or.inr rfl,
            fun _ _ _ => hmoves⟩
        · split
          · exact ⟨_, rfl, hnext.items, le_of_lt hmoves, hnext.bound, Or.inr rfl,
              fun _ _ _ => hmoves⟩
          · obtain ⟨page, hpage, hends⟩ := ih hnext
            have hfurther := lt_of_lt_of_le hmoves hends.forward
            exact ⟨page, hpage, hends.items, le_of_lt hfurther, hends.bound,
              Or.inr (hends.total.elim id id), fun _ _ _ => hfurther⟩

/-- The pagination of a collection that starts at its first item and has
collected some number of its items. -/
structure TruthfulPagination (listing : Listing α) (page : Page α) : Prop where
  offset : page.offset = 0
  hasPrevious : (Pagination.fromPage page).hasPrevious = false
  previousOffset : (Pagination.fromPage page).previousOffset = none
  hasNext : (Pagination.fromPage page).hasNext = true ↔
    page.items.length < listing.items.length
  nextOffset : (Pagination.fromPage page).hasNext = true →
    (Pagination.fromPage page).nextOffset = some page.items.length

/-- The pagination of an auto-paged collection is truthful exactly when there
was nothing to collect. -/
theorem fetchAll_truthful_iff
    (listing : Listing α) (limits : Limits) (cap : ℕ)
    (hsize : 1 ≤ limits.pageSize) (hcap : 1 ≤ cap)
    (hpages : 1 ≤ limits.maxPages) :
    ∃ page, fetchAll (ε := ε) (listing.cappedEndpoint cap) limits = .ok page ∧
      (TruthfulPagination listing page ↔ listing.items = []) := by
  have hstart : (Walk.start limits : Walk α).Collected listing :=
    ⟨Nat.zero_le _, rfl⟩
  obtain ⟨page, hpage, hends⟩ :=
    fetchAllLoop_faithful (ε := ε) listing limits cap limits.maxPages hstart
  refine ⟨page, hpage, ?_⟩
  constructor
  · intro htruthful
    by_contra hne
    have hpos : 0 < listing.items.length := List.length_pos_iff.mpr hne
    have hmoved := hends.progress hpages (by omega) hpos
    rw [htruthful.offset] at hmoved
    exact absurd hmoved (Nat.not_lt_zero _)
  · intro hnil
    have hoffset : page.offset = 0 := by
      have hbound := hends.bound
      rw [hnil] at hbound
      exact Nat.le_zero.mp hbound
    have hitems : page.items = [] := by
      rw [hends.items, hnil, List.take_nil]
    have htotal : page.totalCount = 0 := by
      have htotal := hends.total
      rw [hnil] at htotal
      exact htotal.elim id id
    constructor
    · exact hoffset
    · simp [Pagination.fromPage, hoffset]
    · simp [Pagination.fromPage, hoffset]
    · simp [Pagination.fromPage, hitems, hnil, htotal]
    · simp [Pagination.fromPage, htotal]

namespace Sample

def threeProjects : Listing ℕ := ⟨[1, 2, 3], by decide⟩

def emptyListing : Listing ℕ := ⟨[], by decide⟩

theorem empty_walk_truthful :
    ∃ page, fetchAll (ε := Unit) (emptyListing.cappedEndpoint 100) ⟨100, 20, 2000⟩ =
        .ok page ∧
      (TruthfulPagination emptyListing page ↔ emptyListing.items = []) :=
  fetchAll_truthful_iff emptyListing ⟨100, 20, 2000⟩ 100
    (by decide) (by decide) (by decide)

/-- Three projects fetched in one page are reported to start at offset three. -/
theorem three_projects_misreported :
    ¬ ∀ page, fetchAll (ε := Unit) (threeProjects.cappedEndpoint 100)
        ⟨100, 20, 2000⟩ = .ok page → TruthfulPagination threeProjects page := by
  intro hall
  have htruthful := hall ⟨[1, 2, 3], 3, 3, 100, false⟩ rfl
  exact absurd htruthful.offset (by decide)

end Sample

end RuprogressMcp
