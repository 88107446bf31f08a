import RuprogressMcp.ToolPrograms
import RuprogressMcp.AutoPaging

/-!
# Reading a collection

A list endpoint is read by one explicit page, or page by page until the walk
over it ends.  Here the walk is the program that sends its requests; against a
server without a memory it returns what the loop of the pages returns.
-/

namespace RuprogressMcp

open RedmineClient RequestProgram Tool

/-- The query of one page. -/
def pageQuery (query : Query) (limit offset : ℕ) : Query :=
  (query.insert "limit" (toString limit)).insert "offset" (toString offset)

/-- A single page as the server describes it. -/
def Envelope.page {α : Type} (envelope : Envelope α) : Page α where
  items := envelope.items
  totalCount := envelope.totalCount
  offset := envelope.offset
  limit := envelope.limit
  truncated := false

/-- A list endpoint, and how its answers are read. -/
structure Collection (α : Type) where
  call : Query → ApiCall
  read : ∀ query, Body (call query) → Envelope α
  isGet : ∀ query, IsGet (call query)

variable {α : Type} (collection : Collection α) (query : Query)
  (limits : Limits)

/-- The loop of `fetch_all`, with the number of pages that may still be
fetched. -/
def fetchPages : ℕ → Walk α → ClientProgram (Page α)
  | 0, walk => .done (.ok (walk.page (decide (walk.offset < walk.totalCount))))
  | pagesLeft + 1, walk =>
      afterSuccess
        (send (collection.call (pageQuery query limits.pageSize walk.offset)))
        fun body =>
      match walk.turn limits (collection.read _ body) with
      | .inl page => .done (.ok page)
      | .inr walk => fetchPages pagesLeft walk

/-- All pages of a collection, subject to the limits. -/
def fetchAllPages : ClientProgram (Page α) :=
  fetchPages collection query limits limits.maxPages (Walk.start limits)

/-! ## The requests of a walk -/

/-- Why nothing is asked for behind a page: it is empty, it does not end behind
the offset that was asked for or ends where no offset points to, the collection
ends with it, or as much as may be collected has been. -/
inductive EndsWalk (asked collected : ℕ) (page : Envelope α) : Prop
  | empty (hempty : page.items = [])
  | stuck (hstuck : page.offset + page.items.length ≤ asked)
  | overflow (hoverflow : 2 ^ 64 ≤ page.offset + page.items.length)
  | whole (hwhole : page.totalCount ≤ page.offset + page.items.length)
  | full (hfull : limits.maxItems ≤ collected)

/-- The exchanges of a walk that may still fetch so many pages, from an offset
on and behind these items, with the items of all pages or the error of the
request that failed. -/
inductive PagesRead : ℕ → ℕ → List α → List (Exchange Answer) →
    Except RedmineError (List α) → Prop
  | pageLimit (asked : ℕ) (items : List α) : PagesRead 0 asked items [] (.ok items)
  | failed {left asked : ℕ} {items : List α} (e : RedmineError) :
      PagesRead (left + 1) asked items
        [⟨collection.call (pageQuery query limits.pageSize asked), .error e⟩]
        (.error e)
  | last {left asked : ℕ} {items : List α}
      {body : Body (collection.call (pageQuery query limits.pageSize asked))}
      (hends : EndsWalk limits asked
        (items ++ (collection.read _ body).items).length (collection.read _ body)) :
      PagesRead (left + 1) asked items [⟨_, .ok body⟩]
        (.ok (items ++ (collection.read _ body).items))
  | next {left asked : ℕ} {items : List α}
      {body : Body (collection.call (pageQuery query limits.pageSize asked))}
      {rest : List (Exchange Answer)} {result : Except RedmineError (List α)}
      (hmore : ¬ EndsWalk limits asked
        (items ++ (collection.read _ body).items).length (collection.read _ body))
      (hrest : PagesRead left
        ((collection.read _ body).offset + (collection.read _ body).items.length)
        (items ++ (collection.read _ body).items) rest result) :
      PagesRead (left + 1) asked items (⟨_, .ok body⟩ :: rest) result

variable {collection query limits} {pagesLeft : ℕ} {walk : Walk α}

theorem PagesRead.isGet
    {left asked : ℕ} {items : List α} {exchanges : List (Exchange Answer)}
    {result : Except RedmineError (List α)}
    (hread : PagesRead collection query limits left asked items exchanges result) :
    ∀ exchange ∈ exchanges, IsGet exchange.1 := by
  induction hread with
  | pageLimit => exact fun _ hmem => absurd hmem List.not_mem_nil
  | failed | last => exact List.forall_mem_singleton.mpr (collection.isGet _)
  | next hmore hrest ih => exact List.forall_mem_cons.mpr ⟨collection.isGet _, ih⟩

theorem PagesRead.succeeded
    {left asked : ℕ} {items collected : List α} {exchanges : List (Exchange Answer)}
    (hread : PagesRead collection query limits left asked items exchanges
      (.ok collected)) : ∀ exchange ∈ exchanges, Succeeded exchange := by
  generalize hresult : (Except.ok collected : Except RedmineError (List α)) = result
    at hread
  induction hread with
  | pageLimit => exact fun _ hmem => absurd hmem List.not_mem_nil
  | failed e => cases hresult
  | last hends => exact List.forall_mem_singleton.mpr ⟨_, rfl⟩
  | next hmore hrest ih => exact List.forall_mem_cons.mpr ⟨⟨_, rfl⟩, ih hresult⟩

theorem PagesRead.stops
    {left asked : ℕ} {items : List α} {exchanges : List (Exchange Answer)}
    {result : Except RedmineError (List α)}
    (hread : PagesRead collection query limits left asked items exchanges result) :
    ∀ exchange ∈ exchanges.dropLast, Succeeded exchange := by
  induction hread with
  | pageLimit | failed | last => exact fun _ hmem => absurd hmem List.not_mem_nil
  | @next left asked items body rest result hmore hrest ih =>
      have hfirst : ∀ exchange ∈ ([⟨collection.call (pageQuery query limits.pageSize
          asked), .ok body⟩] : List (Exchange Answer)), Succeeded exchange :=
        List.forall_mem_singleton.mpr ⟨body, rfl⟩
      exact succeeded_dropLast_append hfirst ih

/-- What a page does to the walk. -/
theorem Walk.turn_cases (envelope : Envelope α) :
    (∃ page, walk.turn limits envelope = .inl page ∧
      page.items = walk.items ++ envelope.items ∧
      EndsWalk limits walk.offset (walk.items ++ envelope.items).length envelope) ∨
    ∃ next, walk.turn limits envelope = .inr next ∧
      next.items = walk.items ++ envelope.items ∧
      next.offset = envelope.offset + envelope.items.length ∧
      ¬ EndsWalk limits walk.offset (walk.items ++ envelope.items).length
        envelope := by
  unfold Walk.turn
  dsimp only
  split_ifs with hempty hoverflow hstuck hwhole hfull
  · have hnil := List.length_eq_zero_iff.mp hempty
    exact Or.inl ⟨_, rfl, by rw [hnil, List.append_nil]; rfl, .empty hnil⟩
  · exact Or.inl ⟨_, rfl, rfl, .overflow hoverflow⟩
  · exact Or.inl ⟨_, rfl, rfl, .stuck hstuck⟩
  · exact Or.inl ⟨_, rfl, rfl, .whole hwhole⟩
  · exact Or.inl ⟨_, rfl, rfl, .full hfull⟩
  · refine Or.inr ⟨_, rfl, rfl, rfl, ?_⟩
    rintro (hends | hends | hends | hends | hends)
    · exact hempty (List.length_eq_zero_iff.mpr hends)
    · exact hstuck hends
    · exact hoverflow hends
    · exact hwhole hends
    · exact hfull hends

theorem ensures_fetchPages :
    (fetchPages collection query limits pagesLeft walk).Ensures
      fun exchanges result => PagesRead collection query limits pagesLeft
        walk.offset walk.items exchanges (result.map Page.items) := by
  induction pagesLeft generalizing walk with
  | zero => exact ensures_done.mpr (.pageLimit walk.offset walk.items)
  | succ pagesLeft ih =>
      refine ensures_andThen.mpr (ensures_call.mpr fun answer =>
        ensures_done.mpr ?_)
      cases answer with
      | error e => exact ensures_done.mpr (.failed e)
      | ok body =>
          simp only [List.cons_append, List.nil_append]
          have hcases := @Walk.turn_cases α limits walk (collection.read _ body)
          cases hturn : walk.turn limits (collection.read _ body) with
          | inl page =>
              obtain ⟨_, hpage, hitems, hends⟩ | ⟨_, hnext, -⟩ := hturn ▸ hcases
              · cases hpage
                refine ensures_done.mpr ?_
                simp only [Except.map, hitems]
                exact .last hends
              · cases hnext
          | inr next =>
              obtain ⟨_, hpage, -⟩ | ⟨_, hnext, hitems, hoffset, hmore⟩ :=
                hturn ▸ hcases
              · cases hpage
              · cases hnext
                refine Ensures.mono ih fun rest result hrest => ?_
                rw [hoffset, hitems] at hrest
                exact .next hmore hrest

theorem sendsOnly_fetchPages :
    (fetchPages collection query limits pagesLeft walk).SendsOnly IsGet :=
  Ensures.mono ensures_fetchPages fun _ _ hread => hread.isGet

/-- The endpoint that a server without a memory offers to the walk. -/
def Collection.endpoint (collection : Collection α)
    (server : ∀ call, Answer call) (query : Query) :
    Endpoint RedmineError α := fun limit offset =>
  (server (collection.call (pageQuery query limit offset))).map
    (collection.read _)

/-- The requests of the walk lead to the page that the loop computes. -/
theorem play_fetchPages (server : ∀ call, Answer call) :
    ((fetchPages collection query limits pagesLeft walk).play server).2 =
      fetchAllLoop (collection.endpoint server query) limits pagesLeft walk := by
  induction pagesLeft generalizing walk with
  | zero => rfl
  | succ pagesLeft ih =>
      rw [fetchAllLoop_succ, fetchPages, afterSuccess, play_andThen]
      simp only [send, play, Collection.endpoint]
      cases server (collection.call (pageQuery query limits.pageSize
          walk.offset)) with
      | error e => rfl
      | ok body =>
          simp only [Except.map]
          cases walk.turn limits (collection.read _ body) with
          | inl page => rfl
          | inr walk => exact ih

end RuprogressMcp
