import RuprogressMcp.RedminePages
import RuprogressMcp.BoundedLoops

/-!
# Walking all pages of any server

The loop of `fetch_all` against a server that may answer by everything it was
asked before, with the requests it has sent.  Whatever the server says, the
loop stops after at most `max_pages` requests, and every offset it asks for is
a `u64`.  Against a server that pages through a fixed list, the items are a
prefix of the list, and the page is marked truncated exactly when the prefix
is a proper one.
-/

namespace RuprogressMcp

variable {σ ε α : Type}

/-- A list endpoint with a memory. -/
abbrev Server (σ ε α : Type) : Type :=
  σ → ℕ → ℕ → Except ε (Envelope α) × σ

/-- The counter of fetched pages is a `u32` that saturates. -/
def nextPage (pagesFetched : ℕ) : ℕ := min (pagesFetched + 1) (2 ^ 32 - 1)

/-- The head of the loop, with the limit and offset of each request sent. -/
structure PageLoop (σ α : Type) where
  server : σ
  walk : Walk α
  pagesFetched : ℕ
  requests : List (ℕ × ℕ)

structure PageOutcome (ε α : Type) where
  result : Except ε (Page α)
  requests : List (ℕ × ℕ)

/-- What one answered request does to the walk: it ends with a page, or goes
on. -/
def Walk.turn (limits : Limits) (walk : Walk α) (envelope : Envelope α) :
    Page α ⊕ Walk α :=
  let got := envelope.items.length
  let walk := { walk with
    totalCount := envelope.totalCount
    limitUsed := envelope.limit }
  if got = 0 then .inl (walk.page (decide (walk.offset < walk.totalCount)))
  else
    let walk := { walk with items := walk.items ++ envelope.items }
    let newOffset := envelope.offset + got
    if 2 ^ 64 ≤ newOffset then .inl (walk.page true)
    else if newOffset ≤ walk.offset then .inl (walk.page true)
    else
      let walk := { walk with offset := newOffset }
      if walk.totalCount ≤ walk.offset then .inl (walk.page false)
      else if limits.maxItems ≤ walk.items.length then .inl (walk.page true)
      else .inr walk

/-- One iteration of the loop. -/
def PageLoop.body (server : Server σ ε α) (limits : Limits)
    (loop : PageLoop σ α) : PageOutcome ε α ⊕ PageLoop σ α :=
  if limits.maxPages ≤ loop.pagesFetched then
    .inl {
      result := .ok (loop.walk.page
        (decide (loop.walk.offset < loop.walk.totalCount)))
      requests := loop.requests }
  else
    let answer := server loop.server limits.pageSize loop.walk.offset
    let requests := loop.requests ++ [(limits.pageSize, loop.walk.offset)]
    match answer.1 with
    | .error error => .inl { result := .error error, requests }
    | .ok envelope =>
        match loop.walk.turn limits envelope with
        | .inl page => .inl { result := .ok page, requests }
        | .inr walk =>
            .inr {
              server := answer.2
              walk
              pagesFetched := nextPage loop.pagesFetched
              requests }

def PageLoop.start (server : σ) (limits : Limits) : PageLoop σ α where
  server := server
  walk := Walk.start limits
  pagesFetched := 0
  requests := []

/-- `fetch_all` against a server, for at most the given iterations. -/
def fetchAllFrom (server : Server σ ε α) (state : σ) (limits : Limits)
    (fuel : ℕ) : Option (PageOutcome ε α) :=
  Loop.run (PageLoop.body server limits) fuel (PageLoop.start state limits)

/-! ## Any server -/

section AnyServer

variable {server : Server σ ε α} {limits : Limits} {loop loop' : PageLoop σ α}
  {outcome : PageOutcome ε α}

theorem Walk.turn_offset
    {walk walk' : Walk α} {envelope : Envelope α}
    (hturn : walk.turn limits envelope = .inr walk') :
    walk'.offset < 2 ^ 64 := by
  unfold Walk.turn at hturn
  simp only at hturn
  split at hturn
  · cases hturn
  split at hturn
  · cases hturn
  rename_i hsmall
  split at hturn
  · cases hturn
  split at hturn
  · cases hturn
  split at hturn
  · cases hturn
  cases hturn
  exact Nat.lt_of_not_le hsmall

/-- What an iteration that goes on has done. -/
theorem PageLoop.body_next
    (hbody : loop.body server limits = .inr loop') :
    loop.pagesFetched < limits.maxPages ∧
      loop'.pagesFetched = nextPage loop.pagesFetched ∧
      loop'.requests = loop.requests ++ [(limits.pageSize, loop.walk.offset)] ∧
      ∃ envelope,
        (server loop.server limits.pageSize loop.walk.offset).1 =
          .ok envelope ∧
        loop.walk.turn limits envelope = .inr loop'.walk := by
  unfold PageLoop.body at hbody
  split at hbody
  · cases hbody
  rename_i hpages
  simp only at hbody
  split at hbody
  · cases hbody
  rename_i envelope henvelope
  split at hbody
  · cases hbody
  rename_i walk hturn
  cases hbody
  exact ⟨Nat.lt_of_not_le hpages, rfl, rfl, envelope, henvelope, hturn⟩

/-- What an iteration that leaves the loop has done. -/
theorem PageLoop.body_stop
    (hbody : loop.body server limits = .inl outcome) :
    (limits.maxPages ≤ loop.pagesFetched ∧
        outcome.requests = loop.requests ∧
        outcome.result = .ok (loop.walk.page
          (decide (loop.walk.offset < loop.walk.totalCount)))) ∨
      (loop.pagesFetched < limits.maxPages ∧
        outcome.requests =
          loop.requests ++ [(limits.pageSize, loop.walk.offset)] ∧
        ((∃ error, (server loop.server limits.pageSize loop.walk.offset).1 =
            .error error ∧ outcome.result = .error error) ∨
          ∃ envelope page,
            (server loop.server limits.pageSize loop.walk.offset).1 =
              .ok envelope ∧
            loop.walk.turn limits envelope = .inl page ∧
            outcome.result = .ok page)) := by
  unfold PageLoop.body at hbody
  split at hbody
  · rename_i hpages
    cases hbody
    exact Or.inl ⟨hpages, rfl, rfl⟩
  rename_i hpages
  right
  refine ⟨Nat.lt_of_not_le hpages, ?_⟩
  simp only at hbody
  split at hbody
  · rename_i error herror
    cases hbody
    exact ⟨rfl, Or.inl ⟨error, herror, rfl⟩⟩
  rename_i envelope henvelope
  split at hbody
  · rename_i page hturn
    cases hbody
    exact ⟨rfl, Or.inr ⟨envelope, page, henvelope, hturn, rfl⟩⟩
  · cases hbody

/-- The requests sent so far are counted, and ask for `u64` offsets. -/
structure PageLoop.Bounded (limits : Limits) (loop : PageLoop σ α) : Prop where
  counted : loop.requests.length = loop.pagesFetched
  pages : loop.pagesFetched ≤ limits.maxPages
  offset : loop.walk.offset < 2 ^ 64
  offsets : ∀ request ∈ loop.requests, request.2 < 2 ^ 64

theorem PageLoop.Bounded.start (state : σ) (limits : Limits) :
    (PageLoop.start state limits : PageLoop σ α).Bounded limits where
  counted := rfl
  pages := Nat.zero_le _
  offset := Nat.two_pow_pos 64
  offsets := fun _ hmem => absurd hmem List.not_mem_nil

theorem PageLoop.Bounded.sent
    (hbounded : loop.Bounded limits) :
    ∀ request ∈ loop.requests ++ [(limits.pageSize, loop.walk.offset)],
      request.2 < 2 ^ 64 := by
  intro request hmem
  rcases List.mem_append.mp hmem with hold | hnew
  · exact hbounded.offsets request hold
  · rw [List.mem_singleton.mp hnew]
    exact hbounded.offset

theorem PageLoop.Bounded.next
    (hu32 : limits.maxPages < 2 ^ 32) (hbounded : loop.Bounded limits)
    (hbody : loop.body server limits = .inr loop') :
    loop'.Bounded limits ∧
      limits.maxPages - loop'.pagesFetched <
        limits.maxPages - loop.pagesFetched := by
  obtain ⟨hless, hpages, hrequests, envelope, -, hturn⟩ :=
    PageLoop.body_next hbody
  have hcount : loop'.pagesFetched = loop.pagesFetched + 1 := by
    rw [hpages, nextPage]
    omega
  refine ⟨⟨?_, by omega, Walk.turn_offset hturn, ?_⟩, by omega⟩
  · rw [hrequests, hcount, List.length_append, hbounded.counted,
      List.length_singleton]
  · rw [hrequests]
    exact hbounded.sent

theorem PageLoop.Bounded.stop
    (hbounded : loop.Bounded limits)
    (hbody : loop.body server limits = .inl outcome) :
    outcome.requests.length ≤ limits.maxPages ∧
      ∀ request ∈ outcome.requests, request.2 < 2 ^ 64 := by
  have hcounted := hbounded.counted
  have hpages := hbounded.pages
  rcases PageLoop.body_stop hbody with ⟨-, hrequests, -⟩ | ⟨hless, hrequests, -⟩
  · rw [hrequests]
    exact ⟨by omega, hbounded.offsets⟩
  · rw [hrequests]
    refine ⟨?_, hbounded.sent⟩
    rw [List.length_append, List.length_singleton]
    omega

/-- A condition that every iteration keeps holds when the walk ends, and the
walk does end. -/
theorem fetchAllFrom_of_invariant
    (good : PageLoop σ α → Prop) (post : PageOutcome ε α → Prop)
    (state : σ) (hu32 : limits.maxPages < 2 ^ 32)
    (hstart : good (PageLoop.start state limits))
    (hnext : ∀ loop loop', loop.Bounded limits → good loop →
      loop.body server limits = .inr loop' → good loop')
    (hstop : ∀ loop outcome, loop.Bounded limits → good loop →
      loop.body server limits = .inl outcome → post outcome) :
    ∃ outcome,
      fetchAllFrom server state limits (limits.maxPages + 1) = some outcome ∧
        post outcome := by
  apply Loop.run_of_invariant
    (fun loop : PageLoop σ α => loop.Bounded limits ∧ good loop)
    (fun loop => limits.maxPages - loop.pagesFetched) post
  · intro loop outcome hgood hbody
    exact hstop loop outcome hgood.1 hgood.2 hbody
  · intro loop loop' hgood hbody
    obtain ⟨hbounded', hlower⟩ := hgood.1.next hu32 hbody
    exact ⟨⟨hbounded', hnext loop loop' hgood.1 hgood.2 hbody⟩, hlower⟩
  · exact ⟨PageLoop.Bounded.start state limits, hstart⟩
  · exact Nat.lt_succ_of_le (Nat.sub_le _ _)

end AnyServer

/-! ## A server without a memory -/

def Server.ofEndpoint (get : Endpoint ε α) : Server Unit ε α :=
  fun state limit offset => (get limit offset, state)

theorem fetchAllLoop_succ
    (get : Endpoint ε α) (limits : Limits) (pagesLeft : ℕ) (walk : Walk α) :
    fetchAllLoop get limits (pagesLeft + 1) walk =
      match get limits.pageSize walk.offset with
      | .error error => .error error
      | .ok envelope =>
          match walk.turn limits envelope with
          | .inl page => .ok page
          | .inr walk => fetchAllLoop get limits pagesLeft walk := by
  rw [fetchAllLoop]
  cases get limits.pageSize walk.offset with
  | error error => rfl
  | ok envelope =>
      simp only [bind, Except.bind, pure, Except.pure, Walk.turn]
      split_ifs <;> rfl

/-- On a server without a memory the loop computes the walk that the tools are
modelled with. -/
theorem fetchAllFrom_endpoint
    (get : Endpoint ε α) {limits : Limits} (hu32 : limits.maxPages < 2 ^ 32) :
    ∃ outcome,
      fetchAllFrom (Server.ofEndpoint get) () limits (limits.maxPages + 1) =
        some outcome ∧
      outcome.result = fetchAll get limits := by
  apply fetchAllFrom_of_invariant
    (fun loop =>
      fetchAllLoop get limits (limits.maxPages - loop.pagesFetched) loop.walk =
        fetchAll get limits)
    (fun outcome => outcome.result = fetchAll get limits) () hu32
  · rfl
  · intro loop loop' _ hwalk hbody
    obtain ⟨hless, hpages, -, envelope, henvelope, hturn⟩ :=
      PageLoop.body_next hbody
    have hleft : limits.maxPages - loop.pagesFetched =
        (limits.maxPages - loop'.pagesFetched) + 1 := by
      rw [hpages, nextPage]
      omega
    rw [← hwalk, hleft, fetchAllLoop_succ,
      show get limits.pageSize loop.walk.offset = .ok envelope from henvelope]
    simp only [hturn]
  · intro loop outcome _ hwalk hbody
    rw [← hwalk]
    rcases PageLoop.body_stop hbody with ⟨hpages, -, hresult⟩ | ⟨hless, -, hend⟩
    · rw [hresult, Nat.sub_eq_zero_of_le hpages, fetchAllLoop]
    · obtain ⟨left, hleft⟩ : ∃ left,
          limits.maxPages - loop.pagesFetched = left + 1 :=
        ⟨limits.maxPages - loop.pagesFetched - 1, by omega⟩
      rw [hleft, fetchAllLoop_succ]
      rcases hend with ⟨error, herror, hresult⟩ |
        ⟨envelope, page, henvelope, hturn, hresult⟩
      · rw [show get limits.pageSize loop.walk.offset = .error error from herror,
          hresult]
      · rw [show get limits.pageSize loop.walk.offset = .ok envelope
          from henvelope, hresult]
        simp only [hturn]

/-! ## A server that pages through a list -/

/-- Every answer is the requested slice, at most `cap` items long, with the
offset and the total echoed. -/
def Server.PagesThrough
    (server : Server σ ε α) (listing : Listing α) (cap : ℕ) : Prop :=
  ∀ state limit offset, ∃ reported,
    (server state limit offset).1 = .ok {
      items := listing.slice (min limit cap) offset
      totalCount := listing.items.length
      offset := offset
      limit := reported }

/-- The page holds the items before its cursor, and says whether more are
left. -/
structure Page.Honest (listing : Listing α) (page : Page α) : Prop where
  items : page.items = listing.items.take page.offset
  bound : page.offset ≤ listing.items.length
  truncated : page.truncated = true ↔ page.offset < listing.items.length

section Faithful

variable {listing : Listing α} {limits : Limits} {walk : Walk α} {cap : ℕ}

theorem Walk.Collected.append
    (hcollected : walk.Collected listing) (cap total reported : ℕ) :
    Walk.Collected listing
      { items := walk.items ++ listing.slice cap walk.offset
        offset := walk.offset + (listing.slice cap walk.offset).length
        totalCount := total
        limitUsed := reported } := by
  have hbound := hcollected.bound
  have hlength := listing.length_slice cap walk.offset
  constructor
  · show walk.offset + _ ≤ _
    omega
  · show walk.items ++ _ = _
    rw [hcollected.items]
    exact listing.take_append_slice _ hbound

theorem Walk.turn_faithful
    (limits : Limits) (cap reported : ℕ)
    (hcollected : walk.Collected listing) :
    match walk.turn limits {
        items := listing.slice cap walk.offset
        totalCount := listing.items.length
        offset := walk.offset
        limit := reported } with
    | .inl page => page.Honest listing
    | .inr walk' =>
        walk'.Collected listing ∧ walk'.totalCount = listing.items.length := by
  have hnext := hcollected.append cap listing.items.length reported
  have hbound := hcollected.bound
  have hcountable := listing.countable
  have hlength := listing.length_slice cap walk.offset
  unfold Walk.turn
  simp only
  by_cases hgot : (listing.slice cap walk.offset).length = 0
  · rw [if_pos hgot]
    exact ⟨hcollected.items, hbound, by simp [Walk.page]⟩
  rw [if_neg hgot, if_neg (by omega), if_neg (by omega)]
  by_cases hall : listing.items.length ≤
      walk.offset + (listing.slice cap walk.offset).length
  · rw [if_pos hall]
    refine ⟨hnext.items, hnext.bound, ?_⟩
    simp only [Walk.page, Bool.false_eq_true, false_iff]
    exact Nat.not_lt.mpr hall
  rw [if_neg hall]
  by_cases hfull : limits.maxItems ≤
      (walk.items ++ listing.slice cap walk.offset).length
  · rw [if_pos hfull]
    refine ⟨hnext.items, hnext.bound, ?_⟩
    simp only [Walk.page, true_iff]
    exact Nat.lt_of_not_le hall
  · rw [if_neg hfull]
    exact ⟨hnext, rfl⟩

/-- The walk has collected a prefix of the list, and knows the total as soon
as it has fetched a page. -/
structure PageLoop.Follows (listing : Listing α) (loop : PageLoop σ α) :
    Prop where
  collected : loop.walk.Collected listing
  total : 0 < loop.pagesFetched → loop.walk.totalCount = listing.items.length

theorem fetchAllFrom_faithful
    {server : Server σ ε α} (hserver : server.PagesThrough listing cap)
    (state : σ) (hpages : 1 ≤ limits.maxPages)
    (hu32 : limits.maxPages < 2 ^ 32) :
    ∃ outcome,
      fetchAllFrom server state limits (limits.maxPages + 1) = some outcome ∧
      ∃ page, outcome.result = .ok page ∧ page.Honest listing := by
  apply fetchAllFrom_of_invariant (PageLoop.Follows listing)
    (fun outcome => ∃ page, outcome.result = .ok page ∧ page.Honest listing)
    state hu32
  · exact ⟨⟨Nat.zero_le _, rfl⟩, fun hpos => absurd hpos (lt_irrefl 0)⟩
  · intro loop loop' _ hfollows hbody
    obtain ⟨reported, hanswer⟩ :=
      hserver loop.server limits.pageSize loop.walk.offset
    have hturns := Walk.turn_faithful limits (min limits.pageSize cap) reported
      hfollows.collected
    obtain ⟨-, -, -, envelope, henvelope, hturn⟩ := PageLoop.body_next hbody
    rw [hanswer] at henvelope
    cases henvelope
    rw [hturn] at hturns
    exact ⟨hturns.1, fun _ => hturns.2⟩
  · intro loop outcome _ hfollows hbody
    obtain ⟨reported, hanswer⟩ :=
      hserver loop.server limits.pageSize loop.walk.offset
    have hturns := Walk.turn_faithful limits (min limits.pageSize cap) reported
      hfollows.collected
    rcases PageLoop.body_stop hbody with ⟨hcap, -, hresult⟩ | ⟨-, -, hend⟩
    · refine ⟨_, hresult, hfollows.collected.items,
        hfollows.collected.bound, ?_⟩
      simp [Walk.page, hfollows.total (by omega)]
    · rcases hend with ⟨error, herror, -⟩ |
        ⟨envelope, page, henvelope, hturn, hresult⟩
      · rw [hanswer] at herror
        cases herror
      · rw [hanswer] at henvelope
        cases henvelope
        rw [hturn] at hturns
        exact ⟨page, hresult, hturns⟩

theorem Page.Honest.within_list {page : Page α} (hhonest : page.Honest listing) :
    page.items <+: listing.items ∧
      (page.truncated = true ↔ page.items.length < listing.items.length) := by
  have hbound := hhonest.bound
  have hlength : page.items.length = page.offset := by
    rw [hhonest.items, List.length_take]
    omega
  constructor
  · rw [hhonest.items]
    exact List.take_prefix _ _
  · rw [hlength]
    exact hhonest.truncated

end Faithful

/-- Against a server that pages through a list, the walk returns a prefix of
the list and says whether it is a proper one; against any server it ends
within its limits. -/
theorem fetchAllFrom_complete_or_truncated
    (server : Server σ ε α) (state : σ) (limits : Limits)
    (hu32 : limits.maxPages < 2 ^ 32) :
    (∀ (listing : Listing α) (cap : ℕ), 1 ≤ limits.maxPages →
        server.PagesThrough listing cap →
        ∃ page requests,
          fetchAllFrom server state limits (limits.maxPages + 1) =
            some ⟨.ok page, requests⟩ ∧
          page.items <+: listing.items ∧
          (page.truncated = true ↔
            page.items.length < listing.items.length)) ∧
      ∃ outcome,
        fetchAllFrom server state limits (limits.maxPages + 1) =
          some outcome ∧
        outcome.requests.length ≤ limits.maxPages ∧
        ∀ request ∈ outcome.requests, request.2 < 2 ^ 64 := by
  constructor
  · intro listing cap hpages hserver
    obtain ⟨⟨result, requests⟩, houtcome, page, hresult, hhonest⟩ :=
      fetchAllFrom_faithful hserver state hpages hu32
    cases hresult
    exact ⟨page, requests, houtcome, hhonest.within_list⟩
  · exact fetchAllFrom_of_invariant (fun _ => True) _ state hu32 trivial
      (fun _ _ _ _ _ => trivial)
      (fun _ _ hbounded _ hbody => hbounded.stop hbody)

namespace Sample

/-- A server that counts its requests and answers every one of them. -/
def countingServer : Server ℕ Unit ℕ := fun state limit offset =>
  (.ok {
    items := threeProjects.slice (min limit 2) offset
    totalCount := threeProjects.items.length
    offset := offset
    limit := state }, state + 1)

theorem countingServer_walk_stops :
    (∀ (listing : Listing ℕ) (cap : ℕ), 1 ≤ 20 →
        countingServer.PagesThrough listing cap →
        ∃ page requests,
          fetchAllFrom countingServer 0 ⟨100, 20, 2000⟩ 21 =
            some ⟨.ok page, requests⟩ ∧
          page.items <+: listing.items ∧
          (page.truncated = true ↔
            page.items.length < listing.items.length)) ∧
      (∃ outcome,
        fetchAllFrom countingServer 0 ⟨100, 20, 2000⟩ 21 = some outcome ∧
        outcome.requests.length ≤ 20 ∧
        ∀ request ∈ outcome.requests, request.2 < 2 ^ 64) ∧
      countingServer.PagesThrough threeProjects 2 := by
  obtain ⟨hfaithful, hany⟩ := fetchAllFrom_complete_or_truncated countingServer 0
    ⟨100, 20, 2000⟩ (by decide)
  exact ⟨hfaithful, hany, fun state _ _ => ⟨state, rfl⟩⟩

end Sample

/-! ## A server that does not advance -/

/-- The same page, said to start at offset zero, for every request. -/
def stuckEndpoint (page : List α) (total reported : ℕ) : Endpoint ε α :=
  fun _ _ => .ok {
    items := page
    totalCount := total
    offset := 0
    limit := reported }

section Stuck

variable {limits : Limits} {page : List α} {total reported : ℕ}

/-- The turn of a walk that is asked to go on from a given page. -/
theorem Walk.turn_start
    (hne : page ≠ []) (hlength : page.length < 2 ^ 64) :
    (Walk.start limits).turn limits
        { items := page, totalCount := total, offset := 0, limit := reported } =
      if total ≤ page.length then
        .inl ⟨page, total, page.length, reported, false⟩
      else if limits.maxItems ≤ page.length then
        .inl ⟨page, total, page.length, reported, true⟩
      else .inr ⟨page, page.length, total, reported⟩ := by
  have hpos : 0 < page.length := List.length_pos_iff.mpr hne
  unfold Walk.turn Walk.start
  simp only [List.nil_append, Nat.zero_add]
  rw [if_neg (by omega), if_neg (by omega), if_neg (by omega)]
  rfl

theorem Walk.turn_stuck
    (hne : page ≠ []) (hlength : page.length < 2 ^ 64) (old used : ℕ) :
    (⟨page, page.length, old, used⟩ : Walk α).turn limits
        { items := page, totalCount := total, offset := 0, limit := reported } =
      .inl ⟨page ++ page, total, page.length, reported, true⟩ := by
  have hpos : 0 < page.length := List.length_pos_iff.mpr hne
  unfold Walk.turn
  simp only [Nat.zero_add]
  rw [if_neg (by omega), if_neg (by omega), if_pos (le_refl _)]
  rfl

theorem not_nodup_append_self (hne : page ≠ []) : ¬ (page ++ page).Nodup := by
  intro hnodup
  obtain ⟨item, hitem⟩ := List.exists_mem_of_ne_nil page hne
  exact (List.nodup_append.mp hnodup).2.2 item hitem item hitem rfl

end Stuck

/-- A page that is sent again and again is collected once exactly when it ends
the walk by itself. -/
theorem fetchAll_stuck_nodup_iff
    (listing : Listing α) (hne : listing.items ≠ [])
    (hdistinct : listing.items.Nodup) (total reported : ℕ) (limits : Limits)
    (hpages : 1 ≤ limits.maxPages) :
    ∃ page,
      fetchAll (ε := ε) (stuckEndpoint listing.items total reported) limits =
        .ok page ∧
      ((page.items.Nodup ∧
          (listing.items.length < total → page.truncated = true)) ↔
        total ≤ listing.items.length ∨
          limits.maxItems ≤ listing.items.length ∨ limits.maxPages = 1) := by
  obtain ⟨left, hleft⟩ : ∃ left, limits.maxPages = left + 1 :=
    ⟨limits.maxPages - 1, by omega⟩
  unfold fetchAll
  rw [hleft, fetchAllLoop_succ]
  simp only [stuckEndpoint, Walk.turn_start hne listing.countable]
  by_cases hall : total ≤ listing.items.length
  · simp only [if_pos hall]
    exact ⟨_, rfl, by simp [hdistinct, hall]⟩
  simp only [if_neg hall]
  by_cases hfull : limits.maxItems ≤ listing.items.length
  · simp only [if_pos hfull]
    exact ⟨_, rfl, by simp [hdistinct, hfull]⟩
  simp only [if_neg hfull]
  cases left with
  | zero =>
      refine ⟨_, rfl, ?_⟩
      simp only [Walk.page, hdistinct, true_and, decide_eq_true_eq]
      simp
  | succ left =>
      rw [fetchAllLoop_succ]
      simp only [stuckEndpoint, Walk.turn_stuck hne listing.countable]
      refine ⟨_, rfl, ?_⟩
      have hrepeated := not_nodup_append_self hne
      simp only [hrepeated, false_and, false_iff]
      omega

namespace Sample

def twoProjects : Listing ℕ := ⟨[1, 2], by decide⟩

theorem stuck_server_repeats_items :
    ¬ ∀ page, fetchAll (ε := Unit) (stuckEndpoint twoProjects.items 1000 10)
        ⟨10, 1000, 2000⟩ = .ok page → page.items.Nodup := by
  intro hall
  have hnodup := hall ⟨[1, 2, 1, 2], 1000, 2, 10, true⟩ rfl
  exact absurd hnodup (by decide)

theorem stuck_server_one_page :
    ∃ page, fetchAll (ε := Unit) (stuckEndpoint twoProjects.items 1000 10)
        ⟨10, 1, 2000⟩ = .ok page ∧
      ((page.items.Nodup ∧
          (twoProjects.items.length < 1000 → page.truncated = true)) ↔
        1000 ≤ twoProjects.items.length ∨
          2000 ≤ twoProjects.items.length ∨ 1 = 1) :=
  fetchAll_stuck_nodup_iff twoProjects (by decide) (by decide) 1000 10
    ⟨10, 1, 2000⟩ (by decide)

end Sample

end RuprogressMcp
