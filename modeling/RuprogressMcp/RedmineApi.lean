import RuprogressMcp.JsonValue
import RuprogressMcp.RetryBudget
import RuprogressMcp.WikiPaths

/-!
# The requests of the Redmine client

One constructor for every request that a method of `Scoped` makes, with what
the method puts into it.  Redmine receives it at the base path followed by the
segments as they are named here, and reads exactly the parameters of the query.
Only a wiki title can keep a request from being sent.
-/

namespace RedmineClient

open UrlJoin

/-! ## Queries -/

/-- Put a value under a key of a list in key order. -/
def insertPair (key value : String) :
    List (String × String) → List (String × String)
  | [] => [(key, value)]
  | (other, old) :: rest =>
      if key < other then (key, value) :: (other, old) :: rest
      else if key = other then (key, value) :: rest
      else (other, old) :: insertPair key value rest

theorem mem_insertPair {key value : String} {pairs : List (String × String)}
    {pair : String × String} (hmem : pair ∈ insertPair key value pairs) :
    pair = (key, value) ∨ pair ∈ pairs := by
  induction pairs with
  | nil => exact Or.inl (List.mem_singleton.mp hmem)
  | cons first rest ih =>
      obtain ⟨other, old⟩ := first
      unfold insertPair at hmem
      split at hmem
      · exact List.mem_cons.mp hmem
      · split at hmem
        · exact (List.mem_cons.mp hmem).imp_right (List.mem_cons_of_mem _)
        · rcases List.mem_cons.mp hmem with rfl | hrest
          · exact Or.inr List.mem_cons_self
          · exact (ih hrest).imp_right (List.mem_cons_of_mem _)

theorem lookup_pair (key value other : String)
    (rest : List (String × String)) :
    ((key, value) :: rest).lookup other =
      if other = key then some value else rest.lookup other := by
  rw [List.lookup_cons]
  by_cases heq : other = key
  · rw [if_pos heq, beq_iff_eq.mpr heq]
  · rw [if_neg heq, beq_eq_false_iff_ne.mpr heq]

theorem lookup_insertPair (key value other : String)
    (pairs : List (String × String)) :
    (insertPair key value pairs).lookup other =
      if other = key then some value else pairs.lookup other := by
  induction pairs with
  | nil => exact lookup_pair key value other []
  | cons first rest ih =>
      obtain ⟨k, v⟩ := first
      unfold insertPair
      split
      next hlt => exact lookup_pair key value other _
      next hnot =>
        split
        next heq =>
          subst heq
          rw [lookup_pair, lookup_pair]
          split_ifs <;> rfl
        next hne =>
          rw [lookup_pair, lookup_pair, ih]
          split_ifs with hk hkey
          · exact absurd (hkey.symm.trans hk) hne
          · rfl
          · rfl
          · rfl

/-- The parameters of one request: one value for a key, in key order. -/
structure Query where
  pairs : List (String × String)
  sorted : pairs.Pairwise fun first second => first.1 < second.1

namespace Query

def default : Query := ⟨[], .nil⟩

def insert (query : Query) (key value : String) : Query where
  pairs := insertPair key value query.pairs
  sorted := by
    obtain ⟨pairs, hsorted⟩ := query
    induction pairs with
    | nil => exact List.pairwise_singleton _ _
    | cons first rest ih =>
        obtain ⟨other, old⟩ := first
        obtain ⟨hfirst, hrest⟩ := List.pairwise_cons.mp hsorted
        unfold insertPair
        split
        next hlt =>
          refine List.pairwise_cons.mpr ⟨?_, hsorted⟩
          intro pair hpair
          rcases List.mem_cons.mp hpair with rfl | hpair
          · exact hlt
          · exact String.lt_trans hlt (hfirst pair hpair)
        next hnot =>
          split
          next heq =>
            subst heq
            exact List.pairwise_cons.mpr ⟨hfirst, hrest⟩
          next hne =>
            refine List.pairwise_cons.mpr ⟨?_, ih hrest⟩
            intro pair hpair
            rcases mem_insertPair hpair with rfl | hpair
            · by_contra hback
              exact hne (String.le_antisymm (String.not_lt.mp hback)
                (String.not_lt.mp hnot))
            · exact hfirst pair hpair

def get (query : Query) (key : String) : Option String :=
  query.pairs.lookup key

theorem get_insert (query : Query) (key value other : String) :
    (query.insert key value).get other =
      if other = key then some value else query.get other :=
  lookup_insertPair key value other query.pairs

end Query

/-! ## Requests -/

/-- What a segment of a path is written from. -/
inductive Segment where
  | word (text : String)
  | number (n : UInt64)
  | project (ident : ProjectIdent)
  | page (title : WikiTitle)

instance : Coe String Segment := ⟨.word⟩

instance : Coe UInt64 Segment := ⟨.number⟩

instance : Coe ProjectIdent Segment := ⟨.project⟩

instance : Coe WikiTitle Segment := ⟨.page⟩

def Segment.text (encodes : Char → Bool) : Segment → List Char
  | word text => text.toList
  | number n => (toString n.toNat).toList
  | project ident => ident.display.toList
  | page title => title.encodedSegment encodes

inductive Payload where
  | empty
  | json (value : Json)
  | form (pairs : List (String × String))
  | bytes (contentType : String) (content : List UInt8)

/-- A request before it has a URL.  `json` puts `.json` behind the path. -/
structure ApiRequest where
  method : Retry.Method
  segments : List Segment
  json : Bool
  query : Query
  payload : Payload

namespace ApiRequest

def getJson (segments : List Segment) (query : Query := .default) :
    ApiRequest :=
  ⟨.get, segments, true, query, .empty⟩

def postJson (segments : List Segment) (body : Json)
    (query : Query := .default) : ApiRequest :=
  ⟨.post, segments, true, query, .json body⟩

def putJson (segments : List Segment) (body : Json) : ApiRequest :=
  ⟨.put, segments, true, .default, .json body⟩

def delete (segments : List Segment) (query : Query := .default) :
    ApiRequest :=
  ⟨.delete, segments, true, query, .empty⟩

def postForm (segments : List Segment) (pairs : List (String × String)) :
    ApiRequest :=
  ⟨.post, segments, false, .default, .form pairs⟩

/-- The texts between the slashes of a path. -/
def pieces (encodes : Char → Bool) (json : Bool) :
    List Segment → List (List Char)
  | [] => []
  | [last] => [last.text encodes ++ if json then ".json".toList else []]
  | segment :: next :: rest =>
      segment.text encodes :: pieces encodes json (next :: rest)

def path (encodes : Char → Bool) (request : ApiRequest) : String :=
  String.ofList
    (pathText (pieces encodes request.json request.segments)).tail

end ApiRequest

/-! ## The calls -/

/-- The requests that the methods of `Scoped` make, the writes with the body
they send. -/
inductive ApiCall where
  | currentUser
  | introspectToken (token : String)
  | revokeToken (token : String) (hint : Option String)
  | exchangeAuthorizationCode (code redirectUri codeVerifier : String)
  | refreshAccessToken (refreshToken : String)
  | listProjects (query : Query)
  | getProject (id : ProjectIdent) (query : Query)
  | listIssues (query : Query)
  | search (query : Query)
  | getIssue (id : UInt64) (query : Query)
  | createIssue (query : Query) (body : Json)
  | updateIssue (id : UInt64) (body : Json)
  | deleteIssue (id : UInt64)
  | listRelations (issue : UInt64)
  | createRelation (issue : UInt64) (body : Json)
  | deleteRelation (id : UInt64)
  | addWatcher (issue : UInt64) (body : Json)
  | removeWatcher (issue user : UInt64)
  | updateJournal (id : UInt64) (body : Json)
  | listIssueCategories (project : ProjectIdent)
  | getIssueCategory (id : UInt64)
  | createIssueCategory (project : ProjectIdent) (body : Json)
  | updateIssueCategory (id : UInt64) (body : Json)
  | deleteIssueCategory (id : UInt64) (query : Query)
  | listChecklistItems (issue : UInt64)
  | createChecklistItem (issue : UInt64) (body : Json)
  | updateChecklistItem (id : UInt64) (body : Json)
  | getAgileData (issue : UInt64)
  | listProducts (project : Option ProjectIdent) (query : Query)
  | getProduct (id : UInt64)
  | createProduct (body : Json)
  | updateProduct (id : UInt64) (body : Json)
  | listContacts (query : Query)
  | getContact (id : UInt64) (query : Query)
  | createContact (body : Json)
  | updateContact (id : UInt64) (body : Json)
  | deleteContact (id : UInt64)
  | assignContactToProject (id : UInt64) (body : Json)
  | removeContactFromProject (id : UInt64) (project : ProjectIdent)
  | listTimeEntries (query : Query)
  | createTimeEntry (body : Json)
  | getTimeEntry (id : UInt64)
  | updateTimeEntry (id : UInt64) (body : Json)
  | listTimeEntryActivities
  | listTrackers
  | listIssueStatuses
  | listIssuePriorities
  | listUsers (query : Query)
  | listSavedQueries (query : Query)
  | listVersions (project : ProjectIdent)
  | getVersion (id : UInt64)
  | createVersion (project : ProjectIdent) (body : Json)
  | updateVersion (id : UInt64) (body : Json)
  | deleteVersion (id : UInt64)
  | listMemberships (project : ProjectIdent) (query : Query)
  | getMembership (id : UInt64)
  | createMembership (project : ProjectIdent) (body : Json)
  | updateMembership (id : UInt64) (body : Json)
  | deleteMembership (id : UInt64)
  | listRoles
  | listCustomFieldDefinitions
  | listWikiPages (project : ProjectIdent)
  | getWikiPage (project : ProjectIdent) (title : WikiTitle)
      (version : Option UInt32) (query : Query)
  | writeWikiPage (project : ProjectIdent) (title : WikiTitle) (body : Json)
  | deleteWikiPage (project : ProjectIdent) (title : WikiTitle)
  | getAttachment (id : UInt64)
  | deleteAttachment (id : UInt64)
  | listProjectFiles (project : ProjectIdent)
  | createUpload (query : Query) (content : List UInt8)
  | createProjectFile (project : ProjectIdent) (body : Json)
  | listDmsfNodes (project : ProjectIdent) (query : Query)
  | getDmsfFile (id : UInt64)
  | commitDmsfUpload (project : ProjectIdent) (body : Json)
  | createDmsfRevision (id : UInt64) (body : Json)

namespace ApiCall

open ApiRequest

def request : ApiCall → ApiRequest
  | currentUser => getJson ["my", "account"]
  | introspectToken token =>
      postForm ["oauth", "introspect"]
        [("token", token), ("token_type_hint", "access_token")]
  | revokeToken token hint =>
      postForm ["oauth", "revoke"] (("token", token) ::
        (hint.map fun hint => ("token_type_hint", hint)).toList)
  | exchangeAuthorizationCode code redirectUri codeVerifier =>
      postForm ["oauth", "token"]
        [("grant_type", "authorization_code"), ("code", code),
          ("redirect_uri", redirectUri), ("code_verifier", codeVerifier)]
  | refreshAccessToken refreshToken =>
      postForm ["oauth", "token"]
        [("grant_type", "refresh_token"), ("refresh_token", refreshToken)]
  | listProjects query => getJson ["projects"] query
  | getProject id query => getJson ["projects", id] query
  | listIssues query => getJson ["issues"] query
  | search query => getJson ["search"] query
  | getIssue id query => getJson ["issues", id] query
  | createIssue query body => postJson ["issues"] body query
  | updateIssue id body => putJson ["issues", id] body
  | deleteIssue id => delete ["issues", id]
  | listRelations issue => getJson ["issues", issue, "relations"]
  | createRelation issue body => postJson ["issues", issue, "relations"] body
  | deleteRelation id => delete ["relations", id]
  | addWatcher issue body => postJson ["issues", issue, "watchers"] body
  | removeWatcher issue user => delete ["issues", issue, "watchers", user]
  | updateJournal id body => putJson ["journals", id] body
  | listIssueCategories project =>
      getJson ["projects", project, "issue_categories"]
  | getIssueCategory id => getJson ["issue_categories", id]
  | createIssueCategory project body =>
      postJson ["projects", project, "issue_categories"] body
  | updateIssueCategory id body => putJson ["issue_categories", id] body
  | deleteIssueCategory id query => delete ["issue_categories", id] query
  | listChecklistItems issue => getJson ["issues", issue, "checklists"]
  | createChecklistItem issue body =>
      postJson ["issues", issue, "checklists"] body
  | updateChecklistItem id body => putJson ["checklists", id] body
  | getAgileData issue => getJson ["issues", issue, "agile_data"]
  | listProducts none query => getJson ["products"] query
  | listProducts (some project) query =>
      getJson ["projects", project, "products"] query
  | getProduct id => getJson ["products", id]
  | createProduct body => postJson ["products"] body
  | updateProduct id body => putJson ["products", id] body
  | listContacts query => getJson ["contacts"] query
  | getContact id query => getJson ["contacts", id] query
  | createContact body => postJson ["contacts"] body
  | updateContact id body => putJson ["contacts", id] body
  | deleteContact id => delete ["contacts", id]
  | assignContactToProject id body =>
      postJson ["contacts", id, "projects"] body
  | removeContactFromProject id project =>
      delete ["contacts", id, "projects", project]
  | listTimeEntries query => getJson ["time_entries"] query
  | createTimeEntry body => postJson ["time_entries"] body
  | getTimeEntry id => getJson ["time_entries", id]
  | updateTimeEntry id body => putJson ["time_entries", id] body
  | listTimeEntryActivities =>
      getJson ["enumerations", "time_entry_activities"]
  | listTrackers => getJson ["trackers"]
  | listIssueStatuses => getJson ["issue_statuses"]
  | listIssuePriorities => getJson ["enumerations", "issue_priorities"]
  | listUsers query => getJson ["users"] query
  | listSavedQueries query => getJson ["queries"] query
  | listVersions project => getJson ["projects", project, "versions"]
  | getVersion id => getJson ["versions", id]
  | createVersion project body =>
      postJson ["projects", project, "versions"] body
  | updateVersion id body => putJson ["versions", id] body
  | deleteVersion id => delete ["versions", id]
  | listMemberships project query =>
      getJson ["projects", project, "memberships"] query
  | getMembership id => getJson ["memberships", id]
  | createMembership project body =>
      postJson ["projects", project, "memberships"] body
  | updateMembership id body => putJson ["memberships", id] body
  | deleteMembership id => delete ["memberships", id]
  | listRoles => getJson ["roles"]
  | listCustomFieldDefinitions => getJson ["custom_fields"]
  | listWikiPages project => getJson ["projects", project, "wiki", "index"]
  | getWikiPage project title none query =>
      getJson ["projects", project, "wiki", title] query
  | getWikiPage project title (some version) query =>
      getJson ["projects", project, "wiki", title,
        version.toUInt64] query
  | writeWikiPage project title body =>
      putJson ["projects", project, "wiki", title] body
  | deleteWikiPage project title =>
      delete ["projects", project, "wiki", title]
  | getAttachment id => getJson ["attachments", id]
  | deleteAttachment id => delete ["attachments", id]
  | listProjectFiles project => getJson ["projects", project, "files"]
  | createUpload query content =>
      ⟨.post, ["uploads"], true, query,
        .bytes "application/octet-stream" content⟩
  | createProjectFile project body =>
      postJson ["projects", project, "files"] body
  | listDmsfNodes project query =>
      getJson ["projects", project, "dmsf"] query
  | getDmsfFile id => getJson ["dmsf_files", id]
  | commitDmsfUpload project body =>
      postJson ["projects", project, "dmsf", "commit"] body
  | createDmsfRevision id body =>
      postJson ["dmsf", "files", id, "revision", "create"] body

/-- The page whose title a call puts into its path, and the version behind
it. -/
def page? : ApiCall → Option (ProjectIdent × WikiTitle × Option UInt32)
  | getWikiPage project title version _ => some (project, title, version)
  | writeWikiPage project title _ | deleteWikiPage project title =>
      some (project, title, none)
  | _ => none

/-- The calls that are sent: those without a title, and those whose title
passes the checks of `endpoint`. -/
def IsSent (call : ApiCall) : Prop :=
  ∀ project title version, call.page? = some (project, title, version) →
    Passes title version

end ApiCall

/-- What a segment stands for. -/
def Segment.content : Segment → List Char
  | word text => text.toList
  | number n => (toString n.toNat).toList
  | project ident => ident.display.toList
  | page title => title.text.toList

/-- What the segments of a path stand for, with the ending of the last one. -/
def contents (ending : List Char) : List Segment → List (List Char)
  | [] => []
  | [last] => [last.content ++ ending]
  | segment :: next :: rest => segment.content :: contents ending (next :: rest)

/-- The segments of a path as a server reads them. -/
def readSegments (path : List Char) : List (List UInt8) :=
  (path.splitOn '/').map Percent.decode

/-! ## Segments that need no encoding -/

/-- A text of letters, digits, dashes and underscores. -/
structure IsOrdinary (piece : List Char) : Prop where
  nonempty : piece ≠ []
  chars : ∀ c ∈ piece, c.isAlphanum = true ∨ c = '-' ∨ c = '_'

theorem isOrdinary_number (n : ℕ) : IsOrdinary (toString n).toList where
  nonempty := by
    rw [Nat.toString_eq_repr, Nat.toList_repr]
    exact Nat.toDigits_ne_nil
  chars := by
    intro c hmem
    left
    rw [Char.isAlphanum, RustText.isDigit_of_mem_toString hmem, Bool.or_true]

theorem identifier_chars (slug : ProjectIdentifier) :
    slug.text.toList ≠ [] ∧ slug.text.toList.all isAllowed = true := by
  have haccepted := slug.accepted
  unfold identifierError at haccepted
  split at haccepted
  next => cases haccepted
  next first rest htext =>
    split_ifs at haccepted with hstart hlong hallowed
    refine ⟨by rw [htext]; exact List.cons_ne_nil _ _, ?_⟩
    rwa [Bool.not_eq_true', Bool.not_eq_false] at hallowed

theorem isOrdinary_display (project : ProjectIdent) :
    IsOrdinary project.display.toList := by
  cases project with
  | id number => exact isOrdinary_number number.toNat
  | identifier slug =>
      obtain ⟨hnonempty, hall⟩ := identifier_chars slug
      refine ⟨hnonempty, fun c hmem => ?_⟩
      have hallowed := List.all_eq_true.mp hall c hmem
      simp only [isAllowed, Bool.or_eq_true, decide_eq_true_eq] at hallowed
      rcases hallowed with ((hlower | hdigit) | hscore) | hdash
      · left
        change ((c.isUpper || c.isLower) || c.isDigit) = true
        rw [hlower, Bool.or_true, Bool.true_or]
      · left
        rw [Char.isAlphanum, hdigit, Bool.or_true]
      · exact Or.inr (Or.inr hscore)
      · exact Or.inr (Or.inl hdash)

/-- A word that is written as it stands. -/
def Segment.isSafe : Segment → Bool
  | word text => !text.toList.isEmpty && text.toList.all fun c => decide
      (c.isAlphanum = true ∨ c = '-' ∨ c = '_')
  | number _ | project _ => true
  | page _ => false

theorem Segment.isOrdinary_text {segment : Segment} (encodes : Char → Bool)
    (hsafe : segment.isSafe = true) : IsOrdinary (segment.text encodes) := by
  cases segment with
  | word text =>
      simp only [isSafe, Bool.and_eq_true, Bool.not_eq_true',
        List.isEmpty_eq_false_iff, List.all_eq_true, decide_eq_true_eq] at hsafe
      exact ⟨hsafe.1, hsafe.2⟩
  | number n => exact isOrdinary_number n.toNat
  | project ident => exact isOrdinary_display ident
  | page title => cases hsafe

section Plain

variable {parser : Parser}

theorem IsOrdinary.isPlain (encoder : SegmentEncoder parser)
    {piece : List Char} (hordinary : IsOrdinary piece) : IsPlain parser piece :=
  isPlain_of_ordinary encoder hordinary.nonempty hordinary.chars

theorem IsOrdinary.isPlain_json (encoder : SegmentEncoder parser)
    {piece : List Char} (hordinary : IsOrdinary piece) :
    IsPlain parser (piece ++ ".json".toList) := by
  have hplain := hordinary.isPlain encoder
  have hlast : piece.getLast? ≠ some '.' := by
    intro hlast
    have hdot := hordinary.chars '.' (List.mem_of_mem_getLast? hlast)
    exact absurd hdot (by decide)
  have hdecode : Percent.decode (piece ++ ".json".toList) =
      Percent.utf8 (piece ++ ".json".toList) := by
    apply Percent.decode_of_no_percent
    rw [List.mem_append]
    rintro (hpiece | hjson)
    · exact absurd (hordinary.chars '%' hpiece) (by decide)
    · exact absurd hjson (by decide)
  exact RedmineClient.isPlain_json encoder hplain.chars hplain.dots hlast hdecode

theorem isPlain_pieces (encoder : SegmentEncoder parser)
    (json : Bool) {segments : List Segment}
    (hsafe : ∀ segment ∈ segments, segment.isSafe = true) :
    ∀ piece ∈ ApiRequest.pieces encoder.encodes json segments,
      IsPlain parser piece := by
  induction segments with
  | nil => exact List.forall_mem_nil _
  | cons segment rest ih =>
      obtain ⟨hsegment, hrest⟩ := List.forall_mem_cons.mp hsafe
      have hordinary := Segment.isOrdinary_text encoder.encodes hsegment
      cases rest with
      | nil =>
          refine List.forall_mem_singleton.mpr ?_
          cases json with
          | true => exact hordinary.isPlain_json encoder
          | false =>
              simpa using hordinary.isPlain encoder
      | cons next rest =>
          exact List.forall_mem_cons.mpr
            ⟨hordinary.isPlain encoder, ih hrest⟩

end Plain

/-! ## Segments as a server reads them -/

section Reading

variable {parser : Parser} (encoder : SegmentEncoder parser)

theorem splitOn_pathText {first : List Char} {rest : List (List Char)}
    (hpieces : ∀ piece ∈ first :: rest, '/' ∉ piece) :
    (first ++ pathText rest).splitOn '/' = first :: rest := by
  induction rest generalizing first with
  | nil =>
      rw [pathText, List.flatMap_nil, List.append_nil]
      exact RustText.splitOn_of_not_mem (hpieces first List.mem_cons_self)
  | cons next rest ih =>
      rw [pathText, List.flatMap_cons, List.cons_append, ← pathText,
        RustText.splitOn_append_cons,
        RustText.splitOn_of_not_mem (hpieces first List.mem_cons_self),
        ih fun piece hmem => hpieces piece (List.mem_cons_of_mem _ hmem)]
      rfl

/-- A segment decodes to what it stands for, and ends where it is written to
end, unless it is the title that pushing ignores. -/
structure Segment.ReadAs (segment : Segment) : Prop where
  noSlash : '/' ∉ segment.text encoder.encodes
  decodes : ∀ ending, '%' ∉ ending →
    Percent.decode (segment.text encoder.encodes ++ ending) =
      Percent.utf8 (segment.content ++ ending)

theorem Segment.readAs_of_isSafe {segment : Segment}
    (hsafe : segment.isSafe = true) : segment.ReadAs encoder := by
  have hordinary := Segment.isOrdinary_text encoder.encodes hsafe
  have hcontent : segment.content = segment.text encoder.encodes := by
    cases segment with
    | page title => cases hsafe
    | _ => rfl
  refine ⟨fun hmem => absurd (hordinary.chars '/' hmem) (by decide), ?_⟩
  intro ending hending
  rw [hcontent]
  apply Percent.decode_of_no_percent
  rw [List.mem_append]
  rintro (hmem | hmem)
  · exact absurd (hordinary.chars '%' hmem) (by decide)
  · exact hending hmem

theorem Segment.readAs_page {title : WikiTitle}
    (hdot : title.text.toList ≠ ".".toList) :
    (Segment.page title).ReadAs encoder := by
  have htext : (Segment.page title).text encoder.encodes =
      Percent.encode encoder.encodes title.text.toList :=
    WikiTitle.encodedSegment_eq encoder hdot
  refine ⟨htext ▸ title.slash_notMem_encode encoder, ?_⟩
  intro ending hending
  rw [htext, Percent.decode_encode_append encoder.percent,
    Percent.decode_of_no_percent hending, Percent.utf8_append]
  rfl

theorem readSegments_pieces (json : Bool) {segments : List Segment}
    (hread : ∀ segment ∈ segments, segment.ReadAs encoder) :
    (∀ piece ∈ ApiRequest.pieces encoder.encodes json segments, '/' ∉ piece) ∧
      (ApiRequest.pieces encoder.encodes json segments).map Percent.decode =
        (contents (if json then ".json".toList else []) segments).map
          Percent.utf8 := by
  have hending : '%' ∉ (if json then ".json".toList else []) ∧
      '/' ∉ (if json then ".json".toList else []) := by
    cases json <;> decide
  induction segments with
  | nil => exact ⟨List.forall_mem_nil _, rfl⟩
  | cons segment rest ih =>
      obtain ⟨hsegment, hrest⟩ := List.forall_mem_cons.mp hread
      obtain ⟨hslash, hdecode⟩ := ih hrest
      cases rest with
      | nil =>
          refine ⟨List.forall_mem_singleton.mpr ?_,
            congrArg (· :: []) (hsegment.decodes _ hending.1)⟩
          rw [List.mem_append]
          exact fun hmem => hmem.elim hsegment.noSlash hending.2
      | cons next rest =>
          refine ⟨List.forall_mem_cons.mpr ⟨hsegment.noSlash, hslash⟩, ?_⟩
          rw [ApiRequest.pieces, contents, List.map_cons, List.map_cons, hdecode]
          have hplain := hsegment.decodes [] List.not_mem_nil
          rw [List.append_nil, List.append_nil] at hplain
          rw [hplain]

end Reading

namespace ApiCall

theorem isSafe_segments {call : ApiCall} (hpage : call.page? = none) :
    ∀ segment ∈ call.request.segments, segment.isSafe = true := by
  rw [← List.all_eq_true]
  cases call with
  | getWikiPage project title version query => cases hpage
  | writeWikiPage project title body => cases hpage
  | deleteWikiPage project title => cases hpage
  | listProducts project query => cases project <;> rfl
  | _ => rfl

/-- A text that a call puts into its path is safe or the title of a page. -/
theorem isSafe_or_page {call : ApiCall} :
    ∀ segment ∈ call.request.segments,
      segment.isSafe = true ∨ ∃ title, segment = .page title := by
  cases hpage : call.page? with
  | none => exact fun segment hmem => Or.inl (isSafe_segments hpage segment hmem)
  | some page =>
      cases call with
      | getWikiPage project title version query =>
          cases version <;>
            simp [request, ApiRequest.getJson, Segment.isSafe]
      | writeWikiPage project title body =>
          simp [request, ApiRequest.putJson, Segment.isSafe]
      | deleteWikiPage project title =>
          simp [request, ApiRequest.delete, Segment.isSafe]
      | _ => cases hpage

theorem path_page (encodes : Char → Bool) {call : ApiCall}
    {project : ProjectIdent} {title : WikiTitle} {version : Option UInt32}
    (hpage : call.page? = some (project, title, version)) :
    call.request.path encodes = wikiPath encodes project title version := by
  rw [wikiPath_eq]
  cases call with
  | getWikiPage project title version query =>
      cases hpage
      cases version with
      | none => rfl
      | some version =>
          simp only [request, ApiRequest.getJson, ApiRequest.path,
            ApiRequest.pieces, Segment.text, titleSuffix, versionSegments,
            UInt32.toNat_toUInt64, if_true, List.append_nil]
          rfl
  | writeWikiPage project title body =>
      cases hpage
      rfl
  | deleteWikiPage project title =>
      cases hpage
      rfl
  | _ => cases hpage

/-- The path of a call without a title, with its first piece. -/
theorem path_eq {call : ApiCall} (encodes : Char → Bool)
    (hpage : call.page? = none) :
    ∃ first rest,
      ApiRequest.pieces encodes call.request.json call.request.segments =
        first :: rest ∧
      call.request.path encodes = String.ofList (first ++ pathText rest) ∧
      ':' ∉ first := by
  have hsafe := isSafe_segments hpage
  have hsegments : call.request.segments ≠ [] := by
    cases call with
    | getWikiPage project title version query => cases hpage
    | listProducts project query => cases project <;> exact List.cons_ne_nil _ _
    | _ => exact List.cons_ne_nil _ _
  obtain ⟨segment, segments, hcons⟩ := List.exists_cons_of_ne_nil hsegments
  rw [ApiRequest.path, hcons]
  have hordinary := Segment.isOrdinary_text encodes
    (hsafe segment (by rw [hcons]; exact List.mem_cons_self))
  have hcolon : ':' ∉ segment.text encodes := fun hmem =>
    absurd (hordinary.chars ':' hmem) (by decide)
  cases segments with
  | nil =>
      refine ⟨_, [], rfl, by simp [ApiRequest.pieces, pathText], ?_⟩
      rw [List.mem_append]
      rintro (hmem | hmem)
      · exact hcolon hmem
      · split at hmem
        · exact absurd hmem (by decide)
        · cases hmem
  | cons next rest => exact ⟨_, _, rfl, rfl, hcolon⟩

section Urls

variable {crate : UrlCrate} (encoder : SegmentEncoder crate.toParser) {base : Url}

theorem endpoint_path (hbase : IsApiBase base) {call : ApiCall}
    (hsent : call.IsSent) :
    endpoint crate base (call.request.path encoder.encodes) =
      .ok { base with
        path := base.path ++ call.request.path encoder.encodes
        query := none
        fragment := none } := by
  cases hpage : call.page? with
  | none =>
      obtain ⟨first, rest, hpieces, hpath, hcolon⟩ :=
        path_eq encoder.encodes hpage
      have hplain := isPlain_pieces encoder call.request.json
        (isSafe_segments hpage)
      rw [hpieces] at hplain
      rw [hpath]
      exact IsPlain.endpoint_pathText hbase hplain hcolon
  | some page =>
      obtain ⟨project, title, version⟩ := page
      rw [path_page encoder.encodes hpage]
      exact endpoint_wikiPath encoder hbase project
        (hsent project title version hpage)

theorem refuses_path {call : ApiCall} (hsent : ¬ call.IsSent) :
    (refuses (call.request.path encoder.encodes)).isSome = true := by
  unfold IsSent at hsent
  push Not at hsent
  obtain ⟨project, title, version, hpage, hpasses⟩ := hsent
  rw [path_page encoder.encodes hpage]
  exact refuses_wikiPath encoder project hpasses

/-- The URL of a call. -/
def url (crate : UrlCrate) (encodes : Char → Bool) (base : Url)
    (call : ApiCall) : Except EndpointError Url :=
  buildUrl crate base (call.request.path encodes)
    (some call.request.query.pairs)

/-- A URL on the server of the base that says what a call asks for.  The page
with the title `.` is the exception: pushing ignores the title. -/
structure Addresses (form : FormCodec) (base : Url) (call : ApiCall)
    (url : Url) : Prop where
  scheme : url.scheme = base.scheme
  host : url.host = base.host
  port : url.port = base.port
  path : ∃ rest, url.path.toList = base.path.toList ++ rest ∧
    ((∀ title, .page title ∈ call.request.segments → title.text ≠ ".") →
      readSegments rest =
        (contents (if call.request.json then ".json".toList else [])
          call.request.segments).map Percent.utf8)
  query : form.queryPairs url = call.request.query.pairs.map .of
  fragment : url.fragment = none

theorem segments_ne_nil (call : ApiCall) : call.request.segments ≠ [] := by
  cases call with
  | listProducts project query => cases project <;> exact List.cons_ne_nil _ _
  | getWikiPage project title version query =>
      cases version <;> exact List.cons_ne_nil _ _
  | _ => exact List.cons_ne_nil _ _

/-- The path of a call is read as its segments. -/
theorem readSegments_path {call : ApiCall}
    (hdot : ∀ title, .page title ∈ call.request.segments → title.text ≠ ".") :
    readSegments (call.request.path encoder.encodes).toList =
      (contents (if call.request.json then ".json".toList else [])
        call.request.segments).map Percent.utf8 := by
  have hread : ∀ segment ∈ call.request.segments, segment.ReadAs encoder := by
    intro segment hmem
    rcases isSafe_or_page segment hmem with hsafe | ⟨title, rfl⟩
    · exact Segment.readAs_of_isSafe encoder hsafe
    · apply Segment.readAs_page encoder
      exact fun heq => hdot title hmem (String.toList_inj.mp heq)
  obtain ⟨hslash, hdecode⟩ := readSegments_pieces encoder call.request.json hread
  have hnonempty :
      ApiRequest.pieces encoder.encodes call.request.json call.request.segments ≠
        [] := by
    intro hnil
    rw [hnil] at hdecode
    obtain ⟨segment, rest, hcons⟩ :=
      List.exists_cons_of_ne_nil (segments_ne_nil call)
    rw [hcons] at hdecode
    cases rest <;> cases hdecode
  obtain ⟨first, rest, hcons⟩ := List.exists_cons_of_ne_nil hnonempty
  rw [hcons] at hslash hdecode
  rw [readSegments, ApiRequest.path, String.toList_ofList, hcons, pathText,
    List.flatMap_cons, List.cons_append, List.tail_cons, ← pathText,
    splitOn_pathText hslash, hdecode]

theorem addresses_url (hbase : IsApiBase base) {call : ApiCall}
    (hsent : call.IsSent) :
    ∃ url, call.url crate encoder.encodes base = .ok url ∧
      Addresses crate.form base call url := by
  simp only [ApiCall.url, buildUrl, endpoint_path encoder hbase hsent,
    Except.map]
  refine ⟨_, rfl, ?_⟩
  have hpath : (base.path ++ call.request.path encoder.encodes).toList =
      base.path.toList ++ (call.request.path encoder.encodes).toList :=
    String.toList_append
  split
  next hempty =>
    refine ⟨rfl, rfl, rfl, ⟨_, hpath, readSegments_path encoder⟩, ?_, rfl⟩
    rw [List.isEmpty_iff.mp hempty]
    exact crate.form.queryPairs_of_none _ rfl
  next =>
    obtain ⟨hscheme, hhost, hport, hpath'⟩ := crate.form.appendPairs_sameTarget
      { base with
        path := base.path ++ call.request.path encoder.encodes
        query := none
        fragment := none } call.request.query.pairs
    refine ⟨hscheme, hhost, hport,
      ⟨_, by rw [hpath', hpath], readSegments_path encoder⟩, ?_,
      crate.form.fragment_appendPairs ..⟩
    rw [crate.form.queryPairs_appendPairs, crate.form.queryPairs_of_none _ rfl]
    rfl

theorem not_sent_of_error {call : ApiCall} (hsent : ¬ call.IsSent) (url : Url) :
    call.url crate encoder.encodes base ≠ .ok url := by
  obtain ⟨error, herror⟩ :=
    Option.isSome_iff_exists.mp (refuses_path encoder hsent)
  simp [ApiCall.url, buildUrl, endpoint, herror, Except.map]

end Urls

theorem addresses_of_url {crate : UrlCrate}
    (encoder : SegmentEncoder crate.toParser) {base url : Url} (hbase : IsApiBase base)
    {call : ApiCall}
    (hurl : call.url crate encoder.encodes base = .ok url) :
    Addresses crate.form base call url := by
  have hsent : call.IsSent := by
    by_contra hnot
    exact not_sent_of_error encoder hnot url hurl
  obtain ⟨other, hother, haddresses⟩ := addresses_url encoder hbase hsent
  rw [hurl] at hother
  cases hother
  exact haddresses

/-- A call has a URL exactly when the title in it passes, and Redmine then
finds behind the base the path of the call and the parameters of its query. -/
theorem url_iff_addresses {crate : UrlCrate}
    (encoder : SegmentEncoder crate.toParser) {base : Url} (hbase : IsApiBase base)
    (call : ApiCall) :
    (call.IsSent ↔ ∃ url, call.url crate encoder.encodes base = .ok url) ∧
      ∀ url, call.url crate encoder.encodes base = .ok url →
        Addresses crate.form base call url := by
  refine ⟨⟨fun hsent => ?_, ?_⟩, fun url => addresses_of_url encoder hbase⟩
  · obtain ⟨url, hurl, -⟩ := addresses_url encoder hbase hsent
    exact ⟨url, hurl⟩
  · rintro ⟨url, hurl⟩
    by_contra hnot
    exact not_sent_of_error encoder hnot url hurl

end ApiCall

namespace Sample

theorem issue_list_is_addressed :
    IsApiBase base ∧
      (((ApiCall.listIssues
          (Query.default.insert "subject" "a&b=c")).IsSent ↔
        ∃ url, (ApiCall.listIssues
          (Query.default.insert "subject" "a&b=c")).url crate
            encoder.encodes base = .ok url) ∧
      ∀ url, (ApiCall.listIssues
          (Query.default.insert "subject" "a&b=c")).url crate
            encoder.encodes base = .ok url →
        ApiCall.Addresses crate.form base (.listIssues
          (Query.default.insert "subject" "a&b=c")) url) :=
  ⟨⟨Or.inr rfl, rfl, by decide, by decide⟩,
    ApiCall.url_iff_addresses encoder
      ⟨Or.inr rfl, rfl, by decide, by decide⟩ _⟩

end Sample

end RedmineClient
