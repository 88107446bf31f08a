import RuprogressMcp.FormParameters
import RuprogressMcp.RustText
import RuprogressMcp.UrlJoin

/-!
# The endpoint guard of the Redmine client

`Scoped::endpoint` looks for a leading slash, `..`, `//` and control
characters in a path before it resolves the path against the API base.  The
resolver knows more spellings: a scheme, a backslash, blanks around the path
and percent-encoded dots.  A path keeps every URL under its base exactly when
it uses none of these to leave, or when the resolver refuses it.
-/

namespace RedmineClient

open UrlJoin

inductive EndpointError where
  | absolutePath (path : String)
  | traversal (path : String)
  | controlCharacters
  | invalidPath (path : String) (error : String)
deriving DecidableEq, Repr

/-- The reason in the error; the quoting of `{:?}` is a parameter. -/
def EndpointError.reason (quote : String → String) : EndpointError → String
  | .absolutePath path =>
      "path must be relative to the API base, got absolute path " ++ quote path
  | .traversal path => "path must not contain '..' or '//': " ++ quote path
  | .controlCharacters => "path must not contain control characters"
  | .invalidPath path error => "invalid path " ++ quote path ++ ": " ++ error

/-- The checks that `endpoint` makes on the text of a path. -/
def refuses (path : String) : Option EndpointError :=
  if path.toList.head? = some '/' then some (.absolutePath path)
  else if "..".toList <:+: path.toList ∨ "//".toList <:+: path.toList then
    some (.traversal path)
  else if path.toList.any RustText.isControl then some .controlCharacters
  else none

def endpoint (crate : UrlCrate) (base : Url) (path : String) :
    Except EndpointError Url :=
  match refuses path with
  | some error => .error error
  | none => (crate.join base path).mapError (.invalidPath path)

/-- The query of a request goes behind the path. -/
def buildUrl (crate : UrlCrate) (base : Url) (path : String)
    (query : Option (List (String × String))) : Except EndpointError Url :=
  (endpoint crate base path).map fun url =>
    match query with
    | some pairs => if pairs.isEmpty then url else crate.form.appendPairs url pairs
    | none => url

/-- What the builder makes of a base URL. -/
structure IsApiBase (base : Url) : Prop where
  scheme : base.scheme = "http" ∨ base.scheme = "https"
  host : base.host.isSome = true
  start : base.path.toList.head? = some '/'
  finish : base.path.toList.getLast? = some '/'

/-- A URL on the server of the base and under its path. -/
structure Under (base url : Url) : Prop where
  scheme : url.scheme = base.scheme
  host : url.host = base.host
  port : url.port = base.port
  path : base.path.toList <+: url.path.toList

/-! ## References that stay -/

def authorityFails (parser : Parser) (text : List Char) : Bool :=
  match parser.authority
      (text.takeWhile fun c => !(isSlash c || endsPath c)) with
  | .ok _ => false
  | .error _ => true

/-- A reference that does not leave the directory it is resolved in. -/
def relativeStays (parser : Parser) : List Char → Bool
  | [] => true
  | c :: rest =>
      if isSlash c then
        rest.head?.any isSlash && authorityFails parser (rest.dropWhile isSlash)
      else staysBelow 0 (piecesOf (c :: rest))

def isHttp (scheme : List Char) : Bool :=
  scheme = "http".toList || scheme = "https".toList

/-- The path has no scheme, no leading slash of either kind and no more steps
up than down; or the parser refuses what it spells. -/
def staysInside (parser : Parser) (text : List Char) : Bool :=
  match schemeOf text with
  | some (scheme, rest) =>
      if isSpecial scheme then
        authorityFails parser (rest.dropWhile isSlash) &&
          (!isHttp scheme || 2 ≤ (rest.takeWhile isSlash).length ||
            relativeStays parser rest)
      else
        match parser.absolute scheme rest with
        | .ok _ => false
        | .error _ => true
  | none => relativeStays parser text

theorem withAuthority_of_authorityFails
    {parser : Parser} {scheme text : List Char} {url : Url}
    (hfails : authorityFails parser text = true) :
    withAuthority parser scheme text ≠ .ok url := by
  unfold authorityFails at hfails
  split at hfails
  next => cases hfails
  next error herror =>
    simp only [withAuthority, herror]
    intro hok
    cases hok

theorem withAuthority_of_authority
    {parser : Parser} (scheme : List Char) {text : List Char}
    (hparses : authorityFails parser text = false) :
    ∃ url, withAuthority parser scheme text = .ok url ∧
      url.scheme = String.ofList scheme := by
  unfold authorityFails at hparses
  split at hparses
  next authority hauthority =>
    simp only [withAuthority, hauthority]
    exact ⟨_, rfl, rfl⟩
  next => cases hparses

theorem under_self {base url : Url}
    (hscheme : url.scheme = base.scheme) (hhost : url.host = base.host)
    (hport : url.port = base.port) (hpath : url.path = base.path) :
    Under base url :=
  ⟨hscheme, hhost, hport, by rw [hpath]⟩

theorem under_withPath
    {parser : Parser} {base : Url} {text : List Char}
    (hbase : IsApiBase base)
    (hstays : staysBelow 0 (piecesOf text) = true) :
    Under base (withPath parser base
      (segmentsOf base.path.toList).dropLast text) := by
  obtain ⟨directories, hsegments, htext⟩ :=
    segmentsOf_directory hbase.start hbase.finish
  obtain ⟨tail, htail, hwalk⟩ := walk_of_staysBelow parser.encodesInPath
    directories [] (piecesOf text) (List.splitOnP_ne_nil _ _) hstays
  refine ⟨rfl, rfl, rfl, ?_⟩
  rw [hsegments, List.dropLast_concat, ← htext]
  simp only [withPath, String.toList_ofList]
  rw [← List.append_nil directories, hwalk, List.append_nil]
  exact leading_pathText htail

theorem under_relative
    {parser : Parser} {base url : Url} {text : List Char}
    (hbase : IsApiBase base) (hstays : relativeStays parser text = true)
    (hok : relative parser base text = .ok url) : Under base url := by
  cases text with
  | nil =>
      cases hok
      exact under_self rfl rfl rfl rfl
  | cons c rest =>
      simp only [relative, relativeStays] at hok hstays
      by_cases hslash : isSlash c = true
      · rw [if_pos hslash] at hok hstays
        rw [Bool.and_eq_true] at hstays
        rw [if_pos hstays.1] at hok
        exact absurd hok (withAuthority_of_authorityFails hstays.2)
      · rw [if_neg hslash] at hok hstays
        split at hok
        next =>
          cases hok
          exact under_self rfl rfl rfl rfl
        next =>
          split at hok
          next =>
            cases hok
            exact under_self rfl rfl rfl rfl
          next =>
            cases hok
            exact under_withPath hbase hstays

theorem under_join
    {parser : Parser} {base url : Url} {path : String}
    (hbase : IsApiBase base)
    (hstays : staysInside parser (trimmed path.toList) = true)
    (hok : join parser base path = .ok url) : Under base url := by
  unfold join at hok
  unfold staysInside at hstays
  cases hscheme : schemeOf (trimmed path.toList) with
  | none =>
      rw [hscheme] at hok hstays
      exact under_relative hbase hstays hok
  | some found =>
      obtain ⟨scheme, rest⟩ := found
      rw [hscheme] at hok hstays
      simp only at hok hstays
      split at hstays
      next hspecial =>
        rw [if_pos hspecial] at hok
        rw [Bool.and_eq_true] at hstays
        split at hok
        next hsame =>
          have hhttp : isHttp scheme = true := by
            have hlist : scheme = base.scheme.toList := by
              rw [← hsame.1, String.toList_ofList]
            rcases hbase.scheme with hhttp | hhttps
            · rw [hlist, hhttp]
              rfl
            · rw [hlist, hhttps]
              rfl
          have hfew : ¬ 2 ≤ (rest.takeWhile isSlash).length :=
            not_le.mpr hsame.2
          simp only [hhttp, hfew, decide_false, Bool.not_true,
            Bool.false_or] at hstays
          exact under_relative hbase hstays.2 hok
        next => exact absurd hok (withAuthority_of_authorityFails hstays.1)
      next hother =>
        rw [if_neg hother] at hok
        rw [hok] at hstays
        cases hstays

/-! ## Plain paths -/

structure IsPlainChar (parser : Parser) (c : Char) : Prop where
  graphic : 32 < c.toNat ∧ c.toNat < 127
  slash : isSlash c = false
  ends : endsPath c = false
  unencoded : parser.encodesInPath c = false

/-- A piece of a path that neither the checks nor the parser touch. -/
structure IsPlain (parser : Parser) (piece : List Char) : Prop where
  nonempty : piece ≠ []
  chars : ∀ c ∈ piece, IsPlainChar parser c
  dots : piece.IsChain fun x y => ¬ (x = '.' ∧ y = '.')
  notDots : isDoubleDot piece = false ∧ isSingleDot piece = false

namespace IsPlain

variable {parser : Parser} {first : List Char} {rest : List (List Char)}

theorem slash_notMem {piece : List Char} (hplain : IsPlain parser piece) :
    '/' ∉ piece := by
  intro hmem
  exact absurd (hplain.chars '/' hmem).slash (by decide)

theorem mem_cases {c : Char} (hmem : c ∈ first ++ pathText rest) :
    c = '/' ∨ ∃ piece ∈ first :: rest, c ∈ piece := by
  rcases List.mem_append.mp hmem with hfirst | hrest
  · exact Or.inr ⟨first, List.mem_cons_self, hfirst⟩
  · obtain ⟨piece, hpiece, hc⟩ := List.mem_flatMap.mp hrest
    rcases List.mem_cons.mp hc with rfl | hc
    · exact Or.inl rfl
    · exact Or.inr ⟨piece, List.mem_cons_of_mem _ hpiece, hc⟩

theorem graphic_pathText
    (hplain : ∀ piece ∈ first :: rest, IsPlain parser piece)
    {c : Char} (hmem : c ∈ first ++ pathText rest) :
    32 < c.toNat ∧ c.toNat < 127 := by
  rcases mem_cases hmem with rfl | ⟨piece, hpiece, hc⟩
  · decide
  · exact ((hplain piece hpiece).chars c hc).graphic

theorem not_endsPath
    (hplain : ∀ piece ∈ first :: rest, IsPlain parser piece)
    {c : Char} (hmem : c ∈ first ++ pathText rest) : endsPath c = false := by
  rcases mem_cases hmem with rfl | ⟨piece, hpiece, hc⟩
  · rfl
  · exact ((hplain piece hpiece).chars c hc).ends

theorem dots_pathText
    (hplain : ∀ piece ∈ first :: rest, IsPlain parser piece) :
    ¬ "..".toList <:+: first ++ pathText rest := by
  apply RustText.not_pair_infix_iff.mpr
  apply isChain_pathText
  · exact fun piece hmem => (hplain piece hmem).dots
  · rintro piece - c - ⟨-, hslash⟩
    exact absurd hslash (by decide)
  · rintro piece - c - ⟨hslash, -⟩
    exact absurd hslash (by decide)
  · exact fun piece hmem => (hplain piece (List.mem_cons_of_mem _ hmem)).nonempty

theorem slashes_pathText
    (hplain : ∀ piece ∈ first :: rest, IsPlain parser piece) :
    ¬ "//".toList <:+: first ++ pathText rest := by
  apply RustText.not_pair_infix_iff.mpr
  apply isChain_pathText
  · intro piece hmem
    apply (List.isChain_isInfix piece).imp
    rintro x y hpair ⟨rfl, -⟩
    exact (hplain piece hmem).slash_notMem (hpair.subset List.mem_cons_self)
  · rintro piece hmem c hc ⟨rfl, -⟩
    exact (hplain piece hmem).slash_notMem hc
  · rintro piece hmem c hc ⟨-, rfl⟩
    exact (hplain piece (List.mem_cons_of_mem _ hmem)).slash_notMem hc
  · exact fun piece hmem => (hplain piece (List.mem_cons_of_mem _ hmem)).nonempty

theorem not_isControl {c : Char} (hgraphic : 32 < c.toNat ∧ c.toNat < 127) :
    RustText.isControl c = false := by
  have hval : c.toNat = c.val.toNat := rfl
  rw [hval] at hgraphic
  simp only [RustText.isControl, Bool.or_eq_false_iff, Bool.and_eq_false_iff,
    decide_eq_false_iff_not, UInt32.le_iff_toNat_le, UInt32.toNat_ofNat]
  omega

theorem refuses_pathText
    (hplain : ∀ piece ∈ first :: rest, IsPlain parser piece) :
    refuses (String.ofList (first ++ pathText rest)) = none := by
  have hstart : (first ++ pathText rest).head? ≠ some '/' := by
    have hfirst := hplain first List.mem_cons_self
    obtain ⟨c, cs, rfl⟩ := List.exists_cons_of_ne_nil hfirst.nonempty
    intro hhead
    cases hhead
    exact hfirst.slash_notMem List.mem_cons_self
  have hcontrol : (first ++ pathText rest).any RustText.isControl = false := by
    rw [List.any_eq_false]
    intro c hmem
    rw [not_isControl (graphic_pathText hplain hmem)]
    decide
  rw [refuses, String.toList_ofList, if_neg hstart,
    if_neg (not_or.mpr ⟨dots_pathText hplain, slashes_pathText hplain⟩),
    hcontrol]
  rfl

theorem relative_pathText {base : Url}
    (hplain : ∀ piece ∈ first :: rest, IsPlain parser piece) :
    relative parser base (first ++ pathText rest) =
      .ok { base with
        path := String.ofList (pathText
          ((segmentsOf base.path.toList).dropLast ++ first :: rest))
        query := none
        fragment := none } := by
  have hends : ∀ c ∈ first ++ pathText rest, (!endsPath c) = true := by
    intro c hmem
    rw [not_endsPath hplain hmem]
    rfl
  have hhash : ∀ c ∈ first ++ pathText rest, decide (c ≠ '#') = true := by
    intro c hmem
    have hend := not_endsPath hplain hmem
    simp only [endsPath, Bool.or_eq_false_iff, decide_eq_false_iff_not] at hend
    exact decide_eq_true hend.2
  have hpieces : piecesOf (first ++ pathText rest) = first :: rest := by
    rw [piecesOf, pathPart, List.takeWhile_eq_self_iff.mpr hends]
    exact splitOnP_pathText fun piece hmem c hc =>
      ((hplain piece hmem).chars c hc).slash
  have hwalk := walk_of_plain (segmentsOf base.path.toList).dropLast
    (fun piece hmem => (hplain piece hmem).notDots)
    (fun piece hmem c hc => ((hplain piece hmem).chars c hc).unencoded)
  have hquery : queryPart parser (first ++ pathText rest) = none := by
    rw [queryPart, List.dropWhile_eq_nil_iff.mpr hends]
  have hfragment : fragmentPart parser (first ++ pathText rest) = none := by
    rw [fragmentPart, List.dropWhile_eq_nil_iff.mpr hhash]
  have hfirst := hplain first List.mem_cons_self
  obtain ⟨c, cs, rfl⟩ := List.exists_cons_of_ne_nil hfirst.nonempty
  have hslash := (hfirst.chars c List.mem_cons_self).slash
  have hend := (hfirst.chars c List.mem_cons_self).ends
  simp only [endsPath, Bool.or_eq_false_iff, decide_eq_false_iff_not] at hend
  rw [List.cons_append, relative, if_neg (by rw [hslash]; decide),
    if_neg hend.1, if_neg hend.2, ← List.cons_append, withPath, hpieces, hwalk,
    hquery, hfragment]

/-- A plain path is accepted and resolved as it is written. -/
theorem endpoint_pathText
    {crate : UrlCrate} {base : Url} (hbase : IsApiBase base)
    (hplain : ∀ piece ∈ first :: rest, IsPlain crate.toParser piece)
    (hcolon : ':' ∉ first) :
    endpoint crate base (String.ofList (first ++ pathText rest)) =
      .ok { base with
        path := base.path ++ String.ofList (first ++ pathText rest)
        query := none
        fragment := none } := by
  obtain ⟨directories, hsegments, htext⟩ :=
    segmentsOf_directory hbase.start hbase.finish
  have hpath : String.ofList (pathText
      ((segmentsOf base.path.toList).dropLast ++ first :: rest)) =
        base.path ++ String.ofList (first ++ pathText rest) := by
    rw [← String.toList_inj, String.toList_append, String.toList_ofList,
      String.toList_ofList, hsegments, List.dropLast_concat, pathText_append,
      ← htext, List.append_assoc]
    rfl
  have htrimmed : trimmed (first ++ pathText rest) = first ++ pathText rest :=
    trimmed_of_graphic fun c hmem => (graphic_pathText hplain hmem).1
  rw [endpoint, refuses_pathText hplain, crate.join_eq _ _ hbase.scheme]
  simp only [join, String.toList_ofList, htrimmed, schemeOf_pathText hcolon,
    relative_pathText hplain, hpath]
  rfl

end IsPlain

/-! ## References that leave -/

/-- A base whose one directory has a name of the given length. -/
def longBase (scheme : String) (length : ℕ) : Url where
  scheme := scheme
  username := ""
  password := none
  host := some "example.com"
  port := none
  path := String.ofList ('/' :: List.replicate length 'a' ++ ['/'])
  query := none
  fragment := none

theorem longBase_isApiBase {scheme : String}
    (hscheme : scheme = "http" ∨ scheme = "https") (length : ℕ) :
    IsApiBase (longBase scheme length) where
  scheme := hscheme
  host := rfl
  start := by
    rw [longBase, String.toList_ofList]
    rfl
  finish := by
    rw [longBase, String.toList_ofList, List.getLast?_concat]

theorem segmentsOf_longBase (scheme : String) (length : ℕ) :
    segmentsOf (longBase scheme length).path.toList =
      [List.replicate length 'a', []] := by
  have hname : '/' ∉ List.replicate length 'a' := by
    intro hmem
    exact absurd (List.eq_of_mem_replicate hmem) (by decide)
  rw [longBase, String.toList_ofList, List.cons_append, segmentsOf,
    List.tail_cons, List.splitOn_append_cons_self,
    List.splitOn_eq_singleton hname]
  rfl

/-- No path that is known beforehand is under a long enough directory. -/
theorem not_under_longBase (scheme : String) (url : Url) :
    ¬ Under (longBase scheme url.path.toList.length) url := by
  intro hunder
  have hlength := hunder.path.length_le
  rw [longBase, String.toList_ofList, List.length_append, List.length_cons,
    List.length_replicate, List.length_singleton] at hlength
  omega

theorem exists_not_under_of_path
    {parser : Parser} {scheme : String} {text : List Char} (path : String)
    (hok : ∀ length, ∃ url,
      relative parser (longBase scheme length) text = .ok url ∧
        url.path = path) :
    ∃ length url, relative parser (longBase scheme length) text = .ok url ∧
      ¬ Under (longBase scheme length) url := by
  obtain ⟨url, hurl, hpath⟩ := hok path.toList.length
  refine ⟨_, url, hurl, ?_⟩
  rw [← hpath]
  exact not_under_longBase scheme url

theorem relative_leaves
    {parser : Parser} {text : List Char} (scheme : String)
    (hleaves : relativeStays parser text = false) :
    ∃ length url, relative parser (longBase scheme length) text = .ok url ∧
      ¬ Under (longBase scheme length) url := by
  cases text with
  | nil => cases hleaves
  | cons c rest =>
      simp only [relativeStays] at hleaves
      by_cases hslash : isSlash c = true
      · rw [if_pos hslash] at hleaves
        by_cases hsecond : rest.head?.any isSlash = true
        · rw [hsecond, Bool.true_and] at hleaves
          obtain ⟨url, hurl, -⟩ :=
            withAuthority_of_authority scheme.toList hleaves
          apply exists_not_under_of_path url.path
          intro length
          refine ⟨url, ?_, rfl⟩
          simp only [relative, hslash, hsecond, if_true]
          exact hurl
        · apply exists_not_under_of_path (String.ofList (pathText
            (walk parser.encodesInPath [] (piecesOf rest))))
          intro length
          refine ⟨withPath parser (longBase scheme length) [] rest, ?_, rfl⟩
          rw [relative, if_pos hslash, if_neg hsecond]
      · rw [if_neg hslash] at hleaves
        have hpath : endsPath c = false := by
          by_contra hends
          rw [piecesOf, pathPart, List.takeWhile_cons_of_neg (by simpa using hends)]
            at hleaves
          exact absurd hleaves (by decide)
        simp only [endsPath, Bool.or_eq_false_iff,
          decide_eq_false_iff_not] at hpath
        obtain ⟨result, hresult⟩ := walk_of_not_staysBelow
          parser.encodesInPath [] (piecesOf (c :: rest)) hleaves
        apply exists_not_under_of_path (String.ofList (pathText result))
        intro length
        refine ⟨withPath parser (longBase scheme length)
          (segmentsOf (longBase scheme length).path.toList).dropLast
          (c :: rest), ?_, ?_⟩
        · rw [relative, if_neg hslash, if_neg hpath.1, if_neg hpath.2]
        · rw [segmentsOf_longBase, ← hresult (List.replicate length 'a')]
          rfl

theorem ofList_ne_http_of_not_isSpecial {scheme : List Char}
    (hother : isSpecial scheme = false) : String.ofList scheme ≠ "http" := by
  intro heq
  have hlist : scheme = "http".toList := by
    rw [← heq, String.toList_ofList]
  rw [hlist] at hother
  exact absurd hother (by decide)

theorem exists_other_scheme (scheme : List Char) :
    ∃ other, (other = "http" ∨ other = "https") ∧
      String.ofList scheme ≠ other := by
  by_cases hhttp : String.ofList scheme = "http"
  · exact ⟨"https", Or.inr rfl, by rw [hhttp]; decide⟩
  · exact ⟨"http", Or.inl rfl, hhttp⟩

theorem join_leaves
    {parser : Parser} {path : String}
    (hleaves : staysInside parser (trimmed path.toList) = false) :
    ∃ base url, IsApiBase base ∧ join parser base path = .ok url ∧
      ¬ Under base url := by
  unfold staysInside at hleaves
  cases hscheme : schemeOf (trimmed path.toList) with
  | none =>
      rw [hscheme] at hleaves
      obtain ⟨length, url, hok, hout⟩ := relative_leaves "http" hleaves
      refine ⟨_, url, longBase_isApiBase (Or.inl rfl) length, ?_, hout⟩
      rw [join, hscheme]
      exact hok
  | some found =>
      obtain ⟨scheme, rest⟩ := found
      rw [hscheme] at hleaves
      simp only at hleaves
      split at hleaves
      next hspecial =>
        by_cases hfails : authorityFails parser (rest.dropWhile isSlash) = true
        · rw [hfails, Bool.true_and] at hleaves
          simp only [Bool.or_eq_false_iff, Bool.not_eq_false',
            decide_eq_false_iff_not, not_le] at hleaves
          obtain ⟨⟨hhttp, hfew⟩, hrelative⟩ := hleaves
          obtain ⟨length, url, hok, hout⟩ :=
            relative_leaves (String.ofList scheme) hrelative
          refine ⟨_, url, longBase_isApiBase ?_ length, ?_, hout⟩
          · simp only [isHttp, Bool.or_eq_true, decide_eq_true_eq] at hhttp
            exact hhttp.imp (fun h => by rw [h]; rfl) (fun h => by rw [h]; rfl)
          · simp only [join, hscheme, hspecial, if_true]
            rw [if_pos ⟨rfl, hfew⟩]
            exact hok
        · obtain ⟨url, hok, hname⟩ := withAuthority_of_authority scheme
            (Bool.eq_false_iff.mpr hfails)
          obtain ⟨other, hhttp, hne⟩ := exists_other_scheme scheme
          refine ⟨longBase other 1, url, longBase_isApiBase hhttp 1, ?_, ?_⟩
          · simp only [join, hscheme, hspecial, if_true]
            rw [if_neg fun hsame => hne hsame.1]
            exact hok
          · intro hunder
            exact hne (hname.symm.trans hunder.scheme)
      next hother =>
        split at hleaves
        next url habsolute =>
          refine ⟨longBase "http" 1, url,
            longBase_isApiBase (Or.inl rfl) 1, ?_, ?_⟩
          · simp only [join, hscheme]
            rw [if_neg hother]
            exact habsolute
          · intro hunder
            have hname := parser.absolute_scheme scheme rest url habsolute
            rw [hunder.scheme] at hname
            exact ofList_ne_http_of_not_isSpecial (by simpa using hother) hname.symm
        next => cases hleaves

/-- What `endpoint` returns for a path is under every base exactly when its
checks refuse the path or the path stays inside. -/
theorem endpoint_under_base_iff (crate : UrlCrate) (path : String) :
    (∀ base, IsApiBase base → ∀ url,
        endpoint crate base path = .ok url → Under base url) ↔
      (refuses path).isSome = true ∨
        staysInside crate.toParser (trimmed path.toList) = true := by
  constructor
  · intro hunder
    by_contra hnone
    rw [not_or, Option.not_isSome_iff_eq_none] at hnone
    obtain ⟨base, url, hbase, hok, hout⟩ :=
      join_leaves (Bool.eq_false_iff.mpr hnone.2)
    apply hout
    apply hunder base hbase
    rw [endpoint, hnone.1, crate.join_eq _ _ hbase.scheme, hok]
    rfl
  · rintro hinside base hbase url hok
    rw [endpoint, crate.join_eq _ _ hbase.scheme] at hok
    cases hrefused : refuses path with
    | some error =>
        rw [hrefused] at hok
        cases hok
    | none =>
        rw [hrefused] at hok hinside
        have hstays := hinside.resolve_left (by decide)
        cases hjoin : join crate.toParser base path with
        | error error =>
            rw [hjoin] at hok
            cases hok
        | ok joined =>
            rw [hjoin] at hok
            cases hok
            exact under_join hbase hstays hjoin

namespace Sample

/-- The path percent-encode set of the standard. -/
def encodesInPath (c : Char) : Bool :=
  c.val ≤ 0x20 || 0x7f ≤ c.val || "\"#<>?`\x7b\x7d^".toList.contains c

/-- A parser that takes a text of letters and dots for a host. -/
def parser : Parser where
  authority := fun text =>
    if text.isEmpty then .error "empty host"
    else if text.all fun c => c.isAlphanum || c = '.' then
      .ok { username := "", password := none,
            host := String.ofList text, port := none }
    else .error "invalid international domain name"
  absolute := fun _ _ => .error "relative URL without a base"
  encodesInPath := encodesInPath
  encodesInQuery := encodesInPath
  encodesInFragment := encodesInPath
  absolute_scheme := by
    intro scheme rest url habsolute
    cases habsolute

def crate : UrlCrate where
  toParser := parser
  form := Form.codec
  join := join parser
  join_eq := fun _ _ _ => rfl

def base : Url where
  scheme := "https"
  username := ""
  password := none
  host := some "example.com"
  port := none
  path := "/redmine/"
  query := none
  fragment := none

/-- Percent-encoded dots step out of the base. -/
theorem encoded_dots_leave_the_base :
    ¬ ∀ base path url, IsApiBase base →
      endpoint crate base path = .ok url → Under base url := by
  intro hunder
  have hbase : IsApiBase base :=
    ⟨Or.inr rfl, rfl, by decide, by decide⟩
  have hok : endpoint crate base "%2e%2e/admin" =
      .ok { base with path := "/admin" } := by
    decide +kernel
  have hpath := (hunder base _ _ hbase hok).path
  exact absurd hpath (by decide)

end Sample

end RedmineClient
