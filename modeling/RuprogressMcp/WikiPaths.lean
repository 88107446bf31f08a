import RuprogressMcp.RedmineEndpoint

/-!
# Wiki pages as URLs

A wiki title is checked in one place, percent-encoded in another, and put
between `wiki/` and `.json` before `endpoint` looks at the path.  A final dot
of the title meets the dot of `.json` there, and a title that is a lone dot
is not pushed as a segment at all.  Every other title names its own page.
-/

namespace RedmineClient

open UrlJoin

/-! ## Project references -/

inductive IdentifierError where
  | empty
  | badStart (first : Char)
  | tooLong (len : ℕ)
  | badCharacter (text : String)
deriving DecidableEq, Repr

/-- The reason in the error; the quoting of `{:?}` is a parameter. -/
def IdentifierError.reason (quoteChar : Char → String)
    (quote : String → String) : IdentifierError → String
  | .empty => "invalid project identifier: must not be empty"
  | .badStart first =>
      "invalid project identifier: must start with a lowercase letter or " ++
        "digit, got " ++ quoteChar first
  | .tooLong len =>
      "invalid project identifier: must be at most 100 characters, got " ++
        toString len
  | .badCharacter text =>
      "invalid project identifier: must match ^[a-z0-9][a-z0-9_-]*$, got " ++
        quote text

def isAllowed (c : Char) : Bool :=
  c.isLower || c.isDigit || c = '_' || c = '-'

def identifierError (text : String) : Option IdentifierError :=
  match text.toList with
  | [] => some .empty
  | first :: _ =>
      if !(first.isLower || first.isDigit) then some (.badStart first)
      else if 100 < text.toList.length then
        some (.tooLong text.toList.length)
      else if !text.toList.all isAllowed then some (.badCharacter text)
      else none

structure ProjectIdentifier where
  text : String
  accepted : identifierError text = none
deriving DecidableEq

def ProjectIdentifier.fromStr (text : String) :
    Except IdentifierError ProjectIdentifier :=
  match h : identifierError text with
  | none => .ok ⟨text, h⟩
  | some error => .error error

theorem text_of_fromStr
    {text : String} {slug : ProjectIdentifier}
    (hslug : ProjectIdentifier.fromStr text = .ok slug) : slug.text = text := by
  unfold ProjectIdentifier.fromStr at hslug
  split at hslug
  · cases hslug
    rfl
  · cases hslug

inductive ProjectIdent where
  | id (number : UInt64)
  | identifier (slug : ProjectIdentifier)
deriving DecidableEq

def ProjectIdent.display : ProjectIdent → String
  | .id number => toString number.toNat
  | .identifier slug => slug.text

/-! ## Wiki titles -/

def bidiControls : List Char :=
  ['\u202A', '\u202B', '\u202C', '\u202D', '\u202E', '\u2066', '\u2067',
    '\u2068', '\u2069']

def titleError (text : String) : Option String :=
  if text.toList = [] then some "must not be empty"
  else if '/' ∈ text.toList ∨ '\\' ∈ text.toList then
    some "must not contain a path separator"
  else if "..".toList <:+: text.toList then some "must not contain '..'"
  else if text.toList.any fun c =>
      RustText.isControl c || bidiControls.contains c then
    some "must not contain control or bidi-override characters"
  else none

structure WikiTitle where
  text : String
  accepted : titleError text = none

def WikiTitle.new (text : String) : Except String WikiTitle :=
  match h : titleError text with
  | none => .ok ⟨text, h⟩
  | some reason => .error ("invalid wiki title: " ++ reason)

/-- The characters that pushing a path segment percent-encodes.  The parser
leaves alone in a path what pushing leaves alone. -/
structure SegmentEncoder (parser : Parser) where
  encodes : Char → Bool
  percent : encodes '%' = true
  slash : encodes '/' = true
  question : encodes '?' = true
  hash : encodes '#' = true
  space : encodes ' ' = true
  nonAscii : ∀ c, 128 ≤ c.toNat → encodes c = true
  dot : encodes '.' = false
  unencoded : ∀ c, encodes c = false → parser.encodesInPath c = false
  ordinary : ∀ c, c.isAlphanum = true ∨ c = '-' ∨ c = '_' ∨ c = '%' →
    parser.encodesInPath c = false

/-- Push a segment onto an empty path; a dot segment is ignored. -/
def pushSegment (encodes : Char → Bool) (segment : List Char) : List Char :=
  if segment = ".".toList ∨ segment = "..".toList then ['/']
  else '/' :: Percent.encode encodes segment

def WikiTitle.encodedSegment (title : WikiTitle) (encodes : Char → Bool) :
    List Char :=
  (pushSegment encodes title.text.toList).dropWhile fun c => c = '/'

/-- The path of a wiki page, or of one of its versions. -/
def wikiPath (encodes : Char → Bool) (project : ProjectIdent)
    (title : WikiTitle) : Option UInt32 → String
  | none => "projects/" ++ project.display ++ "/wiki/" ++
      String.ofList (title.encodedSegment encodes) ++ ".json"
  | some version => "projects/" ++ project.display ++ "/wiki/" ++
      String.ofList (title.encodedSegment encodes) ++ "/" ++
        toString version.toNat ++ ".json"

/-! ## What an accepted title is like -/

namespace WikiTitle

variable {title : WikiTitle} {parser : Parser} {encoder : SegmentEncoder parser}

/-- A title as the checks of `WikiTitle::new` leave it. -/
structure Accepted (text : List Char) : Prop where
  nonempty : text ≠ []
  separators : '/' ∉ text ∧ '\\' ∉ text
  dots : text.IsChain fun x y => ¬ (x = '.' ∧ y = '.')
  controls : ∀ c ∈ text, RustText.isControl c = false

theorem isAccepted (title : WikiTitle) : Accepted title.text.toList := by
  have haccepted := title.accepted
  unfold titleError at haccepted
  split at haccepted
  next => cases haccepted
  next hnonempty =>
    split at haccepted
    next => cases haccepted
    next hseparators =>
      split at haccepted
      next => cases haccepted
      next hdots =>
        split at haccepted
        next => cases haccepted
        next hcontrols =>
          refine ⟨hnonempty, not_or.mp hseparators,
            RustText.not_pair_infix_iff.mp hdots, ?_⟩
          intro c hmem
          rw [List.any_eq_true] at hcontrols
          by_contra hcontrol
          apply hcontrols
          exact ⟨c, hmem, by
            rw [Bool.not_eq_false] at hcontrol
            rw [hcontrol, Bool.true_or]⟩

theorem ne_double_dot (title : WikiTitle) :
    title.text.toList ≠ "..".toList := by
  intro heq
  have hdots := title.isAccepted.dots
  rw [heq] at hdots
  exact absurd (List.isChain_pair.mp hdots) (by decide)

theorem encodedSegment_dot (encodes : Char → Bool)
    (hdot : title.text.toList = ".".toList) :
    title.encodedSegment encodes = [] := by
  rw [encodedSegment, pushSegment, if_pos (Or.inl hdot)]
  rfl

theorem slash_notMem_encode (title : WikiTitle)
    (encoder : SegmentEncoder parser) :
    '/' ∉ Percent.encode encoder.encodes title.text.toList := by
  intro hmem
  rcases Percent.mem_encode hmem with ⟨-, hplain⟩ | hescape
  · rw [encoder.slash] at hplain
    cases hplain
  · exact absurd hescape (by decide +kernel)

theorem encodedSegment_eq (encoder : SegmentEncoder parser)
    (hdot : title.text.toList ≠ ".".toList) :
    title.encodedSegment encoder.encodes =
      Percent.encode encoder.encodes title.text.toList := by
  rw [encodedSegment, pushSegment,
    if_neg (not_or.mpr ⟨hdot, title.ne_double_dot⟩),
    List.dropWhile_cons_of_pos (by decide)]
  apply RustText.dropWhile_of_none
  intro c hmem
  rw [decide_eq_false_iff_not]
  rintro rfl
  exact title.slash_notMem_encode encoder hmem

end WikiTitle

/-! ## The pieces of a wiki path -/

section Pieces

variable {parser : Parser}

theorem isPlainChar_of_ordinary (encoder : SegmentEncoder parser) {c : Char}
    (hordinary : c.isAlphanum = true ∨ c = '-' ∨ c = '_' ∨ c = '.') :
    IsPlainChar parser c := by
  have hgraphic : 32 < c.toNat ∧ c.toNat < 127 := by
    rcases hordinary with halnum | rfl | rfl | rfl
    · exact RustText.graphic_of_isAlphanum halnum
    all_goals decide
  refine ⟨hgraphic, ?_, ?_, ?_⟩
  · by_contra hslash
    simp only [isSlash, Bool.not_eq_false, Bool.or_eq_true,
      decide_eq_true_eq] at hslash
    rcases hslash with rfl | rfl <;> exact absurd hordinary (by decide)
  · by_contra hends
    simp only [endsPath, Bool.not_eq_false, Bool.or_eq_true,
      decide_eq_true_eq] at hends
    rcases hends with rfl | rfl <;> exact absurd hordinary (by decide)
  · rcases hordinary with halnum | rfl | rfl | rfl
    · exact encoder.ordinary c (Or.inl halnum)
    · exact encoder.ordinary _ (by decide)
    · exact encoder.ordinary _ (by decide)
    · exact encoder.unencoded _ encoder.dot

theorem isPlainChar_of_isEscape (encoder : SegmentEncoder parser) {c : Char}
    (hescape : Percent.IsEscape c) :
    IsPlainChar parser c := by
  rcases hescape with rfl | ⟨n, hn, rfl⟩
  · exact ⟨by decide, rfl, rfl, encoder.ordinary _ (by decide)⟩
  · apply isPlainChar_of_ordinary encoder
    left
    interval_cases n <;> decide

theorem isPlainChar_of_mem_encode (encoder : SegmentEncoder parser)
    {title : WikiTitle} {c : Char}
    (hmem : c ∈ Percent.encode encoder.encodes title.text.toList) :
    IsPlainChar parser c := by
  rcases Percent.mem_encode hmem with ⟨htext, hplain⟩ | hescape
  · have haccepted := title.isAccepted
    have hcontrol := haccepted.controls c htext
    have hascii : c.toNat < 128 := by
      by_contra hhigh
      rw [encoder.nonAscii c (not_lt.mp hhigh)] at hplain
      cases hplain
    have hspace : c.toNat ≠ 32 := by
      intro heq
      have hc : c = ' ' := by
        rw [← Char.ofNat_toNat c, heq]
      rw [hc, encoder.space] at hplain
      cases hplain
    have hval : c.toNat = c.val.toNat := rfl
    simp only [RustText.isControl, Bool.or_eq_false_iff,
      Bool.and_eq_false_iff, decide_eq_false_iff_not,
      UInt32.le_iff_toNat_le, UInt32.toNat_ofNat] at hcontrol
    refine ⟨by omega, ?_, ?_, encoder.unencoded c hplain⟩
    · by_contra hslash
      simp only [isSlash, Bool.not_eq_false, Bool.or_eq_true,
        decide_eq_true_eq] at hslash
      rcases hslash with rfl | rfl
      · exact haccepted.separators.1 htext
      · exact haccepted.separators.2 htext
    · by_contra hends
      simp only [endsPath, Bool.not_eq_false, Bool.or_eq_true,
        decide_eq_true_eq] at hends
      rcases hends with rfl | rfl
      · rw [encoder.question] at hplain
        cases hplain
      · rw [encoder.hash] at hplain
        cases hplain
  · exact isPlainChar_of_isEscape encoder hescape

/-- A piece without dots is plain. -/
theorem isPlain_of_ordinary (encoder : SegmentEncoder parser)
    {piece : List Char} (hnonempty : piece ≠ [])
    (hordinary : ∀ c ∈ piece, c.isAlphanum = true ∨ c = '-' ∨ c = '_') :
    IsPlain parser piece := by
  have hdot : '.' ∉ piece := fun hmem =>
    absurd (hordinary '.' hmem) (by decide)
  have hpercent : '%' ∉ piece := fun hmem =>
    absurd (hordinary '%' hmem) (by decide)
  refine ⟨hnonempty, ?_, ?_, ?_⟩
  · intro c hmem
    apply isPlainChar_of_ordinary encoder
    rcases hordinary c hmem with halnum | hdash | hscore
    · exact Or.inl halnum
    · exact Or.inr (Or.inl hdash)
    · exact Or.inr (Or.inr (Or.inl hscore))
  · apply (List.isChain_isInfix piece).imp
    rintro x y hpair ⟨rfl, -⟩
    exact hdot (hpair.subset List.mem_cons_self)
  · apply not_dots_of_decode (Percent.decode_of_no_percent hpercent)
    · rintro rfl
      exact hdot (by decide)
    · rintro rfl
      exact hdot (by decide)

theorem isPlain_literal (encoder : SegmentEncoder parser)
    {piece : List Char} (hnonempty : piece ≠ [])
    (hall : (piece.all fun c => decide
      (c.isAlphanum = true ∨ c = '-' ∨ c = '_')) = true) :
    IsPlain parser piece :=
  isPlain_of_ordinary encoder hnonempty fun c hmem =>
    of_decide_eq_true (List.all_eq_true.mp hall c hmem)

theorem isPlain_display (encoder : SegmentEncoder parser)
    (project : ProjectIdent) : IsPlain parser project.display.toList := by
  cases project with
  | id number =>
      apply isPlain_of_ordinary encoder
      · rw [ProjectIdent.display, Nat.toString_eq_repr, Nat.toList_repr]
        exact Nat.toDigits_ne_nil
      · intro c hmem
        left
        rw [Char.isAlphanum, RustText.isDigit_of_mem_toString hmem,
          Bool.or_true]
  | identifier slug =>
      have haccepted := slug.accepted
      unfold identifierError at haccepted
      split at haccepted
      next => cases haccepted
      next first rest htext =>
        split at haccepted
        next => cases haccepted
        next =>
          split at haccepted
          next => cases haccepted
          next =>
            split at haccepted
            next => cases haccepted
            next hall =>
              apply isPlain_of_ordinary encoder
              · rw [ProjectIdent.display, htext]
                exact List.cons_ne_nil _ _
              · intro c hmem
                rw [Bool.not_eq_true', Bool.not_eq_false,
                  List.all_eq_true] at hall
                have hallowed := hall c hmem
                simp only [isAllowed, Bool.or_eq_true,
                  decide_eq_true_eq] at hallowed
                rcases hallowed with ((hlower | hdigit) | hscore) | hdash
                · left
                  change ((c.isUpper || c.isLower) || c.isDigit) = true
                  rw [hlower, Bool.or_true, Bool.true_or]
                · left
                  simp [Char.isAlphanum, hdigit]
                · exact Or.inr (Or.inr hscore)
                · exact Or.inr (Or.inl hdash)

/-- A piece with `.json` behind it, when it has no final dot. -/
theorem isPlain_json (encoder : SegmentEncoder parser)
    {piece text : List Char} (hchars : ∀ c ∈ piece, IsPlainChar parser c)
    (hdots : piece.IsChain fun x y => ¬ (x = '.' ∧ y = '.'))
    (hlast : piece.getLast? ≠ some '.')
    (hdecode : Percent.decode (piece ++ ".json".toList) =
      Percent.utf8 (text ++ ".json".toList)) :
    IsPlain parser (piece ++ ".json".toList) := by
  refine ⟨by simp, ?_, ?_, ?_⟩
  · intro c hmem
    rcases List.mem_append.mp hmem with hpiece | hjson
    · exact hchars c hpiece
    · have hall : (".json".toList.all fun c => decide
          (c.isAlphanum = true ∨ c = '-' ∨ c = '_' ∨ c = '.')) = true := by
        decide +kernel
      exact isPlainChar_of_ordinary encoder
        (of_decide_eq_true (List.all_eq_true.mp hall c hjson))
  · apply List.IsChain.append hdots (by decide)
    rintro x hx y - ⟨rfl, -⟩
    exact hlast hx
  · apply not_dots_of_decode hdecode
    · intro heq
      exact absurd (congrArg List.length heq) (by simp)
    · intro heq
      exact absurd (congrArg List.length heq) (by simp)

theorem isPlain_encode (encoder : SegmentEncoder parser) (title : WikiTitle)
    (hdot : title.text.toList ≠ ".".toList) :
    IsPlain parser (Percent.encode encoder.encodes title.text.toList) := by
  have hdecode := Percent.decode_encode_append encoder.percent
    title.text.toList []
  rw [List.append_nil, show Percent.decode [] = [] from rfl,
    List.append_nil] at hdecode
  refine ⟨?_, fun c hmem => isPlainChar_of_mem_encode encoder hmem,
    Percent.encode_pair (by decide +kernel) title.isAccepted.dots,
    not_dots_of_decode hdecode hdot title.ne_double_dot⟩
  intro hempty
  rw [hempty] at hdecode
  exact title.isAccepted.nonempty (Percent.utf8_injective hdecode.symm)

theorem getLast?_encode {encodes : Char → Bool} {text : List Char}
    (hlast : (Percent.encode encodes text).getLast? = some '.') :
    text.getLast? = some '.' := by
  rcases List.eq_nil_or_concat' text with rfl | ⟨init, last, rfl⟩
  · cases hlast
  · rw [Percent.encode, List.flatMap_append, List.flatMap_singleton,
      List.getLast?_append_of_ne_nil _ (Percent.encodeChar_ne_nil _ _)] at hlast
    rcases Percent.mem_encodeChar (List.mem_of_mem_getLast? hlast) with
      ⟨rfl, -⟩ | ⟨-, hescape⟩
    · exact List.getLast?_concat
    · exact absurd hescape (by decide +kernel)

theorem isPlain_page (encoder : SegmentEncoder parser) (title : WikiTitle)
    (hend : title.text.toList.getLast? ≠ some '.') :
    IsPlain parser
      (Percent.encode encoder.encodes title.text.toList ++ ".json".toList) := by
  apply isPlain_json encoder
  · exact fun c hmem => isPlainChar_of_mem_encode encoder hmem
  · exact Percent.encode_pair (by decide +kernel) title.isAccepted.dots
  · exact fun hlast => hend (getLast?_encode hlast)
  · rw [Percent.decode_encode_append encoder.percent, Percent.utf8_append]
    rfl

theorem isPlain_version (encoder : SegmentEncoder parser) (version : ℕ) :
    IsPlain parser ((toString version).toList ++ ".json".toList) := by
  have hdigits : ∀ c ∈ (toString version).toList, c.isDigit = true :=
    fun _ hmem => RustText.isDigit_of_mem_toString hmem
  have hdot : '.' ∉ (toString version).toList := fun hmem =>
    absurd (hdigits '.' hmem) (by decide)
  apply isPlain_json encoder
  · intro c hmem
    apply isPlainChar_of_ordinary encoder
    left
    rw [Char.isAlphanum, hdigits c hmem, Bool.or_true]
  · apply (List.isChain_isInfix _).imp
    rintro x y hpair ⟨rfl, -⟩
    exact hdot (hpair.subset List.mem_cons_self)
  · exact fun hlast => hdot (List.mem_of_mem_getLast? hlast)
  · apply Percent.decode_of_no_percent
    intro hmem
    rcases List.mem_append.mp hmem with hversion | hjson
    · exact absurd (hdigits '%' hversion) (by decide)
    · exact absurd hjson (by decide)

end Pieces

/-! ## The URL of a wiki path -/

section Urls

variable {parser : Parser} {encoder : SegmentEncoder parser}
  {project other : ProjectIdent} {title : WikiTitle}
  {version : Option UInt32} {base url : Url}

/-- What follows the title in its own segment. -/
def titleSuffix : Option UInt32 → List Char
  | none => ".json".toList
  | some _ => []

/-- What follows the segment of the title. -/
def versionSegments : Option UInt32 → List (List Char)
  | none => []
  | some version => [(toString version.toNat).toList ++ ".json".toList]

theorem wikiPath_eq (encodes : Char → Bool) (project : ProjectIdent)
    (title : WikiTitle) (version : Option UInt32) :
    wikiPath encodes project title version =
      String.ofList ("projects".toList ++ pathText
        (project.display.toList :: "wiki".toList ::
          (title.encodedSegment encodes ++ titleSuffix version) ::
            versionSegments version)) := by
  rw [← String.toList_inj, String.toList_ofList]
  cases version with
  | none => simp [wikiPath, pathText, titleSuffix, versionSegments]
  | some version => simp [wikiPath, pathText, titleSuffix, versionSegments]

/-- The titles whose path the checks of `endpoint` let pass. -/
def Passes (title : WikiTitle) : Option UInt32 → Prop
  | none => title.text.toList = ".".toList ∨
      title.text.toList.getLast? ≠ some '.'
  | some _ => title.text.toList ≠ ".".toList

theorem isPlain_titleSegment (encoder : SegmentEncoder parser)
    (hpasses : Passes title version) :
    IsPlain parser
      (title.encodedSegment encoder.encodes ++ titleSuffix version) := by
  cases version with
  | none =>
      by_cases hdot : title.text.toList = ".".toList
      · rw [WikiTitle.encodedSegment_dot encoder.encodes hdot]
        have hempty : Percent.decode ([] ++ ".json".toList) =
            Percent.utf8 ([] ++ ".json".toList) := by decide
        exact isPlain_json encoder (by simp) (by simp) (by simp) hempty
      · rw [WikiTitle.encodedSegment_eq encoder hdot]
        exact isPlain_page encoder title (hpasses.resolve_left hdot)
  | some version =>
      rw [WikiTitle.encodedSegment_eq encoder hpasses, titleSuffix,
        List.append_nil]
      exact isPlain_encode encoder title hpasses

theorem endpoint_wikiPath
    {crate : UrlCrate} (encoder : SegmentEncoder crate.toParser) (hbase : IsApiBase base) (project : ProjectIdent)
    (hpasses : Passes title version) :
    endpoint crate base (wikiPath encoder.encodes project title version) =
      .ok { base with
        path := base.path ++ wikiPath encoder.encodes project title version
        query := none
        fragment := none } := by
  rw [wikiPath_eq]
  apply IsPlain.endpoint_pathText hbase
  · intro piece hmem
    simp only [List.mem_cons] at hmem
    rcases hmem with rfl | rfl | rfl | rfl | hversion
    · exact isPlain_literal encoder (by decide +kernel) (by decide +kernel)
    · exact isPlain_display encoder project
    · exact isPlain_literal encoder (by decide +kernel) (by decide +kernel)
    · exact isPlain_titleSegment encoder hpasses
    · cases version with
      | none => cases hversion
      | some version =>
          rw [List.mem_singleton.mp hversion]
          exact isPlain_version encoder version.toNat
  · decide

theorem refuses_of_infix {path : String}
    (hfound : "..".toList <:+: path.toList ∨ "//".toList <:+: path.toList) :
    (refuses path).isSome = true := by
  by_cases hstart : path.toList.head? = some '/'
  · rw [refuses, if_pos hstart]
    rfl
  · rw [refuses, if_neg hstart, if_pos hfound]
    rfl

theorem refuses_wikiPath (encoder : SegmentEncoder parser)
    (project : ProjectIdent) (hpasses : ¬ Passes title version) :
    (refuses (wikiPath encoder.encodes project title version)).isSome
      = true := by
  apply refuses_of_infix
  cases version with
  | none =>
      left
      rw [Passes, not_or, not_not] at hpasses
      obtain ⟨hdot, hlast⟩ := hpasses
      obtain ⟨init, htext⟩ := List.getLast?_eq_some_iff.mp hlast
      have hsegment : title.encodedSegment encoder.encodes =
          Percent.encode encoder.encodes init ++ ['.'] := by
        rw [WikiTitle.encodedSegment_eq encoder hdot, htext, Percent.encode,
          List.flatMap_append, List.flatMap_singleton,
          Percent.encodeChar_of_plain encoder.dot]
        rfl
      refine ⟨"projects/".toList ++ project.display.toList ++
        "/wiki/".toList ++ Percent.encode encoder.encodes init,
        "json".toList, ?_⟩
      simp [wikiPath, hsegment]
  | some version =>
      right
      have hdot : title.text.toList = ".".toList := not_not.mp hpasses
      refine ⟨"projects/".toList ++ project.display.toList ++ "/wiki".toList,
        (toString version.toNat).toList ++ ".json".toList, ?_⟩
      simp [wikiPath, WikiTitle.encodedSegment_dot _ hdot]

/-- A path that passes leads to its own text under the base. -/
theorem path_of_endpoint_wikiPath
    {crate : UrlCrate} {encoder : SegmentEncoder crate.toParser}
    (hbase : IsApiBase base)
    (hok : endpoint crate base
      (wikiPath encoder.encodes project title version) = .ok url) :
    url.path = base.path ++
      wikiPath encoder.encodes project title version := by
  by_cases hpasses : Passes title version
  · rw [endpoint_wikiPath encoder hbase project hpasses] at hok
    cases hok
    rfl
  · obtain ⟨error, herror⟩ := Option.isSome_iff_exists.mp
      (refuses_wikiPath encoder project hpasses)
    rw [endpoint, herror] at hok
    cases hok

theorem encodedSegment_injective (encoder : SegmentEncoder parser)
    {first second : WikiTitle}
    (heq : first.encodedSegment encoder.encodes =
      second.encodedSegment encoder.encodes) :
    first.text.toList = second.text.toList := by
  have hnonempty : ∀ title : WikiTitle, title.text.toList ≠ ".".toList →
      title.encodedSegment encoder.encodes ≠ [] := by
    intro title hdot
    rw [WikiTitle.encodedSegment_eq encoder hdot]
    exact (isPlain_encode encoder title hdot).nonempty
  by_cases hfirst : first.text.toList = ".".toList
  · by_cases hsecond : second.text.toList = ".".toList
    · rw [hfirst, hsecond]
    · rw [WikiTitle.encodedSegment_dot _ hfirst] at heq
      exact absurd heq.symm (hnonempty second hsecond)
  · by_cases hsecond : second.text.toList = ".".toList
    · rw [WikiTitle.encodedSegment_dot _ hsecond] at heq
      exact absurd heq (hnonempty first hfirst)
    · rw [WikiTitle.encodedSegment_eq encoder hfirst,
        WikiTitle.encodedSegment_eq encoder hsecond] at heq
      exact Percent.encode_injective encoder.percent heq

theorem slash_notMem_titleSegment (encoder : SegmentEncoder parser)
    (title : WikiTitle) (version : Option UInt32) :
    '/' ∉ title.encodedSegment encoder.encodes ++ titleSuffix version := by
  have hsegment : '/' ∉ title.encodedSegment encoder.encodes := by
    by_cases hdot : title.text.toList = ".".toList
    · rw [WikiTitle.encodedSegment_dot _ hdot]
      exact List.not_mem_nil
    · rw [WikiTitle.encodedSegment_eq encoder hdot]
      exact title.slash_notMem_encode encoder
  intro hmem
  rcases List.mem_append.mp hmem with hseg | hsuffix
  · exact hsegment hseg
  · cases version with
    | none => exact absurd hsuffix (by decide)
    | some version => cases hsuffix

theorem wikiPath_injective (encoder : SegmentEncoder parser)
    {first second : WikiTitle} {firstVersion secondVersion : Option UInt32}
    (heq : wikiPath encoder.encodes project first firstVersion =
      wikiPath encoder.encodes other second secondVersion) :
    first.text.toList = second.text.toList := by
  rw [wikiPath_eq, wikiPath_eq] at heq
  have hlists := List.append_cancel_left (String.ofList_injective heq)
  simp only [pathText, List.flatMap_cons, List.cons_append,
    List.append_assoc] at hlists
  have hprojects := (RustText.append_separator_inj
    (isPlain_display encoder project).slash_notMem
    (isPlain_display encoder other).slash_notMem
    (List.cons.inj hlists).2).2
  have htitles := (List.cons.inj (List.append_cancel_left hprojects)).2
  rw [← List.append_assoc, ← List.append_assoc] at htitles
  have hfirst := slash_notMem_titleSegment encoder first firstVersion
  have hsecond := slash_notMem_titleSegment encoder second secondVersion
  apply encodedSegment_injective encoder
  cases firstVersion with
  | none =>
      cases secondVersion with
      | none =>
          simp only [versionSegments, List.flatMap_nil,
            List.append_nil] at htitles
          exact List.append_cancel_right htitles
      | some version =>
          simp only [versionSegments, List.flatMap_nil, List.append_nil,
            List.flatMap_singleton] at htitles
          rw [htitles] at hfirst
          exact absurd (by simp) hfirst
  | some version =>
      cases secondVersion with
      | none =>
          simp only [versionSegments, List.flatMap_nil, List.append_nil,
            List.flatMap_singleton] at htitles
          rw [← htitles] at hsecond
          exact absurd (by simp) hsecond
      | some version' =>
          simp only [versionSegments, List.flatMap_singleton] at htitles
          have hsegments :=
            (RustText.append_separator_inj hfirst hsecond htitles).1
          exact List.append_cancel_right hsegments

end Urls

/-- Every path of a title is accepted and leads under the base to a segment
that decodes to the title, and no other title has that URL. -/
structure AddressedAsItself (crate : UrlCrate)
    (encoder : SegmentEncoder crate.toParser) (title : WikiTitle) : Prop where
  resolves : ∀ base project version, IsApiBase base → ∃ url segment,
    endpoint crate base (wikiPath encoder.encodes project title version) =
        .ok url ∧
      Under base url ∧
      url.path.toList = base.path.toList ++ "projects".toList ++ pathText
        (project.display.toList :: "wiki".toList :: segment ::
          versionSegments version) ∧
      '/' ∉ segment ∧
      Percent.decode segment =
        Percent.utf8 (title.text.toList ++ titleSuffix version)
  distinct : ∀ base project version url other otherProject otherVersion,
    IsApiBase base →
    endpoint crate base (wikiPath encoder.encodes project title version) =
      .ok url →
    endpoint crate base
      (wikiPath encoder.encodes otherProject other otherVersion) = .ok url →
    other.text = title.text

/-- A title is addressed as itself exactly when it does not end in a dot. -/
theorem addressedAsItself_iff (crate : UrlCrate)
    (encoder : SegmentEncoder crate.toParser) (title : WikiTitle) :
    AddressedAsItself crate encoder title ↔
      title.text.toList.getLast? ≠ some '.' := by
  constructor
  · intro haddressed hlast
    obtain ⟨url, segment, hok, -, hpath, -, hdecode⟩ := haddressed.resolves
      (longBase "http" 1) (.id 1) none (longBase_isApiBase (Or.inl rfl) 1)
    by_cases hdot : title.text.toList = ".".toList
    · have hown := path_of_endpoint_wikiPath
        (longBase_isApiBase (Or.inl rfl) 1) hok
      rw [hown, String.toList_append, wikiPath_eq, String.toList_ofList,
        List.append_assoc, WikiTitle.encodedSegment_dot _ hdot] at hpath
      have htails := List.append_cancel_left
        (List.append_cancel_left hpath)
      simp only [pathText, List.flatMap_cons, List.cons_append,
        versionSegments, List.flatMap_nil, List.append_nil] at htails
      have hsegments := (List.cons.inj (List.append_cancel_left
        (List.cons.inj (List.append_cancel_left
          (List.cons.inj htails).2)).2)).2
      rw [← hsegments, hdot] at hdecode
      exact absurd hdecode (by decide)
    · have hrefused :
          (refuses (wikiPath encoder.encodes (.id 1) title none)).isSome
            = true :=
        refuses_wikiPath encoder (.id 1)
          (not_or.mpr ⟨hdot, not_not.mpr hlast⟩)
      obtain ⟨error, herror⟩ := Option.isSome_iff_exists.mp hrefused
      rw [endpoint, herror] at hok
      cases hok
  · intro hend
    have hdot : title.text.toList ≠ ".".toList := by
      intro heq
      rw [heq] at hend
      exact hend rfl
    constructor
    · intro base project version hbase
      have hpasses : Passes title version := by
        cases version with
        | none => exact Or.inr hend
        | some version => exact hdot
      refine ⟨_, title.encodedSegment encoder.encodes ++ titleSuffix version,
        endpoint_wikiPath encoder hbase project hpasses,
        ⟨rfl, rfl, rfl, ?_⟩, ?_,
        slash_notMem_titleSegment encoder title version, ?_⟩
      · rw [String.toList_append]
        exact List.prefix_append _ _
      · rw [String.toList_append, wikiPath_eq, String.toList_ofList,
          List.append_assoc]
      · rw [WikiTitle.encodedSegment_eq encoder hdot,
          Percent.decode_encode_append encoder.percent, Percent.utf8_append]
        cases version with
        | none => rfl
        | some version => rfl
    · intro base project version url other otherProject otherVersion hbase
        hown hother
      have hpaths := (path_of_endpoint_wikiPath hbase hother).symm.trans
        (path_of_endpoint_wikiPath hbase hown)
      rw [← String.toList_inj, String.toList_append,
        String.toList_append] at hpaths
      have htexts := wikiPath_injective encoder
        (String.toList_inj.mp (List.append_cancel_left hpaths))
      exact String.toList_inj.mp htexts

namespace Sample

def encoder : SegmentEncoder crate.toParser where
  encodes := fun c => encodesInPath c || c = '/' || c = '%' || c = '\\'
  percent := by decide
  slash := by decide
  question := by decide
  hash := by decide
  space := by decide
  nonAscii := by
    intro c hhigh
    have hval : 127 ≤ c.val := by
      rw [UInt32.le_iff_toNat_le]
      exact le_trans (by decide) hhigh
    simp [encodesInPath, hval]
  dot := by decide
  unencoded := by
    intro c hplain
    simp only [Bool.or_eq_false_iff] at hplain
    exact hplain.1.1.1
  ordinary := by
    intro c hordinary
    have hascii : c.toNat < 128 := by
      rcases hordinary with halnum | rfl | rfl | rfl
      · have hgraphic := RustText.graphic_of_isAlphanum halnum
        omega
      all_goals decide
    have hall : ∀ n < 128, (Char.ofNat n).isAlphanum = true ∨
        Char.ofNat n = '-' ∨ Char.ofNat n = '_' ∨ Char.ofNat n = '%' →
          encodesInPath (Char.ofNat n) = false := by
      decide +kernel
    have hplain := hall c.toNat hascii
    rw [Char.ofNat_toNat] at hplain
    exact hplain hordinary

/-- A title with a final dot. -/
def title : WikiTitle where
  text := "Release 1."
  accepted := by decide +kernel

theorem final_dot_is_refused : ¬ AddressedAsItself crate encoder title := by
  intro haddressed
  obtain ⟨url, segment, hok, -⟩ := haddressed.resolves base (.id 1) none
    ⟨Or.inr rfl, rfl, by decide, by decide⟩
  have hrefused : endpoint crate base
      (wikiPath encoder.encodes (.id 1) title none) =
        .error (.traversal "projects/1/wiki/Release%201..json") := by
    decide +kernel
  rw [hrefused] at hok
  cases hok

end Sample

end RedmineClient
