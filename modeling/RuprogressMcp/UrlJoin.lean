import RuprogressMcp.PercentEncoding
import RuprogressMcp.UrlRecord
import Mathlib.Data.List.TakeWhile

/-!
# Resolving a reference against a base URL

The URL standard's parser for an input that comes with an `http` or `https`
base: what counts as a scheme, when a reference brings an authority of its
own, and how its path is laid over the directories of the base.  A backslash
is a slash, and a dot segment may spell its dots as `%2e`.  Parsing an
authority, and parsing what follows a scheme that has no authority or is
`file`, is left to a parameter.  A URL library is known by following it.
-/

namespace UrlJoin

/-- What an authority says. -/
structure Authority where
  username : String
  password : Option String
  host : String
  port : Option ℕ
deriving DecidableEq

/-- The parts of a URL parser that resolving a reference relies on.  Errors
are the texts of the parser. -/
structure Parser where
  authority : List Char → Except String Authority
  absolute : List Char → List Char → Except String Url
  encodesInPath : Char → Bool
  encodesInQuery : Char → Bool
  encodesInFragment : Char → Bool
  absolute_scheme : ∀ scheme rest url, absolute scheme rest = .ok url →
    url.scheme = String.ofList scheme

def isSlash (c : Char) : Bool := c = '/' || c = '\\'

/-- The end of a path. -/
def endsPath (c : Char) : Bool := c = '?' || c = '#'

def isSchemeChar (c : Char) : Bool :=
  c.isAlphanum || c = '+' || c = '-' || c = '.'

/-- The scheme that a text begins with, in lower case, and what follows. -/
def schemeOf (text : List Char) : Option (List Char × List Char) :=
  match text.span isSchemeChar with
  | (c :: name, ':' :: rest) =>
      if c.isAlpha then some ((c :: name).map Char.toLower, rest) else none
  | _ => none

/-- The schemes with an authority, `file` apart. -/
def isSpecial (scheme : List Char) : Bool :=
  scheme = "http".toList || scheme = "https".toList ||
    scheme = "ws".toList || scheme = "wss".toList || scheme = "ftp".toList

def isSingleDot (segment : List Char) : Bool :=
  segment.map Char.toLower = ".".toList ||
    segment.map Char.toLower = "%2e".toList

def isDoubleDot (segment : List Char) : Bool :=
  segment.map Char.toLower = "..".toList ||
    segment.map Char.toLower = ".%2e".toList ||
    segment.map Char.toLower = "%2e.".toList ||
    segment.map Char.toLower = "%2e%2e".toList

/-! ## Paths -/

/-- The segments of the path of a URL. -/
def segmentsOf (path : List Char) : List (List Char) :=
  path.tail.splitOn '/'

def pathText (segments : List (List Char)) : List Char :=
  segments.flatMap fun segment => '/' :: segment

/-- Lay the pieces of a reference over a path.  Encoding leaves dots and
percent signs alone, so dot segments are recognised before it. -/
def walk (encodes : Char → Bool) :
    List (List Char) → List (List Char) → List (List Char)
  | path, [] => path
  | path, [piece] =>
      if isDoubleDot piece then path.dropLast ++ [[]]
      else if isSingleDot piece then path ++ [[]]
      else path ++ [Percent.encode encodes piece]
  | path, piece :: next :: rest =>
      if isDoubleDot piece then walk encodes path.dropLast (next :: rest)
      else if isSingleDot piece then walk encodes path (next :: rest)
      else walk encodes (path ++ [Percent.encode encodes piece]) (next :: rest)

def pathPart (text : List Char) : List Char :=
  text.takeWhile fun c => !endsPath c

def piecesOf (text : List Char) : List (List Char) :=
  (pathPart text).splitOnP isSlash

/-- The query of a text whose path has been read. -/
def queryPart (parser : Parser) (text : List Char) : Option String :=
  match text.dropWhile fun c => !endsPath c with
  | '?' :: rest =>
      some (String.ofList (Percent.encode parser.encodesInQuery
        (rest.takeWhile fun c => c ≠ '#')))
  | _ => none

def fragmentPart (parser : Parser) (text : List Char) : Option String :=
  match text.dropWhile fun c => c ≠ '#' with
  | '#' :: rest =>
      some (String.ofList (Percent.encode parser.encodesInFragment rest))
  | _ => none

/-- Give a URL the path, query and fragment that a text spells, starting from
some directories. -/
def withPath (parser : Parser) (url : Url) (directories : List (List Char))
    (text : List Char) : Url :=
  { url with
    path := String.ofList (pathText
      (walk parser.encodesInPath directories (piecesOf text)))
    query := queryPart parser text
    fragment := fragmentPart parser text }

/-! ## References -/

def defaultPort (scheme : String) (port : Option ℕ) : Option ℕ :=
  if port = Url.knownDefaultPort scheme then none else port

/-- A URL with an authority of its own. -/
def withAuthority (parser : Parser) (scheme : List Char) (text : List Char) :
    Except String Url :=
  let name := text.takeWhile fun c => !(isSlash c || endsPath c)
  let rest := text.dropWhile fun c => !(isSlash c || endsPath c)
  (parser.authority name).map fun authority =>
    withPath parser
      { scheme := String.ofList scheme
        username := authority.username
        password := authority.password
        host := some authority.host
        port := defaultPort (String.ofList scheme) authority.port
        path := ""
        query := none
        fragment := none }
      []
      (match rest with
        | c :: tail => if isSlash c then tail else rest
        | [] => [])

/-- A reference without a scheme, or with the scheme of the base. -/
def relative (parser : Parser) (base : Url) (text : List Char) :
    Except String Url :=
  match text with
  | [] => .ok { base with fragment := none }
  | c :: rest =>
      if isSlash c then
        if rest.head?.any isSlash then
          withAuthority parser base.scheme.toList (rest.dropWhile isSlash)
        else .ok (withPath parser base [] rest)
      else if c = '?' then
        .ok { base with
          query := queryPart parser text
          fragment := fragmentPart parser text }
      else if c = '#' then
        .ok { base with fragment := fragmentPart parser text }
      else
        .ok (withPath parser base (segmentsOf base.path.toList).dropLast text)

def isC0ControlOrSpace (c : Char) : Bool := c.val ≤ 0x20

def isTabOrNewline (c : Char) : Bool := c = '\t' || c = '\n' || c = '\r'

/-- What the parser reads of an input. -/
def trimmed (input : List Char) : List Char :=
  (((input.dropWhile isC0ControlOrSpace).reverse.dropWhile
    isC0ControlOrSpace).reverse).filter fun c => !isTabOrNewline c

def join (parser : Parser) (base : Url) (input : String) :
    Except String Url :=
  match schemeOf (trimmed input.toList) with
  | some (scheme, rest) =>
      if isSpecial scheme then
        if String.ofList scheme = base.scheme ∧
            (rest.takeWhile isSlash).length < 2 then
          relative parser base rest
        else withAuthority parser scheme (rest.dropWhile isSlash)
      else parser.absolute scheme rest
  | none => relative parser base (trimmed input.toList)

/-- The `url` crate: `Url::join` resolves against an `http` or `https` base as
the standard does. -/
structure UrlCrate extends Parser where
  form : FormCodec
  join : Url → String → Except String Url
  join_eq : ∀ base input, base.scheme = "http" ∨ base.scheme = "https" →
    join base input = UrlJoin.join toParser base input

/-! ## Where a path leads -/

/-- The pieces never step above the place they start from, which lies some
levels down already. -/
def staysBelow : ℕ → List (List Char) → Bool
  | _, [] => true
  | depth, piece :: rest =>
      if isDoubleDot piece then
        depth ≠ 0 && staysBelow (depth - 1) rest
      else if isSingleDot piece then staysBelow depth rest
      else staysBelow (depth + 1) rest

theorem walk_of_staysBelow
    (encodes : Char → Bool) (directories inner pieces : List (List Char))
    (hpieces : pieces ≠ []) (hstays : staysBelow inner.length pieces = true) :
    ∃ tail, tail ≠ [] ∧
      walk encodes (directories ++ inner) pieces = directories ++ tail := by
  induction pieces generalizing inner with
  | nil => exact absurd rfl hpieces
  | cons piece rest ih =>
      have hdrop : inner.length ≠ 0 →
          (directories ++ inner).dropLast = directories ++ inner.dropLast := by
        intro hlength
        exact List.dropLast_append_of_ne_nil
          (List.ne_nil_of_length_pos (Nat.pos_of_ne_zero hlength))
      unfold staysBelow at hstays
      cases rest with
      | nil =>
          unfold walk
          split at hstays
          next hdouble =>
            simp only [ne_eq, Bool.and_eq_true, decide_eq_true_eq] at hstays
            rw [if_pos hdouble, hdrop hstays.1, List.append_assoc]
            exact ⟨_, by simp, rfl⟩
          next hdouble =>
            rw [if_neg hdouble]
            split
            · exact ⟨inner ++ [[]], by simp, List.append_assoc _ _ _⟩
            · exact ⟨inner ++ [_], by simp, List.append_assoc _ _ _⟩
      | cons next rest =>
          unfold walk
          split at hstays
          next hdouble =>
            simp only [ne_eq, Bool.and_eq_true, decide_eq_true_eq] at hstays
            rw [if_pos hdouble, hdrop hstays.1]
            apply ih inner.dropLast (List.cons_ne_nil _ _)
            rw [List.length_dropLast]
            exact hstays.2
          next hdouble =>
            rw [if_neg hdouble]
            split at hstays
            next hsingle =>
              rw [if_pos hsingle]
              exact ih inner (List.cons_ne_nil _ _) hstays
            next hsingle =>
              rw [if_neg hsingle, List.append_assoc]
              apply ih (inner ++ [_]) (List.cons_ne_nil _ _)
              rw [List.length_append]
              exact hstays

/-- Pieces that step above a directory forget it. -/
theorem walk_of_not_staysBelow
    (encodes : Char → Bool) (inner pieces : List (List Char))
    (hleaves : staysBelow inner.length pieces = false) :
    ∃ result, ∀ directory, walk encodes (directory :: inner) pieces = result := by
  induction pieces generalizing inner with
  | nil => cases hleaves
  | cons piece rest ih =>
      unfold staysBelow at hleaves
      by_cases hdouble : isDoubleDot piece = true
      · rw [if_pos hdouble] at hleaves
        cases inner with
        | nil =>
            cases rest with
            | nil =>
                refine ⟨[[]], fun directory => ?_⟩
                rw [walk, if_pos hdouble]
                rfl
            | cons next rest =>
                refine ⟨walk encodes [] (next :: rest), fun directory => ?_⟩
                rw [walk, if_pos hdouble]
                rfl
        | cons first inner =>
            cases rest with
            | nil => simp [staysBelow] at hleaves
            | cons next rest =>
                obtain ⟨result, hresult⟩ :=
                  ih (first :: inner).dropLast (by simpa using hleaves)
                refine ⟨result, fun directory => ?_⟩
                rw [walk, if_pos hdouble]
                exact hresult directory
      · rw [if_neg hdouble] at hleaves
        cases rest with
        | nil => simp [staysBelow] at hleaves
        | cons next rest =>
            by_cases hsingle : isSingleDot piece = true
            · rw [if_pos hsingle] at hleaves
              obtain ⟨result, hresult⟩ := ih inner hleaves
              refine ⟨result, fun directory => ?_⟩
              rw [walk, if_neg hdouble, if_pos hsingle]
              exact hresult directory
            · rw [if_neg hsingle] at hleaves
              obtain ⟨result, hresult⟩ :=
                ih (inner ++ [Percent.encode encodes piece])
                  (by simpa using hleaves)
              refine ⟨result, fun directory => ?_⟩
              rw [walk, if_neg hdouble, if_neg hsingle]
              exact hresult directory

theorem walk_of_plain
    {encodes : Char → Bool} (path : List (List Char))
    {pieces : List (List Char)}
    (hdots : ∀ piece ∈ pieces,
      isDoubleDot piece = false ∧ isSingleDot piece = false)
    (hplain : ∀ piece ∈ pieces, ∀ c ∈ piece, encodes c = false) :
    walk encodes path pieces = path ++ pieces := by
  induction pieces generalizing path with
  | nil => exact (List.append_nil path).symm
  | cons piece rest ih =>
      obtain ⟨hdouble, hsingle⟩ := hdots piece List.mem_cons_self
      have hencode : Percent.encode encodes piece = piece :=
        Percent.encode_of_plain (hplain piece List.mem_cons_self)
      cases rest with
      | nil => simp [walk, hdouble, hsingle, hencode]
      | cons next rest =>
          have hrest := ih (path ++ [piece])
            (fun other hmem => hdots other (List.mem_cons_of_mem _ hmem))
            (fun other hmem => hplain other (List.mem_cons_of_mem _ hmem))
          simp only [walk, hdouble, hsingle, hencode, Bool.false_eq_true,
            if_false]
          rw [hrest, List.append_assoc]
          rfl

/-! ## Paths that end in a slash -/

theorem pathText_append (first second : List (List Char)) :
    pathText (first ++ second) = pathText first ++ pathText second :=
  List.flatMap_append

theorem pathText_splitOn (text : List Char) :
    pathText (text.splitOn '/') = '/' :: text := by
  induction text with
  | nil => rfl
  | cons c text ih =>
      obtain ⟨first, rest, hsplit⟩ :=
        List.exists_cons_of_ne_nil (List.splitOn_ne_nil '/' text)
      rw [hsplit, pathText, List.flatMap_cons, List.cons_append] at ih
      have hinner := (List.cons.inj ih).2
      rw [List.splitOn_cons_eq_if_modifyHead]
      split
      next hslash =>
        rw [eq_of_beq hslash, hsplit, pathText, List.flatMap_cons,
          List.flatMap_cons, List.cons_append, List.nil_append,
          List.cons_append, hinner]
      next =>
        rw [hsplit, List.modifyHead_cons, pathText, List.flatMap_cons,
          List.cons_append, List.cons_append, hinner]

/-- A path between slashes is a list of directories. -/
theorem segmentsOf_directory {path : List Char}
    (hstart : path.head? = some '/') (hend : path.getLast? = some '/') :
    ∃ directories, segmentsOf path = directories ++ [[]] ∧
      pathText directories ++ ['/'] = path := by
  obtain ⟨rest, rfl⟩ : ∃ rest, path = '/' :: rest := by
    cases path with
    | nil => cases hstart
    | cons c rest =>
        cases hstart
        exact ⟨rest, rfl⟩
  rcases List.eq_nil_or_concat' rest with rfl | ⟨mid, last, rfl⟩
  · exact ⟨[], rfl, rfl⟩
  · have hlast : last = '/' := by
      rw [← List.cons_append, List.getLast?_concat] at hend
      exact Option.some.inj hend
    subst hlast
    refine ⟨mid.splitOn '/', ?_, ?_⟩
    · rw [segmentsOf, List.tail_cons, List.splitOn_append_cons_self,
        List.splitOn_nil]
    · rw [pathText_splitOn]
      rfl

theorem leading_pathText {directories tail : List (List Char)}
    (htail : tail ≠ []) :
    pathText directories ++ ['/'] <+: pathText (directories ++ tail) := by
  obtain ⟨segment, rest, rfl⟩ := List.exists_cons_of_ne_nil htail
  refine ⟨segment ++ pathText rest, ?_⟩
  rw [pathText_append, List.append_assoc]
  rfl

/-- Neighbours in a path are neighbours in a piece, or one is a slash. -/
theorem isChain_pathText
    {related : Char → Char → Prop} {first : List Char}
    {rest : List (List Char)}
    (hchain : ∀ piece ∈ first :: rest, piece.IsChain related)
    (hbefore : ∀ piece ∈ first :: rest, ∀ c ∈ piece, related c '/')
    (hafter : ∀ piece ∈ rest, ∀ c ∈ piece, related '/' c)
    (hnonempty : ∀ piece ∈ rest, piece ≠ []) :
    (first ++ pathText rest).IsChain related := by
  induction rest generalizing first with
  | nil =>
      rw [show pathText [] = [] from rfl, List.append_nil]
      exact hchain first List.mem_cons_self
  | cons next rest ih =>
      have hnext := ih
        (fun piece hmem => hchain piece (List.mem_cons_of_mem _ hmem))
        (fun piece hmem => hbefore piece (List.mem_cons_of_mem _ hmem))
        (fun piece hmem => hafter piece (List.mem_cons_of_mem _ hmem))
        (fun piece hmem => hnonempty piece (List.mem_cons_of_mem _ hmem))
      rw [show pathText (next :: rest) = '/' :: (next ++ pathText rest) from rfl]
      apply List.IsChain.append (hchain first List.mem_cons_self)
      · refine List.isChain_cons.mpr ⟨?_, hnext⟩
        intro y hy
        obtain ⟨c, cs, rfl⟩ :=
          List.exists_cons_of_ne_nil (hnonempty next List.mem_cons_self)
        cases hy
        exact hafter _ List.mem_cons_self y List.mem_cons_self
      · intro x hx y hy
        cases hy
        exact hbefore first List.mem_cons_self x (List.mem_of_mem_getLast? hx)

theorem splitOnP_pathText
    {first : List Char} {rest : List (List Char)}
    (hpieces : ∀ piece ∈ first :: rest, ∀ c ∈ piece, isSlash c = false) :
    (first ++ pathText rest).splitOnP isSlash = first :: rest := by
  induction rest generalizing first with
  | nil =>
      rw [show pathText [] = [] from rfl, List.append_nil]
      exact List.splitOnP_eq_singleton (hpieces first List.mem_cons_self)
  | cons next rest ih =>
      rw [show pathText (next :: rest) = '/' :: (next ++ pathText rest) from rfl,
        List.splitOnP_append_cons_of_forall_mem
          (hpieces first List.mem_cons_self) '/' rfl,
        ih fun piece hmem => hpieces piece (List.mem_cons_of_mem _ hmem)]

/-! ## What a plain reference means -/

theorem trimmed_of_graphic {text : List Char}
    (hgraphic : ∀ c ∈ text, 32 < c.toNat) : trimmed text = text := by
  have hblank : ∀ c ∈ text, isC0ControlOrSpace c = false := by
    intro c hmem
    have hlow : 32 < c.val.toNat := hgraphic c hmem
    simp only [isC0ControlOrSpace, decide_eq_false_iff_not,
      UInt32.le_iff_toNat_le, UInt32.toNat_ofNat]
    omega
  have hbreak : ∀ c ∈ text, (!isTabOrNewline c) = true := by
    intro c hmem
    have hlow := hgraphic c hmem
    simp only [isTabOrNewline, Bool.not_eq_true', Bool.or_eq_false_iff,
      decide_eq_false_iff_not]
    refine ⟨⟨?_, ?_⟩, ?_⟩ <;> rintro rfl <;> exact absurd hlow (by decide)
  have hdrop : ∀ part : List Char, part ⊆ text →
      part.dropWhile isC0ControlOrSpace = part := by
    intro part hpart
    cases part with
    | nil => rfl
    | cons c part =>
        rw [List.dropWhile_cons_of_neg]
        rw [hblank c (hpart List.mem_cons_self)]
        decide
  rw [trimmed, hdrop text (List.Subset.refl _),
    hdrop _ (fun c hc => List.mem_reverse.mp hc), List.reverse_reverse,
    List.filter_eq_self.mpr hbreak]

/-- A text whose first piece has no colon has no scheme. -/
theorem schemeOf_pathText {first : List Char} {rest : List (List Char)}
    (hcolon : ':' ∉ first) : schemeOf (first ++ pathText rest) = none := by
  have hafter : ∀ tail, (first ++ pathText rest).dropWhile isSchemeChar ≠
      ':' :: tail := by
    induction first with
    | nil =>
        intro tail
        cases rest with
        | nil => exact (List.cons_ne_nil _ _).symm
        | cons piece rest =>
            rw [List.nil_append, pathText, List.flatMap_cons, List.cons_append,
              List.dropWhile_cons_of_neg (by decide)]
            intro heq
            exact absurd (List.cons.inj heq).1 (by decide)
    | cons c first ih =>
        intro tail
        rw [List.cons_append, List.dropWhile_cons]
        split
        next => exact ih (fun hmem => hcolon (List.mem_cons_of_mem _ hmem)) tail
        next =>
          intro heq
          have hhead := (List.cons.inj heq).1
          exact hcolon (hhead ▸ List.mem_cons_self)
  unfold schemeOf
  rw [List.span_eq_takeWhile_dropWhile]
  split
  next c name tail heq => exact absurd (Prod.mk.inj heq).2 (hafter tail)
  next => rfl

/-! ## Spellings of the dot segments -/

theorem lt_of_toLower_eq {c d : Char} (hd : d.toNat < 128)
    (heq : c.toLower = d) : c.toNat < 128 := by
  by_contra hhigh
  have hsame : c.toLower = c := by
    unfold Char.toLower
    rw [dif_neg]
    rintro ⟨-, hupper⟩
    have hval : c.toNat = c.val.toNat := rfl
    rw [UInt32.le_iff_toNat_le] at hupper
    rw [hval] at hhigh
    exact hhigh (lt_of_le_of_lt hupper (by decide))
  rw [hsame] at heq
  exact hhigh (heq ▸ hd)

/-- A letter has two cases and any other character of ASCII has one. -/
theorem cases_of_toLower {c d : Char} (hd : d.toNat < 128)
    (heq : c.toLower = d) : c = d ∨ c = d.toUpper := by
  have hcases : ∀ n < 128, Char.ofNat n = (Char.ofNat n).toLower ∨
      Char.ofNat n = (Char.ofNat n).toLower.toUpper := by
    decide +kernel
  have hc := hcases c.toNat (lt_of_toLower_eq hd heq)
  rw [Char.ofNat_toNat, heq] at hc
  exact hc

/-- The texts that are a given one in lower case. -/
def casings : List Char → List (List Char)
  | [] => [[]]
  | c :: rest =>
      (casings rest).flatMap fun text => [c :: text, c.toUpper :: text]

theorem mem_casings {piece text : List Char}
    (htext : ∀ c ∈ text, c.toNat < 128)
    (heq : piece.map Char.toLower = text) : piece ∈ casings text := by
  induction text generalizing piece with
  | nil =>
      rw [List.map_eq_nil_iff.mp heq]
      exact List.mem_singleton.mpr rfl
  | cons c rest ih =>
      obtain ⟨d, tail, rfl, hd, htail⟩ := List.map_eq_cons_iff.mp heq
      have hrest := ih (fun e he => htext e (List.mem_cons_of_mem _ he)) htail
      refine List.mem_flatMap.mpr ⟨tail, hrest, ?_⟩
      rcases cases_of_toLower (htext c List.mem_cons_self) hd with rfl | rfl
      · exact List.mem_cons_self
      · exact List.mem_cons_of_mem _ (List.mem_singleton.mpr rfl)

theorem decode_of_casing {piece text : List Char} {bytes : List UInt8}
    (htext : (text.all fun c => decide (c.toNat < 128)) = true)
    (hcasings : ∀ spelling ∈ casings text, Percent.decode spelling = bytes)
    (heq : piece.map Char.toLower = text) : Percent.decode piece = bytes := by
  refine hcasings piece (mem_casings ?_ heq)
  exact fun c hmem => of_decide_eq_true (List.all_eq_true.mp htext c hmem)

theorem decode_of_isSingleDot {piece : List Char}
    (hdot : isSingleDot piece = true) :
    Percent.decode piece = Percent.utf8 ".".toList := by
  simp only [isSingleDot, Bool.or_eq_true, decide_eq_true_eq] at hdot
  rcases hdot with heq | heq
  · exact decode_of_casing (by decide +kernel) (by decide +kernel) heq
  · exact decode_of_casing (by decide +kernel) (by decide +kernel) heq

theorem decode_of_isDoubleDot {piece : List Char}
    (hdots : isDoubleDot piece = true) :
    Percent.decode piece = Percent.utf8 "..".toList := by
  simp only [isDoubleDot, Bool.or_eq_true, decide_eq_true_eq] at hdots
  rcases hdots with ((heq | heq) | heq) | heq
  · exact decode_of_casing (by decide +kernel) (by decide +kernel) heq
  · exact decode_of_casing (by decide +kernel) (by decide +kernel) heq
  · exact decode_of_casing (by decide +kernel) (by decide +kernel) heq
  · exact decode_of_casing (by decide +kernel) (by decide +kernel) heq

/-- A piece that spells another text than dots is no dot segment. -/
theorem not_dots_of_decode {piece text : List Char}
    (hdecode : Percent.decode piece = Percent.utf8 text)
    (hsingle : text ≠ ".".toList) (hdouble : text ≠ "..".toList) :
    isDoubleDot piece = false ∧ isSingleDot piece = false := by
  constructor
  · by_contra hdots
    have hbytes := decode_of_isDoubleDot (Bool.not_eq_false _ ▸ hdots)
    exact hdouble (Percent.utf8_injective (hdecode.symm.trans hbytes))
  · by_contra hdot
    have hbytes := decode_of_isSingleDot (Bool.not_eq_false _ ▸ hdot)
    exact hsingle (Percent.utf8_injective (hdecode.symm.trans hbytes))

end UrlJoin
