import RuprogressMcp.RustText

/-!
# Log directives

A directive gives a level to the targets that its own target is a prefix of.
Among the directives that match a target, the one with the longest target
decides, and of equal ones the last.  A directive without a target matches
everything.
-/

namespace LogDirectives

inductive Level where
  | off | error | warn | info | debug | trace
deriving DecidableEq

namespace Level

def verbosity : Level → ℕ
  | off => 0
  | error => 1
  | warn => 2
  | info => 3
  | debug => 4
  | trace => 5

theorem verbosity_injective : Function.Injective verbosity := by
  intro a b
  cases a <;> cases b <;> decide

instance : LinearOrder Level := LinearOrder.lift' verbosity verbosity_injective

def name : Level → String
  | off => "off"
  | error => "error"
  | warn => "warn"
  | info => "info"
  | debug => "debug"
  | trace => "trace"

def all : List Level := [off, error, warn, info, debug, trace]

/-- A level is written as its name, in any case, or as a digit. -/
def parse (text : List Char) : Option Level :=
  match RustText.parseUnsigned (2 ^ 64) text with
  | some n => all[n]?
  | none => all.find? fun level => level.name.toList = text.map Char.toLower

end Level

structure Directive where
  target : List Char
  level : Level
deriving DecidableEq

/-! ## The directive that decides -/

def Directive.Matches (directive : Directive) (target : List Char) : Prop :=
  directive.target <+: target

instance (directive : Directive) (target : List Char) :
    Decidable (directive.Matches target) :=
  inferInstanceAs (Decidable (directive.target <+: target))

/-- The better of the directive found so far and the next one. -/
def better (target : List Char) (best : Option Directive)
    (next : Directive) : Option Directive :=
  if next.Matches target ∧
      (best.all fun found => found.target.length ≤ next.target.length) = true
  then some next
  else best

def winner (directives : List Directive) (target : List Char) :
    Option Directive :=
  directives.foldl (better target) none

/-- The level that a list of directives enables for a target.  An empty list
stands for the default directive. -/
def enabled (directives : List Directive) (target : List Char) : Level :=
  if directives = [] then .error
  else ((winner directives target).map Directive.level).getD .off

/-- The directive matches, no earlier one is longer, and every later one is
shorter. -/
structure Decides (directives : List Directive) (target : List Char)
    (directive : Directive) : Prop where
  isMatch : directive.Matches target
  position : ∃ before after, directives = before ++ directive :: after ∧
    (∀ other ∈ before, other.Matches target →
      other.target.length ≤ directive.target.length) ∧
    ∀ other ∈ after, other.Matches target →
      other.target.length < directive.target.length

section Winner

variable {directives : List Directive} {target : List Char}
  {directive : Directive}

theorem winner_append_singleton (last : Directive) :
    winner (directives ++ [last]) target =
      better target (winner directives target) last := by
  rw [winner, List.foldl_append, List.foldl_cons, List.foldl_nil, winner]

theorem winner_spec :
    (∀ directive, winner directives target = some directive →
      Decides directives target directive) ∧
      (winner directives target = none →
        ∀ other ∈ directives, ¬ other.Matches target) := by
  induction directives using List.reverseRecOn with
  | nil =>
      refine ⟨?_, ?_⟩
      · intro _ hwinner
        cases hwinner
      · intro _ _ hmem
        cases hmem
  | append_singleton earlier last ih =>
      rw [winner_append_singleton, better]
      split
      · rename_i hlast
        refine ⟨?_, fun hnone => by cases hnone⟩
        intro found hfound
        cases hfound
        refine ⟨hlast.1, earlier, [], rfl, ?_, fun _ hmem => by cases hmem⟩
        intro other hother hmatch
        cases hwinner : winner earlier target with
        | none => exact absurd hmatch (ih.2 hwinner other hother)
        | some best =>
            have hle : best.target.length ≤ last.target.length := by
              simpa [hwinner] using hlast.2
            obtain ⟨-, before, after, rfl, hbefore, hafter⟩ := ih.1 best hwinner
            rcases List.mem_append.mp hother with hold | hrest
            · exact (hbefore other hold hmatch).trans hle
            · rcases List.mem_cons.mp hrest with rfl | hnew
              · exact hle
              · exact (hafter other hnew hmatch).le.trans hle
      · rename_i hlast
        constructor
        · intro found hfound
          obtain ⟨hmatch, before, after, rfl, hbefore, hafter⟩ := ih.1 found hfound
          refine ⟨hmatch, before, after ++ [last], by simp, hbefore, ?_⟩
          intro other hother hmatches
          rcases List.mem_append.mp hother with hold | hnew
          · exact hafter other hold hmatches
          · obtain rfl := List.mem_singleton.mp hnew
            refine Nat.lt_of_not_le fun hle => hlast ⟨hmatches, ?_⟩
            simpa [hfound] using hle
        · intro hnone other hother hmatches
          rcases List.mem_append.mp hother with hold | hnew
          · exact ih.2 hnone other hold hmatches
          · obtain rfl := List.mem_singleton.mp hnew
            refine hlast ⟨hmatches, ?_⟩
            rw [hnone]
            rfl

theorem Decides.length_le {other : Directive}
    (hdecides : Decides directives target directive)
    (hother : other ∈ directives) (hmatch : other.Matches target) :
    other.target.length ≤ directive.target.length := by
  obtain ⟨-, before, after, rfl, hbefore, hafter⟩ := hdecides
  rcases List.mem_append.mp hother with hold | hrest
  · exact hbefore other hold hmatch
  · rcases List.mem_cons.mp hrest with rfl | hnew
    · exact le_rfl
    · exact (hafter other hnew hmatch).le

theorem Decides.mem (hdecides : Decides directives target directive) :
    directive ∈ directives := by
  obtain ⟨-, before, after, rfl, -⟩ := hdecides
  exact List.mem_append_right _ List.mem_cons_self

theorem Decides.not_mem_shorter
    {first second : Directive} {shorter : List Directive}
    (hfirst : Decides directives target first)
    (hsecond : Decides directives target second)
    (hshorter : ∀ other ∈ shorter, other.Matches target →
      other.target.length < first.target.length) : second ∉ shorter := by
  intro hmem
  have hlater := hshorter second hmem hsecond.isMatch
  have hle := hsecond.length_le hfirst.mem hfirst.isMatch
  omega

/-- Only one directive decides. -/
theorem Decides.unique {first second : Directive}
    (hfirst : Decides directives target first)
    (hsecond : Decides directives target second) : first = second := by
  obtain ⟨-, before, after, hsplit, -, hafter⟩ := id hfirst
  obtain ⟨-, before', after', hsplit', -, hafter'⟩ := id hsecond
  rcases List.append_eq_append_iff.mp (hsplit.symm.trans hsplit') with
    ⟨middle, -, hrest⟩ | ⟨middle, -, hrest⟩
  · cases middle with
    | nil => exact (List.cons.inj hrest).1
    | cons head middle =>
        obtain ⟨-, rfl⟩ := List.cons.inj hrest
        exact absurd (List.mem_append_right _ List.mem_cons_self)
          (hfirst.not_mem_shorter hsecond hafter)
  · cases middle with
    | nil => exact (List.cons.inj hrest).1.symm
    | cons head middle =>
        obtain ⟨-, rfl⟩ := List.cons.inj hrest
        exact absurd (List.mem_append_right _ List.mem_cons_self)
          (hsecond.not_mem_shorter hfirst hafter')

theorem winner_eq_some_iff :
    winner directives target = some directive ↔
      Decides directives target directive := by
  constructor
  · exact winner_spec.1 directive
  · intro hdecides
    cases hwinner : winner directives target with
    | none =>
        exact absurd hdecides.isMatch
          (winner_spec.2 hwinner directive hdecides.mem)
    | some found =>
        rw [(winner_spec.1 found hwinner).unique hdecides]

end Winner

/-! ## More directives behind a list -/

section Appended

variable {directives more : List Directive} {target : List Char}
  {directive : Directive}

/-- A directive that decides is not overruled by shorter ones. -/
theorem Decides.append
    (hdecides : Decides directives target directive)
    (hmore : ∀ other ∈ more, other.Matches target →
      other.target.length < directive.target.length) :
    Decides (directives ++ more) target directive := by
  obtain ⟨hmatch, before, after, rfl, hbefore, hafter⟩ := hdecides
  refine ⟨hmatch, before, after ++ more, by simp, hbefore, ?_⟩
  intro other hother hmatches
  rcases List.mem_append.mp hother with hold | hnew
  · exact hafter other hold hmatches
  · exact hmore other hnew hmatches

/-- A directive that decides alone overrules what is no longer than it. -/
theorem Decides.of_append
    (hdecides : Decides more target directive)
    (hbefore : ∀ other ∈ directives, other.Matches target →
      other.target.length ≤ directive.target.length) :
    Decides (directives ++ more) target directive := by
  obtain ⟨hmatch, before, after, rfl, hearlier, hafter⟩ := hdecides
  refine ⟨hmatch, directives ++ before, after, by simp, ?_, hafter⟩
  intro other hother hmatches
  rcases List.mem_append.mp hother with hold | hnew
  · exact hbefore other hold hmatches
  · exact hearlier other hnew hmatches

end Appended

/-! ## Written directives -/

/-- The directive that a piece of text stands for, if it is one. -/
def parseDirective (text : List Char) : Option Directive :=
  match RustText.splitOnce ['='] text with
  | none => (Level.parse text).map fun level => ⟨[], level⟩
  | some (target, level) => (Level.parse level).map fun level => ⟨target, level⟩

/-- The directives of the pieces between commas; empty ones are skipped. -/
def parsePieces (pieces : List (List Char)) : List Directive :=
  (pieces.filter (· ≠ [])).filterMap parseDirective

def parse (spec : List Char) : List Directive := parsePieces (spec.splitOn ',')

theorem parsePieces_append (first second : List (List Char)) :
    parsePieces (first ++ second) = parsePieces first ++ parsePieces second := by
  rw [parsePieces, List.filter_append, List.filterMap_append]
  rfl

theorem parsePieces_flatten (groups : List (List (List Char))) :
    parsePieces groups.flatten = (groups.map parsePieces).flatten := by
  induction groups with
  | nil => rfl
  | cons group rest ih =>
      rw [List.flatten_cons, parsePieces_append, ih, List.map_cons,
        List.flatten_cons]

/-- A filter takes a text that begins so for a level or a target. -/
def isPlainStart (c : Char) : Bool :=
  c.isAlphanum || c == '_' || c == ':' || c == '-'

/-- The text has nothing in it that ends a target: no white space around or in
it, no level and no span. -/
structure IsPlain (text : List Char) : Prop where
  start : text.head?.any isPlainStart = true
  inside : ∀ c ∈ text, RustText.isWhitespace c = false ∧ c ≠ '=' ∧ c ≠ '['

/-- The text is a level, or a target and a level with an equals sign between
them. -/
inductive IsDirective : List Char → Prop where
  | bare {text : List Char} (hplain : IsPlain text)
      (hlevel : (Level.parse text).isSome = true) : IsDirective text
  | target {target level : List Char} (hplain : IsPlain target)
      (hlevel : level ≠ [] ∧ (Level.parse level).isSome = true) :
      IsDirective (target ++ '=' :: level)

/-- Every piece between commas is a directive, with nothing around it, or is
empty. -/
def IsDirectiveList (spec : List Char) : Prop :=
  ∀ piece ∈ spec.splitOn ',', piece = [] ∨ IsDirective piece

theorem isPlain_of_all
    {text : List Char} (hstart : text.head?.any isPlainStart = true)
    (hinside : (text.all fun c => !RustText.isWhitespace c && c != '=' && c != '[') =
      true) : IsPlain text := by
  refine ⟨hstart, fun c hc => ?_⟩
  have hchar := List.all_eq_true.mp hinside c hc
  simpa [and_assoc] using hchar

theorem isDirectiveList_of_single
    {text : List Char} (habsent : ',' ∉ text)
    (hdirective : IsDirective text) : IsDirectiveList text := by
  intro piece hpiece
  rw [RustText.splitOn_of_not_mem habsent, List.mem_singleton] at hpiece
  exact Or.inr (hpiece ▸ hdirective)

/-- A filter that reads lists of directives as they are meant.  What it makes
of other texts, and of directives with white space around them, is left open. -/
structure Filter where
  level : List Char → List Char → Level
  reads : ∀ spec target, IsDirectiveList spec →
    level spec target = enabled (parse spec) target

end LogDirectives
