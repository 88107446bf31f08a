import RuprogressMcp.LogDirectives

/-!
# The payload-safety floor

A fixed list of dependencies is to be capped below the levels at which they
log bodies.  The cap is one more directive behind the requested ones for each
dependency that these do not name, so it meets them by the rules of directives:
it gives its level to everything that nothing longer matches, whatever was
requested there, and nothing to the targets that something longer matches.
-/

namespace RuprogressMcp

namespace Logging

open LogDirectives

/-- The targets that log payloads, and the level that each is capped at. -/
def floors : List (String × String) :=
  [("rmcp", "info"), ("hyper", "info"), ("hyper_util", "info"), ("h2", "info"),
    ("reqwest", "info"), ("tower_http::trace", "debug"), ("rustls", "info"),
    ("wiremock", "info")]

/-- The targets that the requested directives name. -/
def named (requested : String) : List (List Char) :=
  (requested.toList.splitOn ',').map fun directive =>
    RustText.trim ((directive.splitOn '=').headD [])

def isNamed (requested : String) (floor : String × String) : Bool :=
  (named requested).contains floor.1.toList

/-- One floor: reported when its target is named, appended when not. -/
def applyFloor (requested : String) (state : String × List String)
    (floor : String × String) : String × List String :=
  if isNamed requested floor then (state.1, state.2 ++ [floor.1])
  else (state.1 ++ "," ++ floor.1 ++ "=" ++ floor.2, state.2)

/-- The text of the filter and the floors that are overridden. -/
def envFilter (requested : String) : String × List String :=
  floors.foldl (applyFloor requested) (requested, [])

/-- The target is the floored one or lies below it. -/
def IsUnder (floored target : List Char) : Prop :=
  target = floored ∨ floored ++ "::".toList <+: target

/-- A requested directive for the target names more than the floored one. -/
def NamesBelow (requested : String) (floored target : List Char) : Prop :=
  ∃ directive ∈ parse requested.toList, directive.Matches target ∧
    floored.length < directive.target.length

/-! ## The text of the filter -/

def floorText (floor : String × String) : List Char :=
  floor.1.toList ++ '=' :: floor.2.toList

/-- The directive that a floor is written as. -/
def floorDirective (floor : String × String) : Directive :=
  ⟨floor.1.toList, (Level.parse floor.2.toList).getD .off⟩

/-- The floors whose targets are not named. -/
def appended (requested : String) (all : List (String × String)) :
    List (String × String) :=
  all.filter fun floor => !isNamed requested floor

theorem foldl_applyFloor
    (requested : String) (all : List (String × String))
    (state : String × List String) :
    ((all.foldl (applyFloor requested) state).1.toList.splitOn ',' =
        state.1.toList.splitOn ',' ++
          ((appended requested all).map fun floor =>
            (floorText floor).splitOn ',').flatten) ∧
      (all.foldl (applyFloor requested) state).2 =
        state.2 ++ (all.filter (isNamed requested)).map Prod.fst := by
  induction all generalizing state with
  | nil => simp [appended]
  | cons floor rest ih =>
      obtain ⟨htext, hoverridden⟩ := ih (applyFloor requested state floor)
      rw [List.foldl_cons, htext, hoverridden]
      unfold applyFloor appended
      by_cases hnamed : isNamed requested floor = true
      · rw [if_pos hnamed, List.filter_cons_of_neg (by simpa using hnamed),
          List.filter_cons_of_pos hnamed]
        simp
      · have hsplit : (state.1 ++ "," ++ floor.1 ++ "=" ++
              floor.2).toList.splitOn ',' =
            state.1.toList.splitOn ',' ++ (floorText floor).splitOn ',' := by
          rw [← RustText.splitOn_append_cons, floorText]
          simp [String.toList_append]
        rw [if_neg hnamed, List.filter_cons_of_pos (by simpa using hnamed),
          List.filter_cons_of_neg hnamed]
        refine ⟨?_, rfl⟩
        rw [hsplit, List.map_cons, List.flatten_cons, List.append_assoc]

/-- Each floor is written as a directive and read as one. -/
theorem floors_written :
    ∀ floor ∈ floors, parse (floorText floor) = [floorDirective floor] ∧
      floor.1.toList.head?.any isPlainStart = true ∧
      (floor.1.toList.all fun c =>
        !RustText.isWhitespace c && c != '=' && c != '[') = true ∧
      floor.2.toList ≠ [] ∧ (Level.parse floor.2.toList).isSome = true ∧
      ',' ∉ floorText floor := by
  decide +kernel

theorem isDirectiveList_floorText
    {floor : String × String} (hfloor : floor ∈ floors) :
    IsDirectiveList (floorText floor) := by
  obtain ⟨-, hstart, hinside, hwritten, hlevel, hcomma⟩ := floors_written floor hfloor
  apply isDirectiveList_of_single hcomma
  exact .target (isPlain_of_all hstart hinside) ⟨hwritten, hlevel⟩

/-- The filter has the requested directives, and behind them the floors that
are not named. -/
theorem parse_envFilter (requested : String) :
    parse (envFilter requested).1.toList =
      parse requested.toList ++
        (appended requested floors).map floorDirective := by
  have hfloors : ∀ floor ∈ appended requested floors,
      (parsePieces ∘ fun floor => (floorText floor).splitOn ',') floor =
        [floorDirective floor] := fun floor hmem =>
    (floors_written floor (List.mem_filter.mp hmem).1).1
  have htext := (foldl_applyFloor requested floors (requested, [])).1
  rw [envFilter, parse, htext, parsePieces_append, parsePieces_flatten,
    List.map_map, List.map_congr_left hfloors, ← List.flatMap_def,
    ← List.map_eq_flatMap]
  rfl

theorem isDirectiveList_envFilter
    {requested : String} (hlist : IsDirectiveList requested.toList) :
    IsDirectiveList (envFilter requested).1.toList := by
  intro piece hpiece
  rw [envFilter, (foldl_applyFloor requested floors (requested, [])).1] at hpiece
  rcases List.mem_append.mp hpiece with hrequested | happended
  · exact hlist piece hrequested
  · obtain ⟨pieces, hpieces, hmem⟩ := List.mem_flatten.mp happended
    obtain ⟨floor, hfloor, rfl⟩ := List.mem_map.mp hpieces
    exact isDirectiveList_floorText (List.mem_filter.mp hfloor).1 piece hmem

theorem overridden_envFilter (requested : String) :
    (envFilter requested).2 =
      (floors.filter (isNamed requested)).map Prod.fst := by
  rw [envFilter, (foldl_applyFloor requested floors (requested, [])).2,
    List.nil_append]

/-- A floor that is not reported as overridden is appended. -/
theorem mem_appended
    {requested : String} {floor : String × String} (hfloor : floor ∈ floors)
    (hsilent : floor.1 ∉ (envFilter requested).2) :
    floor ∈ appended requested floors := by
  refine List.mem_filter.mpr ⟨hfloor, ?_⟩
  rw [overridden_envFilter] at hsilent
  rw [Bool.not_eq_true']
  by_contra hnamed
  exact hsilent (List.mem_map.mpr ⟨floor,
    List.mem_filter.mpr ⟨hfloor, by simpa using hnamed⟩, rfl⟩)

/-! ## The floors among each other -/

/-- No floor is repeated, and none is below another. -/
theorem floors_apart :
    floors.Nodup ∧ ∀ floor ∈ floors, ∀ other ∈ floors,
      (floor.1.toList = other.1.toList → floor = other) ∧
        ¬ floor.1.toList ++ [':'] <+: other.1.toList := by
  decide +kernel

section Under

variable {floor other : String × String} {target : List Char}
  (hfloor : floor ∈ floors) (hunder : IsUnder floor.1.toList target)

include hunder

theorem prefix_of_isUnder : floor.1.toList <+: target := by
  rcases hunder with rfl | hbelow
  · exact List.prefix_rfl
  · exact (List.prefix_append _ _).trans hbelow

include hfloor

/-- Of the floors that match a target, the one that it is under is the
longest. -/
theorem length_le_of_isUnder (hother : other ∈ floors)
    (hmatch : other.1.toList <+: target) :
    other.1.toList.length ≤ floor.1.toList.length := by
  by_contra hlonger
  rcases hunder with rfl | hbelow
  · exact hlonger hmatch.length_le
  · have hcolon : floor.1.toList ++ [':'] <+: target :=
      (show floor.1.toList ++ [':'] <+: floor.1.toList ++ "::".toList from
        ⟨[':'], by simp⟩).trans hbelow
    refine (floors_apart.2 floor hfloor other hother).2 ?_
    apply List.prefix_of_prefix_length_le hcolon hmatch
    rw [List.length_append, List.length_singleton]
    omega

/-- Alone, the floor decides for a target that is under it. -/
theorem decides_appended {requested : String}
    (happended : floor ∈ appended requested floors) :
    Decides ((appended requested floors).map floorDirective) target
      (floorDirective floor) := by
  obtain ⟨before, after, hsplit⟩ := List.append_of_mem happended
  have hnodup : (before ++ floor :: after).Nodup :=
    hsplit ▸ floors_apart.1.filter _
  have hmem (other : String × String) (hother : other ∈ before ++ floor :: after) :
      other ∈ floors := (List.mem_filter.mp (hsplit ▸ hother)).1
  refine ⟨prefix_of_isUnder hunder, before.map floorDirective,
    after.map floorDirective, by rw [hsplit, List.map_append, List.map_cons],
    ?_, ?_⟩
  · intro directive hdirective hmatch
    obtain ⟨other, hother, rfl⟩ := List.mem_map.mp hdirective
    exact length_le_of_isUnder hfloor hunder
      (hmem other (List.mem_append_left _ hother)) hmatch
  · intro directive hdirective hmatch
    obtain ⟨other, hother, rfl⟩ := List.mem_map.mp hdirective
    have hfloors := hmem other
      (List.mem_append_right _ (List.mem_cons_of_mem _ hother))
    have hle := length_le_of_isUnder hfloor hunder hfloors hmatch
    refine lt_of_le_of_ne hle fun heq => ?_
    have hbegins : other.1.toList <+: floor.1.toList :=
      List.prefix_of_prefix_length_le hmatch (prefix_of_isUnder hunder) hle
    have hsame := (floors_apart.2 other hfloors floor hfloor).1
      (hbegins.eq_of_length heq)
    have hnot := (List.nodup_cons.mp (List.nodup_append.mp hnodup).2.1).1
    exact hnot (hsame ▸ hother)

end Under

/-! ## Levels -/

theorem enabled_of_decides
    {directives : List Directive} {target : List Char} {directive : Directive}
    (hdecides : Decides directives target directive) :
    enabled directives target = directive.level := by
  have hnonempty : directives ≠ [] := List.ne_nil_of_mem hdecides.mem
  rw [enabled, if_neg hnonempty, winner_eq_some_iff.mpr hdecides]
  rfl

theorem exists_decides
    {directives : List Directive} {target : List Char} {directive : Directive}
    (hmem : directive ∈ directives) (hmatch : directive.Matches target) :
    ∃ found, Decides directives target found := by
  cases hwinner : winner directives target with
  | none => exact absurd hmatch (winner_spec.2 hwinner directive hmem)
  | some found => exact ⟨found, winner_eq_some_iff.mp hwinner⟩

/-- The filter gives a target under an appended floor the level of the floor,
unless something below the floor is named; then it is as if there were no
floor. -/
theorem enabled_envFilter
    {requested : String} {floor : String × String} {target : List Char}
    (hfloor : floor ∈ floors) (happended : floor ∈ appended requested floors)
    (hunder : IsUnder floor.1.toList target) :
    (NamesBelow requested floor.1.toList target →
      enabled (parse (envFilter requested).1.toList) target =
        enabled (parse requested.toList) target) ∧
      (¬ NamesBelow requested floor.1.toList target →
        enabled (parse (envFilter requested).1.toList) target =
          (floorDirective floor).level) := by
  rw [parse_envFilter]
  constructor
  · rintro ⟨directive, hmem, hmatch, hlonger⟩
    obtain ⟨found, hfound⟩ := exists_decides hmem hmatch
    have hlength := hfound.length_le hmem hmatch
    rw [enabled_of_decides hfound]
    apply enabled_of_decides
    apply hfound.append
    intro other hother hmatches
    obtain ⟨another, hanother, rfl⟩ := List.mem_map.mp hother
    have hle := length_le_of_isUnder hfloor hunder
      (List.mem_filter.mp hanother).1 hmatches
    exact hle.trans_lt (hlonger.trans_le hlength)
  · intro hnothing
    apply enabled_of_decides
    apply (decides_appended hfloor hunder happended).of_append
    intro other hother hmatches
    by_contra hlonger
    exact hnothing ⟨other, hother, hmatches, Nat.lt_of_not_le hlonger⟩

/-- For a target under a floor that is not reported as overridden, the filter
enables the smaller of the floor and the requested level exactly when what is
named below the floor asks for no more than the floor and, with nothing named
below it, no less than the floor is requested. -/
theorem floor_caps_iff
    (filter : Filter) {requested : String}
    (hlist : IsDirectiveList requested.toList) {floor : String × String}
    (hfloor : floor ∈ floors) (hsilent : floor.1 ∉ (envFilter requested).2)
    {target : List Char} (hunder : IsUnder floor.1.toList target) :
    filter.level (envFilter requested).1.toList target =
        min (floorDirective floor).level
          (filter.level requested.toList target) ↔
      (NamesBelow requested floor.1.toList target →
        filter.level requested.toList target ≤ (floorDirective floor).level) ∧
      (¬ NamesBelow requested floor.1.toList target →
        (floorDirective floor).level ≤
          filter.level requested.toList target) := by
  rw [filter.reads _ _ hlist, filter.reads _ _ (isDirectiveList_envFilter hlist)]
  obtain ⟨hbelow, hnothing⟩ :=
    enabled_envFilter hfloor (mem_appended hfloor hsilent) hunder
  by_cases hnames : NamesBelow requested floor.1.toList target
  · rw [hbelow hnames, eq_comm, min_eq_right_iff]
    exact ⟨fun hle => ⟨fun _ => hle, fun hnot => absurd hnames hnot⟩,
      fun hboth => hboth.1 hnames⟩
  · rw [hnothing hnames, eq_comm, min_eq_left_iff]
    exact ⟨fun hle => ⟨fun hnot => absurd hnot hnames, fun _ => hle⟩,
      fun hboth => hboth.2 hnames⟩

namespace Sample

def filter : Filter where
  level spec target := enabled (parse spec) target
  reads _ _ _ := rfl

theorem filter_level (spec target : List Char) :
    filter.level spec target = enabled (parse spec) target := rfl

theorem isDirectiveList_level
    {text : List Char} (hcomma : ',' ∉ text)
    (hstart : text.head?.any isPlainStart = true)
    (hinside : (text.all fun c =>
      !RustText.isWhitespace c && c != '=' && c != '[') = true)
    (hlevel : (Level.parse text).isSome = true) : IsDirectiveList text :=
  isDirectiveList_of_single hcomma (.bare (isPlain_of_all hstart hinside) hlevel)

theorem isDirectiveList_trace : IsDirectiveList "trace".toList :=
  isDirectiveList_level (by decide) (by decide) (by decide) (by decide +kernel)

theorem isDirectiveList_error : IsDirectiveList "error".toList :=
  isDirectiveList_level (by decide) (by decide) (by decide) (by decide +kernel)

theorem isDirectiveList_hyper : IsDirectiveList "hyper::proto=trace".toList := by
  have hsplit : "hyper::proto=trace".toList =
      "hyper::proto".toList ++ '=' :: "trace".toList := by decide
  apply isDirectiveList_of_single (by decide)
  rw [hsplit]
  exact .target (isPlain_of_all (by decide) (by decide)) ⟨by decide, by decide +kernel⟩

/-- A service of a capped dependency is held at the cap. -/
theorem trace_is_capped :
    filter.level (envFilter "trace").1.toList "rmcp::service".toList =
      min (floorDirective ("rmcp", "info")).level
        (filter.level "trace".toList "rmcp::service".toList) := by
  obtain ⟨hfloor, hunnamed, hbelow, hparse, hraised⟩ :
      ("rmcp", "info") ∈ floors ∧ floors.filter (isNamed "trace") = [] ∧
      "rmcp".toList ++ "::".toList <+: "rmcp::service".toList ∧
      parse "trace".toList = [⟨[], .trace⟩] ∧
      (floorDirective ("rmcp", "info")).level ≤
        enabled (parse "trace".toList) "rmcp::service".toList := by
    decide +kernel
  have hsilent : "rmcp" ∉ (envFilter "trace").2 := by
    simp [overridden_envFilter, hunnamed]
  refine (floor_caps_iff filter isDirectiveList_trace hfloor hsilent
    (Or.inr hbelow)).mpr ⟨?_, fun _ => hraised⟩
  rintro ⟨directive, hmem, -, hlonger⟩
  rw [hparse, List.mem_singleton] at hmem
  rw [hmem] at hlonger
  exact absurd hlonger (Nat.not_lt_zero _)

/-- A quieter request is raised to the floor, and a request for a part of a
capped dependency goes past it. -/
theorem floor_raises_and_is_passed :
    (IsDirectiveList "error".toList ∧ (envFilter "error").2 = [] ∧
      IsUnder "rmcp".toList "rmcp".toList ∧
      filter.level (envFilter "error").1.toList "rmcp".toList = .info ∧
      min (floorDirective ("rmcp", "info")).level
        (filter.level "error".toList "rmcp".toList) = .error) ∧
    (IsDirectiveList "hyper::proto=trace".toList ∧
      (envFilter "hyper::proto=trace").2 = [] ∧
      IsUnder "hyper".toList "hyper::proto".toList ∧
      filter.level (envFilter "hyper::proto=trace").1.toList
        "hyper::proto".toList = .trace ∧
      min (floorDirective ("hyper", "info")).level
        (filter.level "hyper::proto=trace".toList "hyper::proto".toList) =
        .info) := by
  obtain ⟨hunnamed, hraised⟩ : floors.filter (isNamed "error") = [] ∧
      enabled (parse "error".toList ++
        (appended "error" floors).map floorDirective) "rmcp".toList = .info ∧
      min (floorDirective ("rmcp", "info")).level
        (enabled (parse "error".toList) "rmcp".toList) = .error := by
    decide +kernel
  obtain ⟨hnone, hbelow, hpassed⟩ :
      floors.filter (isNamed "hyper::proto=trace") = [] ∧
      "hyper".toList ++ "::".toList <+: "hyper::proto".toList ∧
      enabled (parse "hyper::proto=trace".toList ++
        (appended "hyper::proto=trace" floors).map floorDirective)
        "hyper::proto".toList = .trace ∧
      min (floorDirective ("hyper", "info")).level
        (enabled (parse "hyper::proto=trace".toList) "hyper::proto".toList) =
        .info := by
    decide +kernel
  have hsilent (requested : String) (hnone : floors.filter (isNamed requested) = []) :
      (envFilter requested).2 = [] := by
    rw [overridden_envFilter, hnone, List.map_nil]
  simp only [filter_level, parse_envFilter]
  exact ⟨⟨isDirectiveList_error, hsilent _ hunnamed, Or.inl rfl, hraised⟩,
    isDirectiveList_hyper, hsilent _ hnone, Or.inr hbelow, hpassed⟩

end Sample

end Logging

end RuprogressMcp
