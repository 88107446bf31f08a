import RuprogressMcp.AttachmentStore
import RuprogressMcp.UnixPath

/-!
# Names that stay in their UUID directory

A file name of Redmine is reduced to its last path component, freed of control
characters, trimmed and cut.  The first step takes away dots that name a
directory, but the later ones can bring them back, and the cut counts
characters where a file system counts bytes.
-/

namespace RuprogressMcp

namespace Attachments

/-- What the store relies on for the name of an entry. -/
structure StaysInside (name : String) : Prop where
  nonempty : name ≠ ""
  no_separator : '/' ∉ name.toList
  no_control : ∀ c ∈ name.toList, RustText.isControl c = false
  not_dot : name ≠ "."
  not_dotdot : name ≠ ".."
  short : name.utf8ByteSize ≤ maxBasenameLen
  child : ∀ entryDir : List Char,
    UnixPath.components (UnixPath.join entryDir name.toList) =
      UnixPath.components entryDir ++ [.normal name.toList]
  fileName : ∀ entryDir : List Char,
    UnixPath.fileName (UnixPath.join entryDir name.toList) = some name.toList
  parent : ∀ entryDir : List Char,
    UnixPath.parent (UnixPath.join entryDir name.toList) =
      some (UnixPath.components entryDir)

/-- What is left of the last component of a file name, once its control
characters and then the white space around it are gone. -/
def Shows (redmineFilename : String) (shown : List Char) : Prop :=
  ∃ part, (normalComponents redmineFilename).getLast? = some part ∧
    RustText.Trims (part.filter fun c => !RustText.isControl c) shown

/-- Nothing is shown that names a directory, and no more than the longest
basename in bytes is shown by as many characters. -/
def KeepsToName (redmineFilename : String) : Prop :=
  ∀ shown, Shows redmineFilename shown →
    shown ≠ ['.'] ∧ shown ≠ ['.', '.'] ∧
      ∀ start, start <+: shown → start.length ≤ maxBasenameLen →
        RustText.byteLen start ≤ maxBasenameLen

/-! ## The components of a path -/

theorem filterMap_name_component (pieces : List (List Char)) :
    (pieces.filterMap UnixPath.component).filterMap UnixPath.Component.name =
      pieces.filter fun part => part ∉ [[], ['.'], ['.', '.']] := by
  induction pieces with
  | nil => rfl
  | cons piece rest ih =>
      by_cases hempty : piece = [] ∨ piece = ['.']
      · -- neither names an entry, so both lists skip the piece
        have hnone : UnixPath.component piece = none := if_pos hempty
        rw [List.filterMap_cons_none hnone, ih]
        rcases hempty with rfl | rfl <;> rfl
      · by_cases hdots : piece = ['.', '.']
        · have hparent : UnixPath.component piece = some .parentDir := by
            rw [UnixPath.component, if_neg hempty, if_pos hdots]
          rw [List.filterMap_cons_some hparent, List.filterMap_cons_none rfl, ih,
            List.filter_cons_of_neg (by simp [hdots])]
        · have hnormal : UnixPath.component piece = some (.normal piece) := by
            rw [UnixPath.component, if_neg hempty, if_neg hdots]
          have hkept : piece ∉ [[], ['.'], ['.', '.']] := by
            simpa [hdots] using hempty
          have hname : (UnixPath.Component.normal piece).name = some piece := rfl
          rw [List.filterMap_cons_some hnormal, List.filterMap_cons_some hname, ih,
            List.filter_cons_of_pos (by simpa using hkept)]

/-- The root and a dot in front of a path name nothing. -/
theorem normalComponents_eq (name : String) :
    normalComponents name =
      (UnixPath.components name.toList).filterMap UnixPath.Component.name := by
  rw [UnixPath.components, List.filterMap_append, filterMap_name_component,
    UnixPath.leading]
  split_ifs <;> rfl

theorem not_mem_of_mem_normalComponents {name : String} {part : List Char}
    (hmem : part ∈ normalComponents name) : '/' ∉ part :=
  RustText.not_mem_of_mem_splitOn (List.mem_filter.mp hmem).1

/-! ## Paths of the store -/

/-- The path of an entry, below the directory of the store. -/
def EntryPath.text (storeDir : List Char) (path : EntryPath) : List Char :=
  UnixPath.join (UnixPath.join storeDir path.uuid.toList) path.name.toList

def Target.text (storeDir : List Char) : Target → List Char
  | .uuidDir uuid => UnixPath.join storeDir uuid.toList
  | .storeDir => storeDir

section EntryPaths

variable {path : EntryPath} (storeDir : List Char)
  (huuid : UnixPath.IsName path.uuid.toList)
  (hname : path.name ≠ "") (hseparator : '/' ∉ path.name.toList)

include huuid hname hseparator

theorem EntryPath.components_text :
    UnixPath.components (path.text storeDir) =
      UnixPath.components storeDir ++ [.normal path.uuid.toList] ++
        if path.name = "." then []
        else if path.name = ".." then [.parentDir]
        else [.normal path.name.toList] := by
  have hdir : UnixPath.join storeDir path.uuid.toList ≠ [] :=
    UnixPath.join_ne_nil storeDir huuid.nonempty
  rw [EntryPath.text, UnixPath.components_join_piece hdir hseparator,
    UnixPath.components_join storeDir huuid]
  congr 1
  split_ifs with hdot hdotdot
  · rw [hdot]
    rfl
  · rw [hdotdot]
    rfl
  · have hpath : UnixPath.IsName path.name.toList := by
      refine ⟨?_, hseparator, ?_, ?_⟩
      · exact fun heq => hname (String.toList_injective heq)
      · exact fun heq => hdot (String.toList_injective heq)
      · exact fun heq => hdotdot (String.toList_injective heq)
    rw [hpath.component]
    rfl

/-- The file name of a path of the store is the one that the index records. -/
theorem EntryPath.fileName_text :
    UnixPath.fileName (path.text storeDir) = path.fileName.map String.toList := by
  rw [UnixPath.fileName, components_text storeDir huuid hname hseparator,
    EntryPath.fileName]
  split_ifs
  · rw [List.append_nil, List.getLast?_concat]
    rfl
  · rw [List.getLast?_concat]
    rfl
  · rw [List.getLast?_concat]
    rfl

/-- The parent of a path of the store is the directory that `abort` removes. -/
theorem EntryPath.parent_text :
    UnixPath.parent (path.text storeDir) =
      some (UnixPath.components (path.parent.text storeDir)) := by
  rw [UnixPath.parent, components_text storeDir huuid hname hseparator,
    EntryPath.parent]
  split_ifs
  · rw [List.append_nil, List.getLast?_concat, List.dropLast_concat]
    rfl
  · rw [List.getLast?_concat, List.dropLast_concat, Target.text,
      UnixPath.components_join storeDir huuid]
  · rw [List.getLast?_concat, List.dropLast_concat, Target.text,
      UnixPath.components_join storeDir huuid]

end EntryPaths

/-! ## What is kept of a name -/

/-- The characters that are written, before an empty name is replaced. -/
def keptChars (redmineFilename : String) : List Char :=
  (RustText.trim (((normalComponents redmineFilename).getLast?.getD []).filter
    fun c => !RustText.isControl c)).take maxBasenameLen

theorem sanitizeBasename_eq (name : String) :
    sanitizeBasename name =
      if keptChars name = [] then "attachment"
      else String.ofList (keptChars name) := by
  change (if (keptChars name).isEmpty then _ else _) = _
  by_cases hkept : keptChars name = []
  · rw [if_pos (List.isEmpty_iff.mpr hkept), if_pos hkept]
  · rw [if_neg (mt List.isEmpty_iff.mp hkept), if_neg hkept]
    rfl

theorem mem_keptChars {name : String} {c : Char} (hmem : c ∈ keptChars name) :
    c ≠ '/' ∧ RustText.isControl c = false := by
  have htrimmed := List.mem_of_mem_take hmem
  obtain ⟨before, after, htext, -⟩ := RustText.trims_trim
    (((normalComponents name).getLast?.getD []).filter
      fun c => !RustText.isControl c)
  have hfilter : c ∈ ((normalComponents name).getLast?.getD []).filter
      fun c => !RustText.isControl c := by
    rw [htext]
    exact List.mem_append_left _ (List.mem_append_right _ htrimmed)
  obtain ⟨hpart, hcontrol⟩ := List.mem_filter.mp hfilter
  refine ⟨?_, by simpa using hcontrol⟩
  rintro rfl
  cases hlast : (normalComponents name).getLast? with
  | none => simp [hlast] at hpart
  | some part =>
      rw [hlast, Option.getD_some] at hpart
      exact not_mem_of_mem_normalComponents (List.mem_of_getLast? hlast) hpart

/-- Something is shown exactly when a component names an entry. -/
theorem keptChars_of_shows {name : String} {shown : List Char}
    (hshows : Shows name shown) : keptChars name = shown.take maxBasenameLen := by
  obtain ⟨part, hpart, htrims⟩ := hshows
  rw [keptChars, hpart, Option.getD_some, htrims.eq_trim]

theorem exists_shows {name : String} (hkept : keptChars name ≠ []) :
    ∃ shown, Shows name shown := by
  cases hlast : (normalComponents name).getLast? with
  | none =>
      refine absurd ?_ hkept
      rw [keptChars, hlast]
      rfl
  | some part => exact ⟨_, part, hlast, RustText.trims_trim _⟩

theorem take_eq_dots {shown dots : List Char} (hdots : dots.length < maxBasenameLen) :
    shown.take maxBasenameLen = dots ↔ shown = dots := by
  constructor
  · intro htake
    have hlength : (shown.take maxBasenameLen).length = dots.length :=
      congrArg List.length htake
    rw [List.length_take] at hlength
    rwa [List.take_of_length_le (by omega)] at htake
  · rintro rfl
    exact List.take_of_length_le hdots.le

theorem byteLen_take_le_iff {shown : List Char} :
    RustText.byteLen (shown.take maxBasenameLen) ≤ maxBasenameLen ↔
      ∀ start, start <+: shown → start.length ≤ maxBasenameLen →
        RustText.byteLen start ≤ maxBasenameLen := by
  constructor
  · intro hbytes start hstart hlength
    obtain ⟨rest, hrest⟩ : start <+: shown.take maxBasenameLen :=
      List.prefix_take_iff.mpr ⟨hstart, hlength⟩
    rw [← hrest, RustText.byteLen_append] at hbytes
    omega
  · intro hall
    exact hall _ (List.take_prefix _ _) (List.length_take_le _ _)

/-! ## The names that are safe -/

theorem StaysInside.of_chars
    {chars : List Char} (hnonempty : chars ≠ [])
    (hchars : ∀ c ∈ chars, c ≠ '/' ∧ RustText.isControl c = false)
    (hdot : chars ≠ ['.']) (hdotdot : chars ≠ ['.', '.'])
    (hshort : RustText.byteLen chars ≤ maxBasenameLen) :
    StaysInside (String.ofList chars) := by
  have hlist : (String.ofList chars).toList = chars := String.toList_ofList
  have hname : UnixPath.IsName (String.ofList chars).toList := by
    rw [hlist]
    exact ⟨hnonempty, fun hmem => (hchars _ hmem).1 rfl, hdot, hdotdot⟩
  constructor
  · intro heq
    exact hname.nonempty (congrArg String.toList heq)
  · exact hname.no_separator
  · rw [hlist]
    exact fun c hc => (hchars c hc).2
  · intro heq
    exact hname.not_dot (congrArg String.toList heq)
  · intro heq
    exact hname.not_dotdot (congrArg String.toList heq)
  · rwa [RustText.utf8ByteSize_eq_byteLen, hlist]
  · exact fun entryDir => UnixPath.components_join entryDir hname
  · exact fun entryDir => UnixPath.fileName_join entryDir hname
  · exact fun entryDir => UnixPath.parent_join entryDir hname

theorem staysInside_attachment : StaysInside "attachment" := by
  have hall : ("attachment".toList.all fun c =>
      decide (c ≠ '/' ∧ RustText.isControl c = false)) = true := by decide
  apply @StaysInside.of_chars "attachment".toList
  · decide
  · exact fun c hc => of_decide_eq_true (List.all_eq_true.mp hall c hc)
  · decide
  · decide
  · decide

/-- A sanitized name stays in its directory exactly when what the name shows
is neither a lone nor a double dot and is short in bytes as well. -/
theorem sanitizeBasename_staysInside_iff (redmineFilename : String) :
    StaysInside (sanitizeBasename redmineFilename) ↔
      KeepsToName redmineFilename := by
  rw [sanitizeBasename_eq]
  by_cases hkept : keptChars redmineFilename = []
  · rw [if_pos hkept]
    refine iff_of_true staysInside_attachment ?_
    intro shown hshows
    rw [keptChars_of_shows hshows] at hkept
    have hshown : shown = [] := (take_eq_dots (by decide)).mp hkept
    subst hshown
    refine ⟨by decide, by decide, ?_⟩
    intro start hstart _
    rw [List.prefix_nil.mp hstart]
    decide
  · rw [if_neg hkept]
    constructor
    · intro hstays shown hshows
      have hchars := keptChars_of_shows hshows
      have hlist : (String.ofList (keptChars redmineFilename)).toList =
          shown.take maxBasenameLen := String.toList_ofList.trans hchars
      refine ⟨?_, ?_, byteLen_take_le_iff.mp ?_⟩
      · intro hdot
        apply hstays.not_dot
        rw [hchars, (take_eq_dots (by decide)).mpr hdot]
      · intro hdotdot
        apply hstays.not_dotdot
        rw [hchars, (take_eq_dots (by decide)).mpr hdotdot]
      · rw [← hlist, ← RustText.utf8ByteSize_eq_byteLen]
        exact hstays.short
    · intro hkeeps
      obtain ⟨shown, hshows⟩ := exists_shows hkept
      obtain ⟨hdot, hdotdot, hbytes⟩ := hkeeps shown hshows
      have hchars := keptChars_of_shows hshows
      apply StaysInside.of_chars hkept (fun c hc => mem_keptChars hc)
      · rw [hchars]
        exact fun heq => hdot ((take_eq_dots (by decide)).mp heq)
      · rw [hchars]
        exact fun heq => hdotdot ((take_eq_dots (by decide)).mp heq)
      · rw [hchars]
        exact byteLen_take_le_iff.mpr hbytes

/-- A control character after two dots hides them from the first step only,
and a name of two-byte letters is cut too late. -/
theorem Sample.dots_come_back :
    sanitizeBasename "..\x01" = ".." ∧
      (sanitizeBasename (String.ofList (List.replicate 101 'é'))).utf8ByteSize =
        202 ∧
      ¬ StaysInside (sanitizeBasename "..\x01") ∧
      ¬ StaysInside (sanitizeBasename (String.ofList (List.replicate 101 'é'))) := by
  have hdots : sanitizeBasename "..\x01" = ".." := by decide +kernel
  have hkept : keptChars (String.ofList (List.replicate 101 'é')) =
      List.replicate 101 'é' := by
    rw [keptChars, normalComponents, String.toList_ofList]
    decide +kernel
  have hlong : (sanitizeBasename
      (String.ofList (List.replicate 101 'é'))).utf8ByteSize = 202 := by
    rw [sanitizeBasename_eq, hkept, if_neg (by simp),
      RustText.utf8ByteSize_eq_byteLen, String.toList_ofList]
    decide +kernel
  refine ⟨hdots, hlong, ?_, ?_⟩
  · intro hstays
    exact hstays.not_dotdot hdots
  · intro hstays
    have hshort := hstays.short
    rw [hlong] at hshort
    exact absurd hshort (by decide)

end Attachments

end RuprogressMcp
