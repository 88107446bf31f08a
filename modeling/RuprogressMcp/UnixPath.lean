import RuprogressMcp.RustText

/-!
# Unix paths

A path is read as its components: empty pieces between separators are
skipped, and so is a lone dot unless it begins a relative path.  The last
component gives the name of the file and, when it is dropped, the parent.
-/

namespace UnixPath

inductive Component where
  | rootDir
  | curDir
  | parentDir
  | normal (name : List Char)
deriving DecidableEq

/-- The name of an entry of a directory. -/
def Component.name : Component → Option (List Char)
  | .normal name => some name
  | _ => none

def isAbsolute (path : List Char) : Bool := path.head? = some '/'

/-- The component that a piece between separators stands for. -/
def component (piece : List Char) : Option Component :=
  if piece = [] ∨ piece = ['.'] then none
  else if piece = ['.', '.'] then some .parentDir
  else some (.normal piece)

/-- The component in front of all pieces. -/
def leading (path : List Char) : Option Component :=
  if isAbsolute path then some .rootDir
  else if (path.splitOn '/').head? = some ['.'] then some .curDir
  else none

def components (path : List Char) : List Component :=
  (leading path).toList ++ (path.splitOn '/').filterMap component

/-- An absolute name replaces the path it is joined to. -/
def join (path name : List Char) : List Char :=
  if isAbsolute name then name
  else if path = [] ∨ path.getLast? = some '/' then path ++ name
  else path ++ '/' :: name

def fileName (path : List Char) : Option (List Char) :=
  (components path).getLast?.bind Component.name

/-- The components of the parent. -/
def parent (path : List Char) : Option (List Component) :=
  match (components path).getLast? with
  | none | some .rootDir => none
  | some _ => some (components path).dropLast

def startsWith (path base : List Char) : Bool :=
  (components base).isPrefixOf (components path)

/-! ## Joining one name -/

/-- The name is one normal component. -/
structure IsName (name : List Char) : Prop where
  nonempty : name ≠ []
  no_separator : '/' ∉ name
  not_dot : name ≠ ['.']
  not_dotdot : name ≠ ['.', '.']

theorem IsName.component {name : List Char} (hname : IsName name) :
    component name = some (.normal name) := by
  rw [UnixPath.component, if_neg (not_or.mpr ⟨hname.nonempty, hname.not_dot⟩),
    if_neg hname.not_dotdot]

theorem not_absolute_of_not_mem {name : List Char} (habsent : '/' ∉ name) :
    isAbsolute name = false := by
  rw [isAbsolute, decide_eq_false_iff_not]
  exact fun hhead => habsent (List.mem_of_mem_head? hhead)

theorem head?_splitOn_append (first : List Char) (rest : List Char) :
    ((first ++ '/' :: rest).splitOn '/').head? = (first.splitOn '/').head? := by
  rw [RustText.splitOn_append_cons, List.head?_append_of_ne_nil]
  exact List.splitOnP_ne_nil _ _

theorem isAbsolute_append (first rest : List Char) :
    isAbsolute (first ++ '/' :: rest) = (isAbsolute first || first.isEmpty) := by
  cases first with
  | nil => simp [isAbsolute]
  | cons c first => simp [isAbsolute]

theorem components_append (first : List Char) {piece : List Char}
    (habsent : '/' ∉ piece) :
    components (first ++ '/' :: piece) =
      components (first ++ ['/']) ++ (component piece).toList := by
  have hleading : leading (first ++ '/' :: piece) = leading (first ++ ['/']) := by
    simp only [leading, head?_splitOn_append, isAbsolute_append]
  have hempty : component [] = none := rfl
  have hpiece : [piece].filterMap component = (component piece).toList := by
    cases hcomponent : component piece with
    | none => rw [List.filterMap_cons_none hcomponent]; rfl
    | some part => rw [List.filterMap_cons_some hcomponent]; rfl
  rw [components, components, hleading, RustText.splitOn_append_cons,
    RustText.splitOn_append_cons, RustText.splitOn_of_not_mem habsent,
    List.splitOn_nil, List.filterMap_append, List.filterMap_append, hpiece,
    List.filterMap_cons_none hempty]
  simp

theorem components_append_separator {path : List Char} (hpath : path ≠ []) :
    components (path ++ ['/']) = components path := by
  have hempty : component [] = none := rfl
  have habsolute : isAbsolute (path ++ ['/']) = isAbsolute path := by
    rw [isAbsolute_append, List.isEmpty_eq_false_iff.mpr hpath, Bool.or_false]
  have hleading : leading (path ++ ['/']) = leading path := by
    simp only [leading, head?_splitOn_append, habsolute]
  rw [components, components, hleading, RustText.splitOn_append_cons,
    List.splitOn_nil, List.filterMap_append, List.filterMap_cons_none hempty]
  simp

/-- A piece is added behind a path that is not empty. -/
theorem components_join_piece {path piece : List Char} (hpath : path ≠ [])
    (habsent : '/' ∉ piece) :
    components (join path piece) =
      components path ++ (component piece).toList := by
  rw [join, not_absolute_of_not_mem habsent, if_neg Bool.false_ne_true]
  by_cases hlast : path.getLast? = some '/'
  · rw [if_pos (Or.inr hlast)]
    obtain ⟨first, rfl⟩ := List.getLast?_eq_some_iff.mp hlast
    rw [List.append_assoc, List.singleton_append, components_append first habsent]
  · rw [if_neg (not_or.mpr ⟨hpath, hlast⟩), components_append path habsent,
      components_append_separator hpath]

theorem components_name {name : List Char} (hname : IsName name) :
    components name = [.normal name] := by
  rw [components, leading, not_absolute_of_not_mem hname.no_separator,
    RustText.splitOn_of_not_mem hname.no_separator, List.head?_cons,
    if_neg Bool.false_ne_true,
    if_neg (fun hhead => hname.not_dot (Option.some.inj hhead)),
    List.filterMap_cons_some hname.component]
  rfl

theorem join_ne_nil (path : List Char) {name : List Char} (hname : name ≠ []) :
    join path name ≠ [] := by
  unfold join
  split_ifs <;> simp [hname]

/-- A name is added as the last component. -/
theorem components_join (path : List Char) {name : List Char}
    (hname : IsName name) :
    components (join path name) = components path ++ [.normal name] := by
  by_cases hempty : path = []
  · rw [join, not_absolute_of_not_mem hname.no_separator,
      if_neg Bool.false_ne_true, if_pos (Or.inl hempty), hempty, List.nil_append,
      components_name hname]
    rfl
  · rw [components_join_piece hempty hname.no_separator, hname.component]
    rfl

theorem fileName_join (path : List Char) {name : List Char}
    (hname : IsName name) : fileName (join path name) = some name := by
  rw [fileName, components_join path hname, List.getLast?_concat]
  rfl

theorem parent_join (path : List Char) {name : List Char}
    (hname : IsName name) : parent (join path name) = some (components path) := by
  rw [parent, components_join path hname, List.getLast?_concat,
    List.dropLast_concat]

end UnixPath
