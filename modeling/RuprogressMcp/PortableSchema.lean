import RuprogressMcp.SchemaNarrowing

/-!
# The portable schema dialect

`to_portable` inlines the definitions of a tool's input schema, reduces each
nullable `type` to its other name, and collapses an untagged union of scalars
to a string.  The three rewrites walk over the whole JSON value, not only over
the places where a schema stands.

The inlining recurses into the definition it has put in place, so it takes
fuel; `none` says that the fuel has run out.
-/

namespace RuprogressMcp

namespace PortableSchema

open JsonSchema

/-! ## Inlining the definitions -/

def insertAll (siblings resolved : JsonObject) : JsonObject :=
  siblings.foldl (fun map field => map.insert field.1 field.2) resolved

/-- The keys beside a reference override those of the definition. -/
def withSiblings (siblings : JsonObject) : Json → Json
  | .obj resolved => .obj (insertAll siblings resolved)
  | resolved => resolved

def reference (map : JsonObject) : Option String :=
  (map.get "$ref").bind Json.asStr

def resolveField (resolve : Json → Option Json) (field : String × Json) :
    Option (String × Json) :=
  (resolve field.2).map fun value => (field.1, value)

/-- A reference that does not resolve is left as it is. -/
def resolveRefs (defs : JsonObject) : ℕ → Json → Option Json
  | 0, _ => none
  | fuel + 1, .obj map =>
      match reference map with
      | some text =>
          match definition defs text with
          | none => some (.obj map)
          | some target =>
              resolveRefs defs fuel
                (withSiblings (JsonObject.remove "$ref" map) target)
      | none =>
          (map.mapM (resolveField (resolveRefs defs fuel))).map Json.obj
  | fuel + 1, .arr items =>
      (items.mapM (resolveRefs defs fuel)).map Json.arr
  | _ + 1, value => some value

def inlineDefs (fuel : ℕ) (root : JsonObject) : Option Json :=
  match root.get "$defs" with
  | none => some (.obj root)
  | some (.obj defs) => resolveRefs defs fuel (.obj (root.remove "$defs"))
  | some defs => some (.obj ((root.remove "$defs").insert "$defs" defs))

/-! ## Nullable types -/

def isNull (name : Json) : Bool := name = .str "null"

mutual

/-- `{"type": [T, "null"]}` becomes `{"type": T}`. -/
def collapseNullableTypes : Json → Json
  | .obj map => .obj (collapseNullableFields map)
  | .arr items => .arr (collapseNullableItems items)
  | schema => schema

def collapseNullableFields : JsonObject → JsonObject
  | [] => []
  | (key, .arr [a, b]) :: rest =>
      (key,
        if key = "type" ∧ isNull a ≠ isNull b then
          if isNull a then collapseNullableTypes b else collapseNullableTypes a
        else .arr [collapseNullableTypes a, collapseNullableTypes b]) ::
        collapseNullableFields rest
  | (key, value) :: rest =>
      (key, collapseNullableTypes value) :: collapseNullableFields rest

def collapseNullableItems : List Json → List Json
  | [] => []
  | item :: rest =>
      collapseNullableTypes item :: collapseNullableItems rest

end

/-! ## Unions of scalars -/

def getField (value : Json) (key : String) : Option Json :=
  value.asObject.bind fun map => map.get key

def getText (value : Json) (key : String) : Option String :=
  (getField value key).bind Json.asStr

def isLeafScalar (branch : Json) : Bool :=
  match branch.asObject with
  | some map =>
      (match getText branch "type" with
        | some name =>
            decide (name ∈ ["integer", "number", "string", "boolean", "null"])
        | none => false) &&
      map.all fun field =>
        decide (field.1 ∈ ["type", "description", "minimum", "maximum", "enum"])
  | none => false

def shouldCollapse (map : JsonObject) : Bool :=
  !map.containsKey "type" &&
    match (map.get "anyOf").bind Json.asArray with
    | some branches =>
        !branches.isEmpty && branches.all isLeafScalar &&
          branches.any fun branch => getText branch "type" ≠ some "null"
    | none => false

/-- The values of the first branch that has an `enum`. -/
def keptEnum (branches : List Json) : Option Json :=
  branches.findSome? fun branch => getField branch "enum"

def joinedDescription (branches : List Json) : String :=
  " — ".intercalate
    (branches.filterMap fun branch => getText branch "description")

def collapseBranches (branches : List Json) (map : JsonObject) : JsonObject :=
  let described :=
    if map.containsKey "description" then map
    else if (joinedDescription branches).isEmpty then map
    else map.insert "description" (.str (joinedDescription branches))
  let enumerated :=
    match keptEnum branches with
    | some values => described.insert "enum" values
    | none => described
  enumerated.insert "type" (.str "string")

def collapseUnion (map : JsonObject) : JsonObject :=
  if shouldCollapse map then
    match map.get "anyOf" with
    | some (.arr branches) => collapseBranches branches (map.remove "anyOf")
    | _ => map
  else map

mutual

/-- The values inside an object are collapsed before the object. -/
def collapseScalarAnyOf : Json → Json
  | .obj map => .obj (collapseUnion (collapseScalarFields map))
  | .arr items => .arr (collapseScalarItems items)
  | value => value

def collapseScalarFields : JsonObject → JsonObject
  | [] => []
  | (key, value) :: rest =>
      (key, collapseScalarAnyOf value) :: collapseScalarFields rest

def collapseScalarItems : List Json → List Json
  | [] => []
  | item :: rest => collapseScalarAnyOf item :: collapseScalarItems rest

end

def toPortable (fuel : ℕ) (schema : JsonObject) : Option JsonObject :=
  (inlineDefs fuel schema).bind fun inlined =>
    (collapseScalarAnyOf (collapseNullableTypes inlined)).asObject

end PortableSchema

end RuprogressMcp
