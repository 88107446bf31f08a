import RuprogressMcp.JsonValue

/-!
# Derived JSON encoders

A derived encoder writes the fields of a record in order, each under its key,
and leaves out a field when its skip rule says so.  A field may refuse to be
written; the record is then not written either, unless the field is skipped.
-/

namespace Encode

structure Field where
  key : String
  skip : Bool
  value : Except String Json

variable {α : Type}

/-- An optional field that is skipped when it is absent. -/
def Field.option (key : String) (encode : α → Json) (value : Option α) :
    Field where
  key := key
  skip := value.isNone
  value := .ok ((value.map encode).getD .null)

/-- A list that is skipped when it is empty. -/
def Field.vec (key : String) (encode : α → Json) (values : List α) :
    Field where
  key := key
  skip := values.isEmpty
  value := .ok (.arr (values.map encode))

/-- What the field contributes to the object. -/
def Field.sent (field : Field) : Option Json :=
  if field.skip then none else field.value.toOption

def record : List Field → Except String JsonObject
  | [] => .ok []
  | field :: rest =>
      if field.skip then record rest
      else do
        let value ← field.value
        let object ← record rest
        return (field.key, value) :: object

@[simp] theorem sent_option
    (key : String) (encode : α → Json) (value : Option α) :
    (Field.option key encode value).sent = value.map encode := by
  cases value <;> rfl

@[simp] theorem sent_vec
    (key : String) (encode : α → Json) (values : List α) :
    (Field.vec key encode values).sent =
      if values = [] then none else some (.arr (values.map encode)) := by
  cases values <;> rfl

end Encode
