import CredentialWrites.Value.Basic

/-!
# Shapes of fields

What a payload expects in a field decides how the field is rendered. What has the expected shape is
rendered as such. Anything else, and what stands in a field without a shape, is rendered by its own
kind, on a level of its own, of which there is a limit.

* `FieldShape.fits` : a value has the shape.
-/

namespace CredentialWrites

/-- What is expected in a field. -/
inductive FieldShape where
  | any | flag | text | optionalText | texts
  /-- Anything with attributes, of which those of a permission are rendered. -/
  | permission
  | permissions
deriving Repr, DecidableEq

namespace FieldShape

/-- The shape of a field of a model. -/
def ofField (kind : ObjectKind) (field : String) : FieldShape :=
  match kind, field with
  | .permissionPayload, "actor" => optionalText
  | .permissionPayload, "operations" => texts
  | .requestPayload, "overwrite" => flag
  | .requestPayload, "name" => optionalText
  | .requestPayload, "type" => optionalText
  | .requestPayload, "additional_permissions" => permissions
  | _, _ => any

/-- The value is an object or a record, or another one that attributes can be looked up in. -/
def hasAttrs : Value → Bool
  | .member _ => true
  | .record _ _ => true
  | .fault _ _ _ _ => true
  | .object _ _ _ => true
  | _ => false

/-- The value is a list. -/
def isList : Value → Bool
  | .list _ _ => true
  | _ => false

/-- A value has the shape. -/
def fits (shape : FieldShape) (v : Value) : Bool :=
  match shape, v with
  | any, _ => false
  | flag, .bool _ => true
  | flag, _ => false
  | text, v => v.text?.isSome
  | optionalText, .null => true
  | optionalText, v => v.text?.isSome
  | texts, v => isList v
  | permission, v => hasAttrs v
  | permissions, v => isList v

/-- The shape of the items of a list, which are on the level of the list if the list has a shape. -/
def ofItems : FieldShape → FieldShape
  | texts => text
  | permissions => permission
  | _ => any

/-- The level of the parts of a value that is rendered on a level. -/
def partLevel (shape : FieldShape) (v : Value) (level : Nat) : Nat :=
  if shape.fits v then level else level + 1

end FieldShape

namespace Payload

/-- The number of levels that a rendered value may have. -/
def maxLevel : Nat := 255

end Payload

end CredentialWrites
