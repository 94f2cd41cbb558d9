import DeviceCatalog.CSource.Expr
import DeviceCatalog.DeviceType
import DeviceCatalog.Failure
import DeviceCatalog.FieldType
import DeviceCatalog.Logged

/-!
# Poll layouts

The bytes of a poll response, field after field in the order of the schema. An attribute without a name or with an unknown type
code takes no room and is reported. The fields must fill exactly the size that the catalog declares.
-/

namespace DeviceCatalog

/-- A field with its place in the response. -/
structure PlacedField where
  attr : Attribute
  type : FieldType
  offset : Nat

/-- An attribute that has no place in the response. -/
structure SkippedField where
  deviceKey : String
  name : String
  typeCode : String

/-- The fields of a response, the attributes left out, and the bytes that the fields take. -/
structure PollLayout where
  fields : List PlacedField
  skipped : List SkippedField
  size : Nat

namespace PlacedField

/-- The name that the catalog gives the field. -/
def name (f : PlacedField) : String := f.attr.name

/-- The byte position behind the field. -/
def limit (f : PlacedField) : Nat := f.offset + f.type.width

end PlacedField

/-- The C type in which a field is stored. -/
def FieldType.cType : FieldType → CSource.CType
  | .int8 => .int8
  | .uint8 => .uint8
  | .int16 _ => .int16
  | .uint16 _ => .uint16
  | .int32 _ => .int32
  | .uint32 _ => .uint32
  | .float32 _ => .float

/-- The C type of the decoded value: as stored unless it is scaled or wanted as a float. -/
def PlacedField.valueType (f : PlacedField) : CSource.CType :=
  match f.attr.outputKind with
  | .float => .float
  | .int => if f.attr.isScaled then .int32 else f.type.cType

/-- The notice that reports an attribute left out. -/
def SkippedField.notice (s : SkippedField) : Notice :=
  .fieldSkipped s.deviceKey s.name s.typeCode

/-- The words that report an attribute left out. -/
def SkippedField.message (s : SkippedField) : String :=
  s.notice.message

/-- The type of an attribute that has a place: one with a name and a known type code. -/
def Attribute.placedType? (a : Attribute) : Option FieldType :=
  if a.name.isEmpty then none else FieldType.ofCode? a.typeCode

namespace PollLayout

/-- The layout of a schema from a byte position on. -/
def place (deviceKey : String) (start : Nat) : List Attribute → PollLayout
  | [] => ⟨[], [], start⟩
  | a :: rest =>
    match a.placedType? with
    | some t =>
      let l := place deviceKey (start + t.width) rest
      { l with fields := ⟨a, t, start⟩ :: l.fields }
    | none =>
      let l := place deviceKey start rest
      { l with skipped := ⟨deviceKey, a.name, a.typeCode⟩ :: l.skipped }

/-- The layout of a device's response, which must have the declared size. -/
def compute (d : DeviceType) : Logged Failure PollLayout := do
  let l := place d.key 0 d.responseSchema
  Logged.notes (l.skipped.map SkippedField.notice)
  if l.size = d.declaredBytes then pure l else .fail (.sizeMismatch d.key d.declaredBytes l.size)

end PollLayout

end DeviceCatalog
