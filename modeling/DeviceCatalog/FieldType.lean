/-!
# Field types

The storage types of poll response fields. A type code is a letter, and every type wider than a byte has its byte order written
before the letter.
-/

namespace DeviceCatalog

/-- The order of the bytes of a field. -/
inductive ByteOrder where
  | big
  | little
deriving DecidableEq

/-- How a field is stored. -/
inductive FieldType where
  | int8
  | uint8
  | int16 (order : ByteOrder)
  | uint16 (order : ByteOrder)
  | int32 (order : ByteOrder)
  | uint32 (order : ByteOrder)
  | float32 (order : ByteOrder)
deriving DecidableEq

namespace FieldType

/-- The type of a letter that needs a byte order. -/
def ofLetter? (order : ByteOrder) : Char → Option FieldType
  | 'h' => some (.int16 order)
  | 'H' => some (.uint16 order)
  | 'i' | 'l' => some (.int32 order)
  | 'I' | 'L' => some (.uint32 order)
  | 'f' => some (.float32 order)
  | _ => none

/-- The type that a code stands for. -/
def ofCode? (code : String) : Option FieldType :=
  match code.toList with
  | ['b'] => some .int8
  | ['B'] => some .uint8
  | ['<', c] => ofLetter? .little c
  | ['>', c] => ofLetter? .big c
  | _ => none

/-- The byte order of a type wider than a byte. -/
def order? : FieldType → Option ByteOrder
  | .int8 | .uint8 => none
  | .int16 o | .uint16 o | .int32 o | .uint32 o | .float32 o => some o

/-- The width in bytes. -/
def width : FieldType → Nat
  | .int8 | .uint8 => 1
  | .int16 _ | .uint16 _ => 2
  | .int32 _ | .uint32 _ | .float32 _ => 4

/-- The type holds a whole number. -/
def isInteger : FieldType → Bool
  | .float32 _ => false
  | _ => true

/-- The word for the type with its byte order, by which its extraction helper is named. -/
def extractor : FieldType → String
  | .int8 => "int8"
  | .uint8 => "uint8"
  | .int16 .big => "be_int16"
  | .int16 .little => "le_int16"
  | .uint16 .big => "be_uint16"
  | .uint16 .little => "le_uint16"
  | .int32 .big => "be_int32"
  | .int32 .little => "le_int32"
  | .uint32 .big => "be_uint32"
  | .uint32 .little => "le_uint32"
  | .float32 .big => "be_float32"
  | .float32 .little => "le_float32"

/-- Every type, in the order in which helpers are emitted. -/
def all : List FieldType :=
  [ .int8, .uint8, .int16 .little, .uint16 .little, .int16 .big, .uint16 .big, .int32 .little, .uint32 .little,
    .int32 .big, .uint32 .big, .float32 .little, .float32 .big ]

end FieldType

end DeviceCatalog
