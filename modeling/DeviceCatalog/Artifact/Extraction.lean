import DeviceCatalog.CSource.Item
import DeviceCatalog.PollLayout

/-!
# Extraction helpers

The functions that read one field out of a buffer, one for every storage type. A helper puts the bytes of its field together, each
shifted to its place in the byte order, and converts the result to the storage type; the helper of a float reads the bits as an
unsigned integer of the same order first. Both decoders have their own set, told apart by what their names start with.
-/

namespace DeviceCatalog.Artifact

open CSource

/-- The parameter through which a helper or a decoder sees its bytes. -/
def bufferParam : Param := ⟨.pointer (.const .uint8), "pBuf"⟩

/-- The expression for the byte that lies some places behind the base; without a base the place is counted from zero. -/
def byteAt (base : Option String) (i : Nat) : Expr :=
  .index (.var "pBuf")
    (match base, i with
    | none, i => .decimal i
    | some b, 0 => .var b
    | some b, i => .binary .add (.var b) (.decimal i))

/-- A byte moved left by a number of bits. -/
def shiftedByte (byte : Expr) (bits : Nat) : Expr :=
  if bits = 0 then byte else .group (.binary .shiftLeft (.cast .uint32 byte) (.decimal bits))

/-- The bits by which a byte of a field is moved: the last byte of a big-endian field and the first one of a little-endian field
stay where they are. -/
def byteShift (width : Nat) (order : ByteOrder) (i : Nat) : Nat :=
  match order with
  | .little => 8 * i
  | .big => 8 * (width - 1 - i)

/-- The integer that the bytes from the base on make, as one expression. -/
def composeBytes (width : Nat) (base : Option String) (order : ByteOrder) : Expr :=
  match (List.range width).map fun i => shiftedByte (byteAt base i) (byteShift width order i) with
  | [] => .decimal 0
  | t :: ts => ts.foldl (Expr.binary .bitOr) t

/-- The unsigned type that holds the bits of a type of four bytes. -/
def bitsType (order : ByteOrder) : FieldType := .uint32 order

/-- The type through which a float helper sees the same bytes as bits and as a float. -/
def converterType : CType := .named "union \x7b uint32_t u; float f; \x7d"

/-- The body of a helper. -/
def helperBody (start : String) (t : FieldType) : List Block :=
  match t with
  | .float32 order =>
    [ .simple (.declare converterType "converter"),
      .simple (.assign (.member (.var "converter") "u")
        (.call (start ++ (bitsType order).extractor) [.var "pBuf", .var "offset"])),
      .simple (.ret (.member (.var "converter") "f")) ]
  | t =>
    let order := t.order?.getD .little
    [.simple (.ret (.cast t.cType (.group (composeBytes t.width (some "offset") order))))]

/-- The helper of a storage type. -/
def helper (start : String) (t : FieldType) : Item :=
  .function .ownLine
    { qualifiers := ["static", "inline"], result := t.cType, name := start ++ t.extractor,
      params := [[bufferParam, ⟨.uint32, "offset"⟩]] }
    (helperBody start t)

/-- All helpers, a blank line behind each. -/
def helpers (start : String) : List Item :=
  FieldType.all.flatMap fun t => [helper start t, .blank]

end DeviceCatalog.Artifact
