import DeviceCatalog.CSource.Item
import DeviceCatalog.Model
import DeviceCatalog.Options

/-!
# The poll records header

The constants of the timestamp formats and, with decoding, one structure for every record: its timestamp and its fields.
-/

namespace DeviceCatalog.Artifact

open CSource

/-- The comment that every file with a header comment has. -/
def generatedNote : Item := .comment "Generated from device type catalogs, do not edit"

/-- The structure of a record. -/
def structName (r : Record) : String := "poll_" ++ r.identifier

/-- The member that holds a field. -/
def memberName (f : PlacedField) : String := CSource.name f.name

/-- The members of a record's structure: the timestamp, then the fields. -/
def structMembers (o : Options) (r : Record) : List (CType × String) :=
  (CType.named o.structTimestampType, o.timestampName) :: r.layout.fields.map fun f => (f.valueType, memberName f)

/-- The structure of a record with the blank line before it. -/
def structItems (o : Options) (r : Record) : List Item :=
  [.blank, .struct (structName r) (structMembers o r)]

/-- The timestamp constants. -/
def timestampConstants (o : Options) : List Item :=
  [ .constant .uint32 "POLL_RESULT_TIMESTAMP_SIZE" (.decimal o.timestampBytes.toNat),
    .constant .uint32 "POLL_RESULT_RESOLUTION_US" (.decimal o.pollResolution.toNat),
    .constant .uint64 "POLL_RESULT_WRAP_US" (.wide o.wrapPeriod.toNat),
    .constant .uint32 "DECODE_STRUCT_TIMESTAMP_RESOLUTION_US" (.decimal o.structResolution.toNat) ]

/-- The poll records header. -/
def pollRecords (m : Model) (o : Options) : List Item :=
  [.pragmaOnce, .includeSystem "stdint.h", .blank, generatedNote, .blank] ++ timestampConstants o ++
    (if o.decoding then m.records.flatMap (structItems o) else [])

end DeviceCatalog.Artifact
