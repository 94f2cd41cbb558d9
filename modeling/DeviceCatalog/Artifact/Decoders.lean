import DeviceCatalog.Artifact.Extraction
import DeviceCatalog.Artifact.PollRecords
import DeviceCatalog.Artifact.Scaling

/-!
# Native decoders

The function that unwraps poll timestamps and, for every record, the function that decodes a buffer of poll results into an array of
structures. A poll timestamp is a big-endian counter that starts again from zero; the decode state carries what has to be added.
A decoder goes on while there is a record wanted, a whole poll result left and room for a structure.
-/

namespace DeviceCatalog.Artifact

open CSource

/-- What the names of the native helpers start with. -/
def nativeHelper : String := "devtypes_get_"

/-- The function that unwraps timestamps. -/
def timestampFunction : String := "devtypes_poll_timestamp_us"

/-- The parameter that carries the decode state. -/
def stateParam : Param := ⟨.named "RaftBusDeviceDecodeState&", "decodeState"⟩

/-- A member of the decode state. -/
def stateMember (name : String) : Expr := .member (.var "decodeState") name

/-- The function that unwraps timestamps: a timestamp that is less than the one before starts a new period. -/
def timestampItems (o : Options) : List Item :=
  let raw := composeBytes o.timestampBytes.toNat none .big
  [ .function .ownLine
      { qualifiers := ["static", "inline"], result := .uint64, name := timestampFunction,
        params := [[bufferParam, stateParam]] }
      [ .simple (.define .uint64 "timestampUs"
          (.binary .mul (.cast .uint64 (.group raw)) (.var "POLL_RESULT_RESOLUTION_US"))),
        .when (.binary .less (.var "timestampUs") (stateMember "lastReportTimestampUs"))
          (.increase (stateMember "reportTimestampOffsetUs") (.var "POLL_RESULT_WRAP_US")),
        .simple (.assign (stateMember "lastReportTimestampUs") (.var "timestampUs")),
        .simple (.ret (.binary .add (.var "timestampUs") (stateMember "reportTimestampOffsetUs"))) ],
    .blank ]

/-- The function that decodes a record. -/
def decoderName (r : Record) : String := "decodePollResp_" ++ r.identifier

/-- The member of the structure that is being filled. -/
def outMember (name : String) : Expr := .arrow (.var "pOut") name

/-- The assignment of a decoded field. -/
def fieldAssignment (f : PlacedField) : Stmt :=
  let raw := Expr.call (nativeHelper ++ f.type.extractor) [.var "pBuf", .decimal f.offset]
  let value := scaledValue f.attr raw
  .assign (outMember (memberName f)) (if f.attr.isScaled then .cast f.valueType (.group value) else value)

/-- What a decoder does for one poll result. -/
def decoderStep (o : Options) (r : Record) : List Stmt :=
  [ .assign (outMember o.timestampName)
      (.cast (.named o.structTimestampType)
        (.group (.binary .div (.call timestampFunction [.var "pPollBuf", .var "decodeState"])
          (.var "DECODE_STRUCT_TIMESTAMP_RESOLUTION_US")))) ] ++
    (if r.layout.fields.isEmpty then []
    else
      [ .define (.pointer (.const .uint8)) "pBuf"
          (.binary .add (.var "pPollBuf") (.var "POLL_RESULT_TIMESTAMP_SIZE")) ]) ++
    r.layout.fields.map fieldAssignment ++
    [ .increase (.var "pPollBuf") (.var "recLen"),
      .decrease (.var "pollBufLen") (.var "recLen"),
      .decrease (.var "structOutSize") (.sizeOf (.struct (structName r))),
      .increment (.var "pOut"),
      .increment (.var "numRecs") ]

/-- The condition under which a decoder goes on. -/
def decoderCondition (r : Record) : Expr :=
  .binary .both
    (.binary .both
      (.group (.binary .less (.var "numRecs") (.var "maxRecCount")))
      (.group (.binary .atLeast (.var "pollBufLen") (.var "recLen"))))
    (.group (.binary .atLeast (.var "structOutSize") (.sizeOf (.struct (structName r)))))

/-- The body of a record's decoder. -/
def decoderBody (o : Options) (r : Record) : List Block :=
  let out := CType.pointer (.struct (structName r))
  [ .simple (.define out "pOut" (.cast out (.var "pStructOut"))),
    .simple (.define (.const .uint32) "recLen"
      (.binary .add (.var "POLL_RESULT_TIMESTAMP_SIZE") (.decimal r.layout.size))),
    .simple (.define .uint32 "numRecs" (.decimal 0)),
    .loop (decoderCondition r) (decoderStep o r),
    .simple (.ret (.var "numRecs")) ]

/-- The head of a record's decoder. -/
def decoderSignature (r : Record) : Signature where
  qualifiers := ["static"]
  result := .uint32
  name := decoderName r
  params :=
    [ [ ⟨.pointer (.const .uint8), "pPollBuf"⟩, ⟨.uint32, "pollBufLen"⟩, ⟨.pointer (.named "void"), "pStructOut"⟩,
        ⟨.uint32, "structOutSize"⟩ ],
      [⟨.uint16, "maxRecCount"⟩, stateParam] ]

/-- The decoder of a record, with the blank line behind it. -/
def decoderItems (o : Options) (r : Record) : List Item :=
  [.function .ownLine (decoderSignature r) (decoderBody o r), .blank]

/-- All native decoders and the functions that they use. -/
def nativeDecoders (m : Model) (o : Options) : List Item :=
  helpers nativeHelper ++ timestampItems o ++ m.records.flatMap (decoderItems o)

end DeviceCatalog.Artifact
