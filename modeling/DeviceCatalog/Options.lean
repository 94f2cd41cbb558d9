import DeviceCatalog.CSource.Name
import DeviceCatalog.Failure
import DeviceCatalog.Text.Blank

/-!
# Options

What a run emits and where: the native artifacts, the format of poll timestamps, and the script bindings when they are wanted.
Options are checked before anything is emitted, and the first fault in the order of `Options.check` counts.
-/

namespace DeviceCatalog

/-- Options of the script bindings. -/
structure ScriptOptions where
  /-- The name of the module that scripts import. -/
  moduleName : String := "device"
  /-- What stands before a symbol's name in its C identifier. -/
  symbolStem : String := "MP_QSTR_"
  /-- Store the texts of the device info with the decoded values. -/
  includeMetadata : Bool := true
  /-- Store the units of the fields. -/
  includeUnits : Bool := false
  /-- Store the declared ranges of the fields. -/
  includeRanges : Bool := false

/-- The C identifier of a symbol. -/
def ScriptOptions.symbol (o : ScriptOptions) (name : String) : String :=
  o.symbolStem ++ CSource.name name

/-- Options of a run. -/
structure Options where
  /-- Emit poll structures and decoders. -/
  decoding : Bool := true
  /-- Put the device info into the records. -/
  includeDeviceInfo : Bool := true
  /-- The bytes of the timestamp in front of every poll record. -/
  timestampBytes : UInt32 := 2
  /-- The microseconds of one tick of that timestamp. -/
  pollResolution : UInt32 := 1000
  /-- The C type of the timestamp in decoded structures. -/
  structTimestampType : String := "uint32_t"
  /-- The microseconds of one tick of the decoded timestamp. -/
  structResolution : UInt32 := 1000
  /-- The name of the timestamp in decoded structures; when empty it follows from the resolution. -/
  structTimestampName : String := ""
  /-- Script bindings, if they are wanted. -/
  script : Option ScriptOptions := none

namespace Options

/-- The name of the timestamp in decoded structures. -/
def timestampName (o : Options) : String :=
  if !o.structTimestampName.isEmpty then o.structTimestampName
  else if o.structResolution = 1 then "timeUs"
  else if o.structResolution = 1000 then "timeMs"
  else "timestamp"

/-- The first fault of the options. -/
def check (o : Options) : Except OptionFault Unit :=
  if o.timestampBytes < 1 ∨ 4 < o.timestampBytes then .error (.timestampSize o.timestampBytes.toNat)
  else if o.pollResolution = 0 then .error .pollResolution
  else if o.structResolution = 0 then .error .structResolution
  else if (Text.trim o.structTimestampType).isEmpty then .error .structType
  else
    match o.script with
    | some s => if s.moduleName.isEmpty then .error .moduleName else .ok ()
    | none => .ok ()

/-- Fails with the first fault of the options. -/
def validate (o : Options) : Except Failure Unit :=
  o.check.mapError .invalidOption

/-- The microseconds after which a poll timestamp starts again from zero. -/
def wrapPeriod (o : Options) : UInt64 :=
  ((1 : UInt64) <<< (8 * o.timestampBytes.toUInt64)) * o.pollResolution.toUInt64

end Options

/-- Where each artifact goes. The paths of the script bindings count only when the bindings are wanted. -/
structure OutputPaths where
  deviceTable : Path
  pollRecords : Path
  symbolTable : Option Path := none
  decoderHeader : Option Path := none
  decoderSource : Option Path := none

end DeviceCatalog
