import DeviceCatalog.Address
import DeviceCatalog.Json.Compact
import DeviceCatalog.Path
import DeviceCatalog.Text.Visible

/-!
# Notices

What a run reports besides its result, from warnings about a catalog to the details of every record. A notice is its cause;
`Notice.level` and `Notice.message` say how urgent it is and how it reads.
-/

namespace DeviceCatalog

/-- How urgent a notice is. -/
inductive Notice.Level where
  | warning
  | info
  | detail
deriving DecidableEq

/-- Something that a run reports. -/
inductive Notice where
  | unknownOutputKind (value : Json)
  | ignoredRange (value : Json)
  | reversedRange (token spec : String)
  | catalogRead (count : Nat) (path : Path)
  | recordResolved (position : Nat) (key : String) (addresses : List Address)
  | catalogsMerged (types catalogs : Nat)
  | fieldSkipped (key name typeCode : String)
  | addressClaimed (address : Address) (positions : List Nat)
  | scanListSizes (high medium low most : Nat)
  | decoderTaken (key typeName : String)
  | upToDate (path : Path)
  | wrote (path : Path)
  | filesWritten (written unchanged : Nat)
  | allUpToDate

namespace Notice

/-- The urgency of a notice. -/
def level : Notice → Level
  | .unknownOutputKind _ | .ignoredRange _ | .reversedRange _ _ | .fieldSkipped _ _ _ | .decoderTaken _ _ => .warning
  | .catalogRead _ _ | .catalogsMerged _ _ | .wrote _ | .filesWritten _ _ | .allUpToDate => .info
  | .recordResolved _ _ _ | .addressClaimed _ _ | .scanListSizes _ _ _ _ | .upToDate _ => .detail

/-- Items between brackets, separated by a comma and a space. -/
def bracketed (items : List String) : String :=
  "[" ++ String.intercalate ", " items ++ "]"

/-- What a report of a skipped field says. -/
def skippedField (key name typeCode : String) : String :=
  key ++ ": skipping field " ++ Text.visible name ++ " with unsupported type " ++ Text.visible typeCode

/-- The words of a notice. -/
def message : Notice → String
  | .unknownOutputKind v => "Unknown output kind " ++ v.compact ++ ", using int"
  | .ignoredRange v => "Ignoring range " ++ v.compact ++ ", expected [min, max]"
  | .reversedRange token spec =>
    "Address range " ++ token ++ " in " ++ Text.visible spec ++ " is reversed and contains no addresses"
  | .catalogRead n path => "Read " ++ Text.decimal n ++ " device types from " ++ path.text
  | .recordResolved i key addresses =>
    "Record " ++ Text.decimal i ++ " " ++ key ++ " addresses " ++ bracketed (addresses.map Text.hexByte)
  | .catalogsMerged n m =>
    "Merged " ++ Text.decimal n ++ " device types from " ++ Text.decimal m ++ " catalogs"
  | .fieldSkipped key name typeCode => skippedField key name typeCode
  | .addressClaimed a positions =>
    "Address " ++ a.text ++ " -> records " ++ bracketed (positions.map Text.decimal)
  | .scanListSizes high medium low most =>
    "Scan lists: " ++ Text.decimal high ++ " high, " ++ Text.decimal medium ++ " medium, " ++ Text.decimal low ++
      " low; at most " ++ Text.decimal most ++ " records per address"
  | .decoderTaken key typeName =>
    key ++ ": device type " ++ typeName ++ " already has a script decoder, skipping"
  | .upToDate path => path.text ++ " is up to date"
  | .wrote path => "Wrote " ++ path.text
  | .filesWritten w u =>
    "Device types: " ++ Text.decimal w ++ " files written, " ++ Text.decimal u ++ " unchanged"
  | .allUpToDate => "Device type sources are up to date"

end Notice

end DeviceCatalog
