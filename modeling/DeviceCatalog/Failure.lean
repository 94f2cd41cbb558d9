import DeviceCatalog.DiskFault
import DeviceCatalog.Json.Compact
import DeviceCatalog.Json.Numeral
import DeviceCatalog.Path
import DeviceCatalog.Text.Visible

/-!
# Failures

The causes that end a run without a result, with their wording. `Failure.message` is the outermost sentence and
`Failure.chain` adds the cause below it.
-/

namespace DeviceCatalog

/-- What a value of a catalog should have been. -/
inductive Expected where
  | deviceEntry
  | deviceInfo
  | response
  | responseField
  | sequence
  | count
  | number
  | text

/-- The words for what was expected. -/
def Expected.word : Expected → String
  | .deviceEntry => "struct RawDevType"
  | .deviceInfo => "struct RawDevInfo"
  | .response => "struct RawResponse"
  | .responseField => "struct AttributeDescriptor"
  | .sequence => "a sequence"
  | .count => "u64"
  | .number => "f64"
  | .text => "a string"

/-- Why a JSON value does not have the shape that a catalog needs. -/
inductive Mismatch where
  | wrongType (found : Json) (expected : Expected)
  | negativeCount (found : Int)
  | tooManyFields (length : Nat)

/-- How a message names the value that it found. -/
def Json.description : Json → String
  | .null => "null"
  | .bool b => "boolean `" ++ (if b then "true" else "false") ++ "`"
  | .number (.integer n) => "integer `" ++ Text.signedDecimal n ++ "`"
  | .number (.float x) => "floating point `" ++ x.text .json ++ "`"
  | .string s => "string " ++ Text.visible s
  | .array _ => "sequence"
  | .object _ => "map"

/-- The words of a mismatch. -/
def Mismatch.message : Mismatch → String
  | .wrongType found expected => "invalid type: " ++ found.description ++ ", expected " ++ expected.word
  | .negativeCount n =>
    "invalid value: integer `" ++ Text.signedDecimal n ++ "`, expected " ++ Expected.count.word
  | .tooManyFields n => "invalid length " ++ Text.decimal n ++ ", expected fewer elements in array"

/-- Why the content of a catalog cannot be used. -/
inductive SchemaFault where
  | notAnObject
  | entry (key : String) (cause : Mismatch)
  | deviceInfo (key : String) (cause : Mismatch)

/-- The words of a schema fault. -/
def SchemaFault.message : SchemaFault → String
  | .notAnObject => "devTypes is not an object"
  | .entry key cause => key ++ ": " ++ cause.message
  | .deviceInfo key cause => "devInfoJson of " ++ key ++ ": " ++ cause.message

/-- Why a catalog cannot be used. -/
inductive CatalogFault where
  | disk (fault : DiskFault)
  | json (defect : Json.Defect)
  | schema (fault : SchemaFault)

/-- The words of a catalog fault. -/
def CatalogFault.message : CatalogFault → String
  | .disk fault => fault.message
  | .json .ended => "the JSON text ends too early"
  | .json .malformed => "the text is not JSON"
  | .schema fault => fault.message

/-- Why options are refused. -/
inductive OptionFault where
  | timestampSize (bytes : Nat)
  | pollResolution
  | structResolution
  | structType
  | moduleName
  | noCatalog

/-- The words of an option fault. -/
def OptionFault.message : OptionFault → String
  | .timestampSize n => "poll result timestamp size must be 1 to 4 bytes, got " ++ Text.decimal n
  | .pollResolution => "poll result timestamp resolution must be non-zero"
  | .structResolution => "decoded struct timestamp resolution must be non-zero"
  | .structType => "decoded struct timestamp type must not be empty"
  | .moduleName => "scripting module name must not be empty"
  | .noCatalog => "no device type catalog given"

/-- Why a run has no result. -/
inductive Failure where
  | malformedAddresses (spec token : String)
  | catalog (path : Path) (cause : CatalogFault)
  | sizeMismatch (key : String) (declared computed : Nat)
  | identifierClash (identifier first second : String)
  | tooManyTypes (count : Nat)
  | invalidOption (fault : OptionFault)
  | write (path : Path) (cause : DiskFault)

/-- The sentence that states a failure. -/
def Failure.message : Failure → String
  | .malformedAddresses spec token =>
    "invalid address range " ++ Text.visible token ++ " in " ++ Text.visible spec
  | .catalog path _ => "failed to read device type catalog " ++ path.text
  | .sizeMismatch key declared computed =>
    "poll data size mismatch for " ++ key ++ ": declared " ++ Text.decimal declared ++ " bytes, calculated " ++
      Text.decimal computed ++ " bytes"
  | .identifierClash identifier first second =>
    "device types " ++ Text.visible first ++ " and " ++ Text.visible second ++ " both generate the identifier " ++
      identifier
  | .tooManyTypes n => Text.decimal n ++ " device types do not fit a 16-bit record index"
  | .invalidOption fault => "invalid generator option: " ++ fault.message
  | .write path _ => "failed to write " ++ path.text

/-- The sentence followed by the cause below it, if there is one. -/
def Failure.chain (f : Failure) : String :=
  match f with
  | .catalog _ cause => f.message ++ ": " ++ cause.message
  | .write _ cause => f.message ++ ": " ++ cause.message
  | _ => f.message

end DeviceCatalog
