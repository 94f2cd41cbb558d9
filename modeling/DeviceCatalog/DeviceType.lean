import DeviceCatalog.Address
import DeviceCatalog.Json

/-!
# Device types

A device type is an entry of a catalog with its addresses resolved and its poll response schema decoded. The poll settings and
the device info stay JSON: they are passed on as they are.
-/

namespace DeviceCatalog

/-- How eagerly discovery should look for a device, as the catalog says it: a level counted from one, a word, or anything else. -/
inductive ScanPriority where
  | level (n : Int)
  | named (word : String)
  | other (value : Json)

/-- What a decoded value is for its readers. -/
inductive OutputKind where
  | int
  | float
deriving DecidableEq

/-- The word for an output kind, in catalogs and in emitted source. -/
def OutputKind.word : OutputKind → String
  | .int => "int"
  | .float => "float"

/-- One field of a poll response, as a catalog declares it. -/
structure Attribute where
  name : String := ""
  typeCode : String := ""
  divisor : Binary64 := .one
  offset : Binary64 := .zero
  outputKind : OutputKind := .int
  unit : Option String := none
  range : Option (Binary64 × Binary64) := none

/-- The divisor or the offset changes the raw value. -/
def Attribute.isScaled (a : Attribute) : Bool :=
  a.divisor ≠ .one || !a.offset.isZero

/-- The unit, when there is one and it is not empty. -/
def Attribute.unit? (a : Attribute) : Option String :=
  a.unit.filter fun u => !u.isEmpty

/-- A device type. What an entry does not say is empty. -/
structure DeviceType where
  /-- The key in the catalog. -/
  key : String
  /-- The name at run time, which need not be the key. -/
  typeName : String := ""
  /-- The addresses as written. -/
  addressSpec : String := ""
  /-- The addresses that the spec stands for; the first is the primary one. -/
  addresses : List Address := []
  detectionValues : String := ""
  initValues : String := ""
  pollInfo : Json := .emptyObject
  scanPriority : Option ScanPriority := none
  deviceInfo : Json := .emptyObject
  responseSchema : List Attribute := []
  declaredBytes : Nat := 0

/-- The primary address of a device with fixed addresses. -/
def DeviceType.primaryAddress (d : DeviceType) : Option Address :=
  d.addresses.head?

/-- The name that the device info gives the device, if it is a text. -/
def DeviceType.displayName (d : DeviceType) : Option String :=
  (d.deviceInfo.member? "name").bind Json.string?

end DeviceCatalog
