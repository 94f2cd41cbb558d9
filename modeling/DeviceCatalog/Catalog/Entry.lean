import DeviceCatalog.Address.Spec
import DeviceCatalog.Catalog.Shape
import DeviceCatalog.DeviceType

/-!
# Catalog entries

What an entry of a catalog says, before its addresses are resolved, and the device type that it becomes. Hints that are not
understood (an output kind, a range) are reported and dropped; everything else must have its shape.
-/

namespace DeviceCatalog

/-- A scan priority from JSON; null is none. Integers beyond the signed 64-bit range are not levels. -/
def ScanPriority.ofJson? : Json → Option ScanPriority
  | .null => none
  | .number (.integer n) => some (if n < Nat.pow 2 63 then .level n else .other (.number (.integer n)))
  | .string s => some (.named s)
  | v => some (.other v)

/-- An output kind; what is neither `float` nor `int` counts as `int` and is reported. -/
def OutputKind.decode : Shape.Decoder OutputKind
  | .string "float" => pure .float
  | .string "int" => pure .int
  | v => do
    Logged.note (.unknownOutputKind v)
    pure .int

/-- A range of two numbers; anything else but null is reported and dropped. -/
def Attribute.decodeRange : Shape.Decoder (Option (Binary64 × Binary64))
  | .null => pure none
  | v =>
    let bounds : Option (Binary64 × Binary64) :=
      match v with
      | .array [low, high] => do
        let a ← low.number?
        let b ← high.number?
        some (a, b)
      | _ => none
    match bounds with
    | some r => pure (some r)
    | none => do
      Logged.note (.ignoredRange v)
      pure none

/-- One field of a poll response. -/
def Attribute.decode : Shape.Decoder Attribute :=
  Shape.record .responseField
    [ Shape.field "n" Shape.text fun s a => { a with name := s },
      Shape.field "t" Shape.text fun s a => { a with typeCode := s },
      Shape.field "d" Shape.number fun x a => { a with divisor := x },
      Shape.field "a" Shape.number fun x a => { a with offset := x },
      Shape.field "o" OutputKind.decode fun k a => { a with outputKind := k },
      Shape.field "u" (Shape.optional Shape.text) fun u a => { a with unit := u },
      Shape.field "r" Attribute.decodeRange fun r a => { a with range := r } ]
    {}

/-- The poll response of a device: its fields and its declared size in bytes. -/
structure Response where
  schema : List Attribute := []
  bytes : Nat := 0

/-- The poll response inside a device info. -/
def Response.decode : Shape.Decoder Response :=
  Shape.record .response
    [ Shape.field "a" (Shape.list Attribute.decode) fun s r => { r with schema := s },
      Shape.field "b" Shape.count fun n r => { r with bytes := n } ]
    {}

/-- The poll response that a device info holds; without one it is empty. -/
def Response.ofDeviceInfo : Shape.Decoder Response :=
  Shape.record .deviceInfo [Shape.field "resp" Response.decode fun r _ => r] {}

/-- An entry of a catalog as it is written. -/
structure Entry where
  typeName : String := ""
  addresses : String := ""
  detectionValues : String := ""
  initValues : String := ""
  pollInfo : Json := .emptyObject
  scanPriority : Option ScanPriority := none
  deviceInfo : Json := .emptyObject

/-- An entry from its JSON value. -/
def Entry.decode : Shape.Decoder Entry :=
  Shape.record .deviceEntry
    [ Shape.field "deviceType" Shape.text fun s e => { e with typeName := s },
      Shape.field "addresses" Shape.text fun s e => { e with addresses := s },
      Shape.field "detectionValues" Shape.text fun s e => { e with detectionValues := s },
      Shape.field "initValues" Shape.text fun s e => { e with initValues := s },
      Shape.field "pollInfo" pure fun v e => { e with pollInfo := v },
      Shape.field "scanPriority" (fun v => pure (ScanPriority.ofJson? v)) fun p e => { e with scanPriority := p },
      Shape.field "devInfoJson" pure fun v e => { e with deviceInfo := v } ]
    {}

/-- The device type of an entry whose addresses and poll response are known. -/
def Entry.toDevice (e : Entry) (key : String) (addresses : List Address) (response : Response) : DeviceType where
  key := key
  typeName := e.typeName
  addressSpec := e.addresses
  addresses := addresses
  detectionValues := e.detectionValues
  initValues := e.initValues
  pollInfo := e.pollInfo
  scanPriority := e.scanPriority
  deviceInfo := e.deviceInfo
  responseSchema := response.schema
  declaredBytes := response.bytes

/-- The device type of an entry: its addresses are resolved first, then its device info is decoded. -/
def Entry.resolve (e : Entry) (key : String) (source : Path) : Logged Failure DeviceType := do
  let addresses ← Address.readSpec e.addresses
  let response ← (Response.ofDeviceInfo e.deviceInfo).mapError fun m =>
    Failure.catalog source (.schema (.deviceInfo key m))
  pure (e.toDevice key addresses response)

end DeviceCatalog
