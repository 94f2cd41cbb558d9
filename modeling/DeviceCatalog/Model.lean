import DeviceCatalog.AddressIndex
import DeviceCatalog.CSource.Name
import DeviceCatalog.PollLayout
import DeviceCatalog.ScanLists

/-!
# The model of a run

Everything that follows from the merged catalogs: the records, which are the device types with their layouts, the address index
and the scan lists. Every artifact is rendered from the same model, so the artifacts of a run agree.
-/

namespace DeviceCatalog

/-- A device type with the layout of its poll response. -/
structure Record where
  device : DeviceType
  layout : PollLayout

/-- The identifier by which emitted names refer to a record. -/
def Record.identifier (r : Record) : String :=
  CSource.name r.device.key

/-- The model of a run. -/
structure Model where
  records : List Record
  index : AddressIndex
  scan : ScanLists

namespace Model

/-- The first key whose identifier an earlier key has, with that earlier key; `seen` holds the keys before. -/
def clash? (seen : List String) : List String → Option (String × String)
  | [] => none
  | key :: rest =>
    match seen.find? fun k => CSource.name k == CSource.name key with
    | some earlier => some (earlier, key)
    | none => clash? (key :: seen) rest

/-- Fails when two keys make the same identifier. -/
def checkIdentifiers (devices : List DeviceType) : Except Failure Unit :=
  match clash? [] (devices.map DeviceType.key) with
  | some (first, second) => .error (.identifierClash (CSource.name second) first second)
  | none => .ok ()

/-- What is reported of a model: the claims of every address and the sizes of the scan lists. -/
def notices (m : Model) : List Notice :=
  (m.index.claimed.map fun (a, ps) => .addressClaimed a (ps.map UInt16.toNat)) ++
    [.scanListSizes m.scan.high.length m.scan.medium.length m.scan.low.length m.index.maxCount]

/-- The record of a device type. -/
def record (d : DeviceType) : Logged Failure Record := do
  let l ← PollLayout.compute d
  pure ⟨d, l⟩

/-- The model of some device types in catalog order. -/
def build (devices : List DeviceType) : Logged Failure Model := do
  let records ← devices.mapM record
  Logged.ofExcept (checkIdentifiers devices)
  let index ← Logged.ofExcept (AddressIndex.build devices)
  let m : Model := ⟨records, index, ScanLists.classify devices⟩
  Logged.notes m.notices
  pure m

end Model

end DeviceCatalog
