import DeviceCatalog.DeviceType
import DeviceCatalog.Failure

/-!
# The address index

For every address of the lower half, the positions of the records that may appear there, in catalog order and as often as they
list the address. Positions are sixteen bits wide; a device type with addresses that stands beyond them is a failure.
-/

namespace DeviceCatalog

/-- The positions of each indexed address; an address that no record has claimed has no list. -/
structure AddressIndex where
  slots : Vector (Option (Array UInt16)) Address.indexed

namespace AddressIndex

/-- The index that no record has claimed. -/
def empty : AddressIndex := ⟨Vector.replicate Address.indexed none⟩

/-- A position added to the list of an address, which is made when it is missing; addresses beyond the index are passed over. -/
def claim (index : AddressIndex) (position : UInt16) (a : Address) : AddressIndex :=
  if h : a.toNat < Address.indexed then
    ⟨index.slots.set a.toNat (some ((index.slots[a.toNat].getD #[]).push position)) h⟩
  else index

/-- A position added for every address of a device type. -/
def claimAll (index : AddressIndex) (position : UInt16) (addresses : List Address) : AddressIndex :=
  addresses.foldl (fun index a => index.claim position a) index

/-- The claims of the device type at a position; one without addresses claims nothing wherever it stands. -/
def add (count : Nat) (index : AddressIndex) (device : DeviceType × Nat) : Except Failure AddressIndex :=
  if device.1.addresses.isEmpty then .ok index
  else if device.2 < UInt16.size then .ok (index.claimAll (UInt16.ofNat device.2) device.1.addresses)
  else .error (.tooManyTypes count)

/-- The index of some device types in catalog order. -/
def build (devices : List DeviceType) : Except Failure AddressIndex :=
  devices.zipIdx.foldlM (add devices.length) empty

/-- The positions of an address that at least one record claims. -/
def positions? (index : AddressIndex) (a : Address) : Option (List UInt16) :=
  if h : a.toNat < Address.indexed then index.slots[a.toNat].map Array.toList else none

/-- The positions of the records that claim an address. -/
def positions (index : AddressIndex) (a : Address) : List UInt16 :=
  (index.positions? a).getD []

/-- The number of claims of an address. -/
def count (index : AddressIndex) (a : Address) : Nat :=
  (index.positions a).length

/-- The indexed addresses with their positions, in rising order. -/
def toList (index : AddressIndex) : List (Address × Option (List UInt16)) :=
  (Address.all.take Address.indexed).map fun a => (a, index.positions? a)

/-- The indexed addresses that are claimed, with their positions. -/
def claimed (index : AddressIndex) : List (Address × List UInt16) :=
  index.toList.filterMap fun (a, ps) => ps.map fun ps => (a, ps)

/-- The greatest number of claims of one address. -/
def maxCount (index : AddressIndex) : Nat :=
  ((index.claimed.map fun claim => claim.2.length).max?).getD 0

end AddressIndex

end DeviceCatalog
