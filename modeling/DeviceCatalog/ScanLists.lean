import DeviceCatalog.DeviceType
import Std.Data.TreeSet

/-!
# Scan lists

Discovery scans the bus in three passes. The primary address of an eager device is scanned first and its other addresses second,
together with every address of a device of medium priority; the last pass takes what is left of the scanned window. An address is
in the list of its most eager claim, so the lists have no address in common.
-/

namespace DeviceCatalog

/-- A pass of discovery. -/
inductive ScanLevel where
  | high
  | medium
  | low
deriving DecidableEq

/-- The passes in order. -/
def ScanLevel.all : List ScanLevel := [.high, .medium, .low]

/-- The number of a pass, from zero. -/
def ScanLevel.index : ScanLevel → Nat
  | .high => 0
  | .medium => 1
  | .low => 2

/-- The pass that a priority asks for. Levels below the first count as the first and levels above the last as the last. -/
def ScanPriority.scanLevel : ScanPriority → ScanLevel
  | .level n => if n ≤ 1 then .high else if n = 2 then .medium else .low
  | .named "high" => .high
  | .named "medium" => .medium
  | .named _ => .low
  | .other _ => .low

/-- The pass that a device asks for, if it has a priority. -/
def DeviceType.scanLevel? (d : DeviceType) : Option ScanLevel :=
  d.scanPriority.map ScanPriority.scanLevel

/-- The addresses collected for one pass. -/
abbrev Bucket := Std.TreeSet Address

/-- The bucket of the whole scanned window. -/
def Bucket.window : Bucket :=
  Std.TreeSet.ofList Address.window

/-- The addresses of a bucket that another one does not hold. -/
def Bucket.without (bucket earlier : Bucket) : Bucket :=
  bucket.filter fun a => !earlier.contains a

/-- The addresses collected for every pass. -/
structure Buckets where
  high : Bucket := ∅
  medium : Bucket := ∅
  low : Bucket := ∅

namespace Buckets

/-- The claims of a device put into the buckets. An eager device claims only its primary address for the first pass. -/
def claim (b : Buckets) (d : DeviceType) : Buckets :=
  match d.scanLevel? with
  | none => b
  | some .high =>
    match d.addresses with
    | [] => b
    | primary :: others => { b with high := b.high.insert primary, medium := b.medium.insertMany others }
  | some .medium => { b with medium := b.medium.insertMany d.addresses }
  | some .low => { b with low := b.low.insertMany d.addresses }

/-- The last bucket replaced, whatever was claimed for it. -/
def withLow (b : Buckets) (bucket : Bucket) : Buckets :=
  { b with low := bucket }

/-- Every bucket loses what the ones before it hold, pass after pass: the last one loses what is left of the second one. -/
def reduce (b : Buckets) : Buckets :=
  let medium := b.medium.without b.high
  { b with medium := medium, low := (b.low.without b.high).without medium }

end Buckets

/-- The addresses of each pass in rising order. -/
@[ext] structure ScanLists where
  high : List Address
  medium : List Address
  low : List Address

namespace ScanLists

/-- The addresses of the buckets in rising order. -/
def ofBuckets (b : Buckets) : ScanLists :=
  ⟨b.high.toList, b.medium.toList, b.low.toList⟩

/-- The lists of some device types. -/
def classify (devices : List DeviceType) : ScanLists :=
  ofBuckets ((devices.foldl Buckets.claim {}).withLow .window).reduce

/-- The list of a pass. -/
def list (s : ScanLists) : ScanLevel → List Address
  | .high => s.high
  | .medium => s.medium
  | .low => s.low

end ScanLists

end DeviceCatalog
