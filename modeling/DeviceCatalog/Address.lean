import DeviceCatalog.Text.Numeral

/-!
# Bus addresses

An address is a byte. Discovery scans a window of the addresses and the index covers the lower half of them.
-/

namespace DeviceCatalog

/-- A bus address. -/
abbrev Address := UInt8

namespace Address

/-- The lowest address that discovery scans. -/
def firstScanned : Address := 0x04

/-- The highest address that discovery scans. -/
def lastScanned : Address := 0x77

/-- The number of addresses that the index covers, from zero. -/
def indexed : Nat := 128

/-- Every address in rising order. -/
def all : List Address :=
  (List.range 256).map UInt8.ofNat

/-- The addresses that discovery scans, in rising order. -/
def window : List Address :=
  all.filter fun a => firstScanned ≤ a ∧ a ≤ lastScanned

/-- The addresses from the first to the last one, both included; none when the last lies below the first. -/
def span (first last : Address) : List Address :=
  (List.range (last.toNat + 1 - first.toNat)).map fun i => UInt8.ofNat (first.toNat + i)

/-- An address as tables write it: `0x` and two lower-case digits. -/
def text (a : Address) : String :=
  "0x" ++ Text.hexByte a

end Address

end DeviceCatalog
