/-!
# Binary64 numbers

The numbers of a catalog are double-precision numbers, held as their 64 bits. Everything else about them is read off the bits in
exact arithmetic: a finite number is a significand times a power of two, so comparison, truncation and rounding are questions
about natural numbers.
-/

namespace DeviceCatalog

/-- A double-precision number, by its bits: sign, eleven bits of exponent, fifty-two bits of fraction. -/
structure Binary64 where
  bits : UInt64
deriving DecidableEq, Inhabited

namespace Binary64

/-- What a number is: no number, infinite, or `significand · 2 ^ exponent` up to its sign. -/
inductive Kind where
  | nan
  | infinite
  | finite (significand : Nat) (exponent : Int)
deriving DecidableEq

/-- The sign bit is set. -/
def negative (x : Binary64) : Bool :=
  Nat.pow 2 63 ≤ x.bits.toNat

/-- The stored exponent. -/
def storedExponent (x : Binary64) : Nat :=
  x.bits.toNat / Nat.pow 2 52 % Nat.pow 2 11

/-- The stored fraction. -/
def fraction (x : Binary64) : Nat :=
  x.bits.toNat % Nat.pow 2 52

/-- A stored exponent of zero means no hidden bit, the greatest one means no finite number. -/
def kind (x : Binary64) : Kind :=
  if x.storedExponent = 2047 then
    if x.fraction = 0 then .infinite else .nan
  else if x.storedExponent = 0 then .finite x.fraction (-1074)
  else .finite (Nat.pow 2 52 + x.fraction) (x.storedExponent - 1075)

def zero : Binary64 := ⟨0⟩

def one : Binary64 := ⟨0x3ff0000000000000⟩

def infinity : Binary64 := ⟨0x7ff0000000000000⟩

/-- The same number with the other sign. -/
def negate (x : Binary64) : Binary64 :=
  ⟨x.bits ^^^ 0x8000000000000000⟩

/-- The same number without its sign. -/
def abs (x : Binary64) : Binary64 :=
  ⟨x.bits &&& 0x7fffffffffffffff⟩

/-- Either zero. -/
def isZero (x : Binary64) : Bool :=
  x.bits &&& 0x7fffffffffffffff == 0

def isNaN (x : Binary64) : Bool :=
  x.storedExponent = 2047 && x.fraction ≠ 0

def isInfinite (x : Binary64) : Bool :=
  x.storedExponent = 2047 && x.fraction = 0

/-- Greater than zero. -/
def isPositive (x : Binary64) : Bool :=
  !x.isNaN && !x.isZero && !x.negative

/-- Less than zero. -/
def isNegative (x : Binary64) : Bool :=
  !x.isNaN && !x.isZero && x.negative

/-- Numerator and denominator of the distance from zero; not a number and the infinities count as zero. -/
def magnitude (x : Binary64) : Nat × Nat :=
  match x.kind with
  | .finite m e => (m * Nat.pow 2 e.toNat, Nat.pow 2 (-e).toNat)
  | _ => (0, 1)

/-- The integer that a finite number without a fractional part is. -/
def whole? (x : Binary64) : Option Int :=
  match x.kind with
  | .finite _ _ =>
    let (n, d) := x.magnitude
    if n % d = 0 then some (if x.negative then -(n / d : Nat) else (n / d : Nat)) else none
  | _ => none

end Binary64

end DeviceCatalog
