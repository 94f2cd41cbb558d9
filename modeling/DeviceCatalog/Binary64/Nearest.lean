import DeviceCatalog.Binary64

/-!
# Rounding to the nearest number

The binary64 number nearest to a quotient of natural numbers, the one with an even significand when two are equally near, and
infinity when the quotient is too large. Products, quotients and conversions of integers are this rounding of the exact result.
-/

namespace DeviceCatalog.Binary64

/-- `n / d` to the nearest natural number, to the even one from half way. -/
def roundDiv (n d : Nat) : Nat :=
  let q := n / d
  let r := n % d
  if 2 * r < d then q else if d < 2 * r then q + 1 else q + q % 2

/-- The exponent at which `n / d` has a significand of 53 bits. -/
def fullExponent (n d : Nat) : Int :=
  let e : Int := (n.log2 : Int) - d.log2 - 52
  if n * Nat.pow 2 (-e).toNat / (d * Nat.pow 2 e.toNat) < Nat.pow 2 52 then e - 1 else e

/-- The number nearest to `n / d`. A significand that rounds up to 54 bits carries into the stored exponent, which is the right
number, and the least exponent gives the numbers without a hidden bit. -/
def ofRatio (n d : Nat) : Binary64 :=
  if n = 0 then zero
  else
    let e := max (fullExponent n d) (-1074)
    let m := roundDiv (n * Nat.pow 2 (-e).toNat) (d * Nat.pow 2 e.toNat)
    let word := (e + 1074).toNat * Nat.pow 2 52 + m
    if word < 2047 * Nat.pow 2 52 then ⟨UInt64.ofNat word⟩ else infinity

/-- The number nearest to an integer. -/
def ofInt (n : Int) : Binary64 :=
  if n < 0 then (ofRatio n.natAbs 1).negate else ofRatio n.natAbs 1

/-- The product of two finite numbers that are not negative. -/
def times (x y : Binary64) : Binary64 :=
  let (a, b) := x.magnitude
  let (c, d) := y.magnitude
  ofRatio (a * c) (b * d)

/-- The quotient of two finite numbers that are not negative, the second not zero. -/
def quotient (x y : Binary64) : Binary64 :=
  let (a, b) := x.magnitude
  let (c, d) := y.magnitude
  ofRatio (a * d) (b * c)

/-- The number nearest to a power of ten. -/
def powerOfTen (k : Nat) : Binary64 :=
  ofRatio (Nat.pow 10 k) 1

end DeviceCatalog.Binary64
