import DeviceCatalog.Binary64

/-!
# The shortest decimal that reads back

Of the decimals that round to a given finite number, the one with the fewest digits, and of those the nearest; of two that are
equally near the one that the caller's rule picks. The decimals that round to `m · 2 ^ e` fill an interval that reaches half way to
the neighbours; its ends belong to it exactly when `m` is even. For a given number of digits only the two points of the decimal
grid around the number can be the nearest ones inside.
-/

namespace DeviceCatalog.Binary64

/-- A positive decimal: its digits without leading or trailing zeros, and the power of ten of the last one. -/
structure Digits where
  digits : List Char
  exponent : Int
deriving DecidableEq

/-- The decimals that round to a number, in units of `2 ^ (exponent - 2)`: the number, the ends, and whether the ends count. -/
structure Interval where
  low : Nat
  mid : Nat
  high : Nat
  closed : Bool

/-- The gap below a power of two is half as wide, except at the least exponent. -/
def interval (m : Nat) (e : Int) : Interval where
  low := if m = Nat.pow 2 52 ∧ -1074 < e then 4 * m - 1 else 4 * m - 2
  mid := 4 * m
  high := 4 * m + 2
  closed := m % 2 = 0

def Interval.contains (i : Interval) (x : Nat) (scale : Nat) : Bool :=
  if i.closed then i.low * scale ≤ x && x ≤ i.high * scale else i.low * scale < x && x < i.high * scale

/-- The power of ten of the first digit of `n / d`. -/
def leadingPower (n d : Nat) : Int :=
  if d ≤ n then ((Nat.toDigits 10 (n / d)).length : Int) - 1
  else
    let q := d / n
    let k := (Nat.toDigits 10 q).length
    if d % n = 0 ∧ q = Nat.pow 10 (k - 1) then -((k : Int) - 1) else -(k : Int)

/-- Which of the two points around a number is taken when it lies exactly half way between them. -/
inductive Tie where
  | toEven
  | awayFromZero
deriving DecidableEq

/-- The point taken, by the lower one of the two. -/
def Tie.pick (tie : Tie) (below : Nat) : Nat :=
  match tie with
  | .toEven => below + below % 2
  | .awayFromZero => below + 1

/-- The nearest multiple of `10 ^ k` inside the interval, if one of the two around the number is inside. -/
def onGrid? (tie : Tie) (i : Interval) (e : Int) (k : Int) : Option Nat :=
  -- both sides are multiplied until they are natural: the number is `mid * a / b` steps of the grid
  let a := Nat.pow 2 (e - 2).toNat * Nat.pow 10 (-k).toNat
  let b := Nat.pow 2 (2 - e).toNat * Nat.pow 10 k.toNat
  let below := i.mid * a / b
  let above := below + 1
  match i.contains (below * b) a, i.contains (above * b) a with
  | true, true =>
    let down := i.mid * a - below * b
    let up := above * b - i.mid * a
    some (if down < up then below else if up < down then above else tie.pick below)
  | true, false => some below
  | false, true => some above
  | false, false => none

/-- A grid point as digits without trailing zeros. -/
def Digits.ofGrid (c : Nat) (k : Int) : Digits :=
  let all := Nat.toDigits 10 c
  let kept := (all.reverse.dropWhile (· == '0')).reverse
  ⟨kept, k + (all.length - kept.length : Nat)⟩

/-- Seventeen digits are always enough to tell two numbers apart. -/
def shortest (tie : Tie) (m : Nat) (e : Int) : Digits :=
  let i := interval m e
  let top := leadingPower (m * Nat.pow 2 e.toNat) (Nat.pow 2 (-e).toNat)
  let grids := (List.range 17).map fun (n : Nat) => top - (n : Int)
  match grids.findSome? fun k => (onGrid? tie i e k).map fun c => (c, k) with
  | some (c, k) => .ofGrid c k
  | none => .ofGrid (m * Nat.pow 2 e.toNat) 0

end DeviceCatalog.Binary64
