import DeviceCatalog.Binary64.Nearest
import DeviceCatalog.Json

/-!
# Reading a JSON number

A numeral is an integer part, a fraction and a power of ten. Without the last two it stays an integer while it fits 64 bits;
otherwise it becomes a `Binary64`: as many leading digits as fit an unsigned 64-bit significand count, the rest only move the
power of ten, and the significand is scaled by one rounded multiplication or division (several divisions for very small numbers).
-/

namespace DeviceCatalog.Json

/-- Why a text is no JSON: it ends too early, or something in it is wrong. -/
inductive Defect where
  | ended
  | malformed
deriving DecidableEq

/-- What a reader gives: a value and the rest of the text. -/
abbrev Read (α : Type) := Except Defect (α × List Char)

/-- The digits at the start of a text, as numbers, and the rest. -/
def takeDigits (cs : List Char) : List Nat × List Char :=
  ((cs.takeWhile Char.isDigit).map fun c => c.toNat - '0'.toNat, cs.dropWhile Char.isDigit)

/-- A significand and a power of ten; `full` once a digit did not fit any more. -/
structure Significand where
  value : Nat
  power : Int
  full : Bool

/-- One more digit before the point. -/
def Significand.integerDigit (s : Significand) (d : Nat) : Significand :=
  if s.full then { s with power := s.power + 1 }
  else if 10 * s.value + d < UInt64.size then { s with value := 10 * s.value + d }
  else { s with power := s.power + 1, full := true }

/-- One more digit behind the point. -/
def Significand.fractionDigit (s : Significand) (d : Nat) : Significand :=
  if s.full then s
  else if 10 * s.value + d < UInt64.size then { s with value := 10 * s.value + d, power := s.power - 1 }
  else { s with full := true }

/-- `x · 10 ^ e` with one rounding, after as many divisions by `10 ^ 308` as bring `e` into range; `none` when it is too large. -/
def scale? (x : Binary64) (e : Int) : Option Binary64 :=
  if e.natAbs ≤ 308 then
    if 0 ≤ e then
      let y := x.times (.powerOfTen e.natAbs)
      if y.isInfinite then none else some y
    else some (x.quotient (.powerOfTen e.natAbs))
  else if x.isZero then some x
  else if 0 < e then none
  else scale? (x.quotient (.powerOfTen 308)) (e + 308)
termination_by e.natAbs
decreasing_by omega

/-- The sign put before a number that has none. -/
def signed (minus : Bool) (x : Binary64) : Binary64 :=
  if minus then x.negate else x

/-- A numeral without fraction and power of ten: an integer when it fits 64 bits and is not a negative zero. -/
def wholeNumeral (minus : Bool) (n : Nat) : Number :=
  if minus then
    if 0 < n ∧ n ≤ Nat.pow 2 63 then .integer (-(n : Int)) else .float (signed true (.ofInt n))
  else .integer n

/-- A significand with its power of ten as a number. -/
def scaledNumeral (minus : Bool) (s : Significand) (rest : List Char) : Read Number :=
  match scale? (.ofInt s.value) s.power with
  | some x => .ok (.float (signed minus x), rest)
  | none => .error .malformed

/-- The written power of ten, behind its `e`: an optional sign and at least one digit. A power beyond 32 bits makes zero, or is
refused when it would make a number that is too large. -/
def readPower (minus : Bool) (s : Significand) (cs : List Char) : Read Number :=
  let (down, cs) :=
    match cs with
    | '+' :: r => (false, r)
    | '-' :: r => (true, r)
    | r => (false, r)
  match takeDigits cs with
  | ([], []) => .error .ended
  | ([], _ :: _) => .error .malformed
  | (ds, rest) =>
    let n : Nat := ds.foldl (fun n d => 10 * n + d) 0
    if n < Nat.pow 2 31 then
      let power := if down then s.power - (n : Int) else s.power + (n : Int)
      scaledNumeral minus { s with power := max (-Nat.pow 2 31 : Int) (min power (Nat.pow 2 31 - 1 : Int)) } rest
    else if s.value ≠ 0 ∧ !down then .error .malformed
    else .ok (.float (signed minus .zero), rest)

/-- What follows the fraction, or the integer part when there is none: a power of ten, or nothing more. -/
def readScaled (minus : Bool) (s : Significand) (cs : List Char) : Read Number :=
  match cs with
  | 'e' :: r => readPower minus s r
  | 'E' :: r => readPower minus s r
  | r => scaledNumeral minus s r

/-- A numeral after its sign. An integer part has no leading zero, and a point has a digit behind it. -/
def readNumeral (minus : Bool) (cs : List Char) : Read Number :=
  match takeDigits cs with
  | ([], []) => .error .ended
  | ([], _ :: _) => .error .malformed
  | (0 :: _ :: _, _) => .error .malformed
  | (ds, rest) =>
    let s := ds.foldl Significand.integerDigit ⟨0, 0, false⟩
    match rest with
    | '.' :: r =>
      match takeDigits r with
      | ([], []) => .error .ended
      | ([], _ :: _) => .error .malformed
      | (fs, r') => readScaled minus (fs.foldl Significand.fractionDigit { s with full := false }) r'
    | 'e' :: _ => readScaled minus s rest
    | 'E' :: _ => readScaled minus s rest
    | _ => if s.full then scaledNumeral minus s rest else .ok (wholeNumeral minus s.value, rest)

end DeviceCatalog.Json
