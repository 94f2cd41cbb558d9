import DeviceCatalog.Binary64.Shortest
import DeviceCatalog.Text.Numeral

/-!
# Decimal text of a number

A number is written with the digits of its shortest decimal, in positional notation while it is neither very small nor very
large and with a power of ten otherwise. A `DecimalStyle` holds the choices that differ between the places where numbers appear.
-/

namespace DeviceCatalog.Binary64

/-- How a number is written: the least power of ten of a first digit that is still positional, whether a power of ten that is not
negative has a plus sign, and which of two equally near decimals is taken. The greatest positional power is 15 in every style. -/
structure DecimalStyle where
  leastPositional : Int
  plusSign : Bool
  tie : Tie

/-- Numbers in emitted source: positional from one ten-thousandth; a tie goes away from zero. -/
def DecimalStyle.source : DecimalStyle := ⟨-4, false, .awayFromZero⟩

/-- Numbers in JSON text: positional from one hundred-thousandth, with the sign of the power of ten always written; a tie goes to the
even digit. -/
def DecimalStyle.json : DecimalStyle := ⟨-5, true, .toEven⟩

/-- Positional notation, always with at least one digit on each side of the point. -/
def Digits.positional (d : Digits) : String :=
  let point := (d.digits.length : Int) + d.exponent
  let zeros (n : Int) := List.replicate n.toNat '0'
  if point ≤ 0 then String.ofList ('0' :: '.' :: zeros (-point) ++ d.digits)
  else if 0 ≤ d.exponent then String.ofList (d.digits ++ zeros d.exponent ++ ['.', '0'])
  else String.ofList (d.digits.take point.toNat ++ '.' :: d.digits.drop point.toNat)

/-- One digit, the others behind a point if there are any, and the power of ten. -/
def Digits.scientific (d : Digits) (plusSign : Bool) : String :=
  let power := (d.digits.length : Int) + d.exponent - 1
  let mantissa := d.digits.take 1 ++ (if d.digits.length ≤ 1 then [] else '.' :: d.digits.drop 1)
  let sign := if power < 0 then "-" else if plusSign then "+" else ""
  String.ofList mantissa ++ "e" ++ sign ++ Text.decimal power.natAbs

/-- The digits in the notation that the style prescribes for their size. -/
def Digits.text (d : Digits) (style : DecimalStyle) : String :=
  let power := (d.digits.length : Int) + d.exponent - 1
  if style.leastPositional ≤ power ∧ power ≤ 15 then d.positional else d.scientific style.plusSign

/-- The text of a number; zero keeps its sign. -/
def text (x : Binary64) (style : DecimalStyle) : String :=
  let sign := if x.negative then "-" else ""
  match x.kind with
  | .nan => "NaN"
  | .infinite => sign ++ "inf"
  | .finite m e => sign ++ (if m = 0 then "0.0" else (shortest style.tie m e).text style)

end DeviceCatalog.Binary64
