import DeviceCatalog.CSource.Expr
import DeviceCatalog.DeviceType

/-!
# Scaled values

The expression that turns the raw value of a field into the decoded one: divided by the divisor, then moved by the offset. A value
wanted as a float uses float literals, a value wanted as an integer uses the numbers as integer arithmetic writes them. A value
that is not scaled is at most converted.
-/

namespace DeviceCatalog.Artifact

open CSource

/-- The literal of a divisor or an offset. -/
def scaleLiteral : OutputKind → Binary64 → Expr
  | .float, x => .single x
  | .int, x => .number x

/-- The decoded value of an attribute whose raw value is given. -/
def scaledValue (a : Attribute) (raw : Expr) : Expr :=
  if a.isScaled then
    let quotient := Expr.group (.binary .div raw (scaleLiteral a.outputKind a.divisor))
    let distance := scaleLiteral a.outputKind a.offset.abs
    if a.offset.isPositive then .binary .add quotient distance
    else if a.offset.isNegative then .binary .sub quotient distance
    else quotient
  else
    match a.outputKind with
    | .float => .cast .float raw
    | .int => raw

end DeviceCatalog.Artifact
