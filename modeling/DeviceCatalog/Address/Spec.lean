import DeviceCatalog.Address
import DeviceCatalog.Failure
import DeviceCatalog.Logged
import DeviceCatalog.Text.Blank

/-!
# Address specs

A device type lists its addresses as tokens between commas, each a single address (`0x1d`) or an inclusive range (`0x20-0x27`).
Blank characters may surround the spec and every token. Order and repetitions are kept. A range that runs backwards holds no
addresses and is reported; a token of any other form is a failure that names the leftmost such token.
-/

namespace DeviceCatalog

namespace Address

/-- An address written as `0x` and exactly two hexadecimal digits of either case. -/
def parse? : List Char → Option Address
  | ['0', 'x', a, b] => do
    let high ← Text.hexDigit? a
    let low ← Text.hexDigit? b
    some (UInt8.ofNat (16 * high + low))
  | _ => none

/-- The first and the last address of a trimmed token; a single address is both. -/
def parseToken? (token : List Char) : Option (Address × Address) :=
  match Text.cutFirst? '-' token with
  | some (first, last) => do
    let a ← parse? first
    let b ← parse? last
    some (a, b)
  | none => (parse? token).map fun a => (a, a)

/-- The addresses of one trimmed token of a spec. -/
def readToken (spec : String) (token : List Char) : Logged Failure (List Address) :=
  match parseToken? token with
  | none => .fail (.malformedAddresses spec (String.ofList token))
  | some (first, last) => do
    if last < first then .note (.reversedRange (String.ofList token) spec)
    pure (span first last)

/-- The tokens of a spec, trimmed; a spec of blanks has none. -/
def tokens (spec : String) : List (List Char) :=
  match Text.trimList spec.toList with
  | [] => []
  | c :: cs => (Text.pieces ',' (c :: cs)).map Text.trimList

/-- The addresses that a spec stands for, in order. -/
def readSpec (spec : String) : Logged Failure (List Address) := do
  let found ← (tokens spec).mapM (readToken spec)
  pure found.flatten

end Address

end DeviceCatalog
