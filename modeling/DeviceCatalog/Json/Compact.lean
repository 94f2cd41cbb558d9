import DeviceCatalog.Binary64.Decimal
import DeviceCatalog.Json

/-!
# Compact JSON text

The text of a value without blanks, the members of an object in their order. A string escapes the double quote, the backslash
and the controls below U+0020 and nothing else.
-/

namespace DeviceCatalog.Json

/-- One character of a string's text. -/
def escapedChar (c : Char) : String :=
  if c = '"' then "\\\""
  else if c = '\\' then "\\\\"
  else if 0x20 ≤ c.toNat then c.toString
  else if c.toNat = 8 then "\\b"
  else if c = '\t' then "\\t"
  else if c = '\n' then "\\n"
  else if c.toNat = 12 then "\\f"
  else if c = '\r' then "\\r"
  else "\\u00" ++ Text.hexByte (UInt8.ofNat c.toNat)

/-- A string's text between its quotes. -/
def quoted (s : String) : String :=
  "\"" ++ String.join (s.toList.map escapedChar) ++ "\""

/-- A number's text. -/
def Number.text : Number → String
  | .integer n => Text.signedDecimal n
  | .float x => x.text .json

mutual

/-- The text of a value without blanks. -/
def compact : Json → String
  | .null => "null"
  | .bool b => if b then "true" else "false"
  | .number n => n.text
  | .string s => quoted s
  | .array items => "[" ++ String.intercalate "," (compactItems items) ++ "]"
  | .object ms => "\x7b" ++ String.intercalate "," (compactMembers ms) ++ "\x7d"

/-- The texts of the items of an array. -/
def compactItems : List Json → List String
  | [] => []
  | v :: vs => compact v :: compactItems vs

/-- The texts of the members of an object. -/
def compactMembers : List (String × Json) → List String
  | [] => []
  | (k, v) :: ms => (quoted k ++ ":" ++ compact v) :: compactMembers ms

end

end DeviceCatalog.Json
