import DeviceCatalog.Text.Invisible
import DeviceCatalog.Text.Numeral

/-!
# The visible form of a text

Messages quote catalog text so that nothing in it is hidden: between double quotes, with a backslash before a quote or a
backslash, short escapes for the common controls, and the code point in place of any other character that cannot be seen. An
apostrophe needs no escape.
-/

namespace DeviceCatalog.Text

/-- One character of a visible form. -/
def visibleChar (c : Char) : String :=
  if c = '"' then "\\\""
  else if c = '\\' then "\\\\"
  else if c = '\n' then "\\n"
  else if c = '\r' then "\\r"
  else if c = '\t' then "\\t"
  else if c.toNat = 0 then "\\0"
  else if isInvisible c then "\\u\x7b" ++ hex c.toNat ++ "\x7d"
  else c.toString

/-- The text between double quotes, with everything a reader could not see escaped. -/
def visible (s : String) : String :=
  "\"" ++ String.join (s.toList.map visibleChar) ++ "\""

end DeviceCatalog.Text
