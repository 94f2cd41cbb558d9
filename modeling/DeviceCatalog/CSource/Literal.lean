import DeviceCatalog.Text.Pieces

/-!
# String literals of C and C++

A text as a C string literal, with the characters escaped that would end the literal or its line, and as a C++ raw string literal,
which holds the text as it is. A raw literal ends at its first closing parenthesis that is followed by its delimiter and a quote;
a text that holds the plain ending gets a delimiter whose ending it does not hold.
-/

namespace DeviceCatalog.CSource

/-- One character inside a C string literal. -/
def literalChar (c : Char) : List Char :=
  if c = '"' then ['\\', '"']
  else if c = '\\' then ['\\', '\\']
  else if c = '\n' then ['\\', 'n']
  else if c = '\r' then ['\\', 'r']
  else if c = '\t' then ['\\', 't']
  else [c]

/-- A text as a C string literal. -/
def stringLiteral (text : List Char) : List Char :=
  '"' :: text.flatMap literalChar ++ ['"']

/-- The characters that end a raw literal with the given delimiter. -/
def rawEnding (delimiter : List Char) : List Char :=
  ')' :: delimiter ++ ['"']

/-- A named delimiter, by its number of underscores. -/
def namedDelimiter (underscores : Nat) : List Char :=
  ['r', 'a', 'w'] ++ List.replicate underscores '_'

/-- The first delimiter whose ending the text does not hold: none, or a named one with as few underscores as possible. A delimiter
that is longer than the text is always free. -/
def rawDelimiter (text : List Char) : List Char :=
  if Text.occursIn (rawEnding []) text then
    let free (n : Nat) : Bool := !Text.occursIn (rawEnding (namedDelimiter n)) text
    namedDelimiter (((List.range (text.length + 1)).find? free).getD text.length)
  else []

/-- A text as a C++ raw string literal. -/
def rawLiteral (text : List Char) : List Char :=
  let delimiter := rawDelimiter text
  ['R', '"'] ++ delimiter ++ '(' :: text ++ rawEnding delimiter

end DeviceCatalog.CSource
