import DeviceCatalog.CSource.Value

/-!
# Texts of C

What a string literal stands for, read as a compiler reads it, and what C functions see of a text: they stop at its first NUL. So
`strcmp`, which emitted files only name, compares what stands in front of that.
-/

namespace DeviceCatalog.CSource

/-- The character that is written with a backslash and another character. -/
def escaped? (c : Char) : Option Char :=
  if c = '"' then some '"'
  else if c = '\\' then some '\\'
  else if c = 'n' then some '\n'
  else if c = 'r' then some '\r'
  else if c = 't' then some '\t'
  else none

/-- The text of a literal, from behind its opening quote, and what stands behind its closing one. A literal ends in its line. -/
def readQuoted? : List Char → Option (List Char × List Char)
  | [] => none
  | '"' :: rest => some ([], rest)
  | '\\' :: c :: rest =>
    match escaped? c, readQuoted? rest with
    | some d, some (text, rest) => some (d :: text, rest)
    | _, _ => none
  | c :: rest =>
    if c = '\n' ∨ c = '\r' then none else (readQuoted? rest).map fun (text, rest) => (c :: text, rest)

/-- The text of a literal, from its opening quote on, and what stands behind it. -/
def readLiteral? : List Char → Option (List Char × List Char)
  | '"' :: rest => readQuoted? rest
  | _ => none

/-- The characters in front of the first NUL of a text. -/
def beforeNul (s : String) : List Char :=
  s.toList.takeWhile fun c => c ≠ '\x00'

/-- The machine compares texts with `strcmp`: the answer is zero when the texts are the same up to the first NUL. -/
def Machine.ComparesTexts {α : Type} (M : Machine α) : Prop :=
  ∀ s t : String, ∃ n : Int, M.external "strcmp" [.text s, .text t] = .int .int n ∧ IntType.int.wrap n = n ∧
    (n = 0 ↔ beforeNul s = beforeNul t)

end DeviceCatalog.CSource
