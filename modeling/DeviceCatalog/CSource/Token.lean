import DeviceCatalog.CSource.Literal
import DeviceCatalog.CSource.Name

/-!
# Tokens of emitted tables

Table text read back as a compiler reads it. Names and numbers are the longest runs of name characters, and a lone `R` in front of a
double quote begins a raw string literal: its delimiter goes up to the first opening parenthesis, its text up to the first closing
parenthesis that the delimiter and a quote follow. Every other character is a token of its own, blanks apart.
-/

namespace DeviceCatalog.CSource

/-- What a cell of a table says: the text of a raw literal, or a name or a number as it is written. -/
inductive Cell where
  | text (s : String)
  | word (w : String)
deriving DecidableEq

/-- A token of a table. -/
inductive Token where
  | cell (c : Cell)
  | mark (c : Char)
deriving DecidableEq

/-- A character that only separates tokens. -/
def isSpace (c : Char) : Bool :=
  c = ' ' || c = '\n' || c = '\t' || c = '\r'

/-- What stands before the first occurrence of an ending and what stands behind it. -/
def cutEnding? (ending : List Char) : List Char → Option (List Char × List Char)
  | [] => none
  | c :: cs =>
    if ending.isPrefixOf (c :: cs) then some ([], (c :: cs).drop ending.length)
    else (cutEnding? ending cs).map fun (a, b) => (c :: a, b)

/-- The text of a raw literal, from behind its opening quote, and what stands behind the literal. -/
def readRaw? (cs : List Char) : Option (List Char × List Char) :=
  match Text.cutFirst? '(' cs with
  | some (delimiter, body) => cutEnding? (rawEnding delimiter) body
  | none => none

/-- The token that begins with a character, and what stands behind it. -/
def nextToken? (c : Char) (cs : List Char) : Option (Token × List Char) :=
  if isNameChar c then
    match c :: cs.takeWhile isNameChar, cs.dropWhile isNameChar with
    | ['R'], '"' :: body => (readRaw? body).map fun (s, rest) => (.cell (.text (String.ofList s)), rest)
    | word, rest => some (.cell (.word (String.ofList word)), rest)
  else some (.mark c, cs)

/-- What stands behind an ending is not longer than the text. -/
theorem length_of_cutEnding? {ending cs a b : List Char} (h : cutEnding? ending cs = some (a, b)) : b.length ≤ cs.length := by
  induction cs generalizing a with
  | nil => cases h
  | cons c cs ih =>
    rw [cutEnding?] at h
    split at h
    · cases h
      rw [List.length_drop]
      omega
    · obtain ⟨⟨a', b'⟩, hcut, heq⟩ := Option.map_eq_some_iff.1 h
      cases heq
      have hlen := ih hcut
      rw [List.length_cons]
      omega

/-- What stands behind a raw literal is not longer than the text. -/
theorem length_of_readRaw? {cs text rest : List Char} (h : readRaw? cs = some (text, rest)) : rest.length ≤ cs.length := by
  unfold readRaw? at h
  split at h
  · rename_i delimiter body hcut
    have hbody := length_of_cutEnding? h
    rw [Text.eq_append_of_cutFirst? hcut, List.length_append, List.length_cons]
    omega
  · cases h

/-- A token takes at least the character that begins it. -/
theorem length_of_nextToken? {c : Char} {cs rest : List Char} {t : Token} (h : nextToken? c cs = some (t, rest)) :
    rest.length ≤ cs.length := by
  have hdrop : (cs.dropWhile isNameChar).length ≤ cs.length := (List.dropWhile_sublist _).length_le
  unfold nextToken? at h
  split at h
  · split at h
    · rename_i body _ heq
      obtain ⟨⟨s, r⟩, hraw, hpair⟩ := Option.map_eq_some_iff.1 h
      cases hpair
      have hlen := length_of_readRaw? hraw
      rw [heq, List.length_cons] at hdrop
      omega
    · cases h
      exact hdrop
  · cases h
    exact Nat.le_refl _

/-- The tokens of a text; there are none when a raw literal does not end. -/
def tokens? : List Char → Option (List Token)
  | [] => some []
  | c :: cs =>
    if isSpace c then tokens? cs
    else
      match _h : nextToken? c cs with
      | some (t, rest) => (tokens? rest).map (t :: ·)
      | none => none
termination_by cs => cs.length
decreasing_by
  · exact Nat.lt_succ_self _
  · exact Nat.lt_succ_of_le (length_of_nextToken? _h)

end DeviceCatalog.CSource
