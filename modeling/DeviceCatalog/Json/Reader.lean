import DeviceCatalog.Json.Numeral
import DeviceCatalog.Text.Numeral

/-!
# Reading JSON text

A strict reader: blanks are space, tab, line feed and carriage return, strings hold no raw controls, surrogates come in pairs, and
at most 127 arrays and objects are open at once. `parse` says of a text that is no JSON whether it merely ended too early.

Every reader takes the characters that are left and gives its value with the rest. Loops over the items of one array or the
members of one object are bounded by the characters left; nesting is bounded by the depth.
-/

namespace DeviceCatalog.Json

/-- The text from its first character that is not blank. -/
def skipBlanks (cs : List Char) : List Char :=
  cs.dropWhile fun c => c = ' ' || c = '\t' || c = '\n' || c = '\r'

/-- Four hexadecimal digits. The text has ended when fewer than four bytes are left, whatever they are. -/
def readCodeUnit (cs : List Char) : Read Nat :=
  if (cs.take 4).foldl (fun n c => n + c.utf8Size) 0 < 4 then .error .ended
  else
    match cs with
    | a :: b :: c :: d :: rest =>
      match Text.hexDigit? a, Text.hexDigit? b, Text.hexDigit? c, Text.hexDigit? d with
      | some a, some b, some c, some d => .ok (((a * 16 + b) * 16 + c) * 16 + d, rest)
      | _, _, _, _ => .error .malformed
    | _ => .error .malformed

/-- A given character. -/
def readChar (expected : Char) : List Char → Read Unit
  | [] => .error .ended
  | c :: r => if c = expected then .ok ((), r) else .error .malformed

/-- The character that a code unit stands for; a leading surrogate needs its trailing one. -/
def readUnicode (cs : List Char) : Except Defect (Char × List Char) := do
  let (unit, r) ← readCodeUnit cs
  if 0xDC00 ≤ unit ∧ unit ≤ 0xDFFF then .error .malformed
  else if 0xD800 ≤ unit ∧ unit ≤ 0xDBFF then
    let ((), r) ← readChar '\\' r
    let ((), r) ← readChar 'u' r
    let (trail, r) ← readCodeUnit r
    if 0xDC00 ≤ trail ∧ trail ≤ 0xDFFF then
      .ok (Char.ofNat (0x10000 + (unit - 0xD800) * 0x400 + (trail - 0xDC00)), r)
    else .error .malformed
  else .ok (Char.ofNat unit, r)

/-- What stands behind a backslash. -/
def readEscape : List Char → Read Char
  | [] => .error .ended
  | '"' :: r => .ok ('"', r)
  | '\\' :: r => .ok ('\\', r)
  | '/' :: r => .ok ('/', r)
  | 'b' :: r => .ok (Char.ofNat 8, r)
  | 'f' :: r => .ok (Char.ofNat 12, r)
  | 'n' :: r => .ok ('\n', r)
  | 'r' :: r => .ok ('\r', r)
  | 't' :: r => .ok ('\t', r)
  | 'u' :: r => readUnicode r
  | _ :: _ => .error .malformed

/-- A string behind its opening quote; `done` holds the characters read, last first. -/
def readStringTail : (bound : Nat) → (done : List Char) → List Char → Read String
  | 0, _, _ => .error .ended
  | _ + 1, _, [] => .error .ended
  | n + 1, done, c :: r =>
    if c = '"' then .ok (String.ofList done.reverse, r)
    else if c = '\\' then
      match readEscape r with
      | .ok (e, r') => readStringTail n (e :: done) r'
      | .error d => .error d
    else if c.toNat < 0x20 then .error .malformed
    else readStringTail n (c :: done) r

/-- A string behind its opening quote. -/
def readString (cs : List Char) : Read String :=
  readStringTail (cs.length + 1) [] cs

/-- The rest of a word such as `null`. -/
def readWord (value : Json) : List Char → List Char → Except Defect (Json × List Char)
  | [], r => .ok (value, r)
  | w :: ws, cs => do
    let ((), r) ← readChar w cs
    readWord value ws r

/-- The items of an array behind its bracket. -/
def readItems (item : List Char → Read Json) :
    (bound : Nat) → (first : Bool) → (done : List Json) → List Char → Read (List Json)
  | 0, _, _, _ => .error .ended
  | n + 1, first, done, cs =>
    match skipBlanks cs with
    | [] => .error .ended
    | ']' :: r => .ok (done.reverse, r)
    | c :: r =>
      if first then
        match item (c :: r) with
        | .ok (v, r') => readItems item n false (v :: done) r'
        | .error d => .error d
      else if c = ',' then
        match skipBlanks r with
        | [] => .error .ended
        | ']' :: _ => .error .malformed
        | r' =>
          match item r' with
          | .ok (v, r'') => readItems item n false (v :: done) r''
          | .error d => .error d
      else .error .malformed

/-- A key behind its opening quote, the colon, and the value. -/
def readMember (item : List Char → Read Json) (cs : List Char) :
    Except Defect ((String × Json) × List Char) := do
  let (key, r) ← readString cs
  let ((), r) ← readChar ':' (skipBlanks r)
  let (v, r) ← item r
  .ok ((key, v), r)

/-- The members of an object behind its bracket. -/
def readMembers (item : List Char → Read Json) :
    (bound : Nat) → (first : Bool) → (done : List (String × Json)) → List Char → Read (List (String × Json))
  | 0, _, _, _ => .error .ended
  | n + 1, first, done, cs =>
    match skipBlanks cs with
    | [] => .error .ended
    | '\x7d' :: r => .ok (done, r)
    | c :: r =>
      -- the first member starts at once, the others behind a comma
      match if first then some (c :: r) else if c = ',' then some (skipBlanks r) else none with
      | none => .error .malformed
      | some [] => .error .ended
      | some ('"' :: r') =>
        match readMember item r' with
        | .ok ((key, v), r'') => readMembers item n false (setMember key v done) r''
        | .error d => .error d
      | some (_ :: _) => .error .malformed

/-- A value; `depth` is the number of brackets that may still be opened. -/
def readValue (depth : Nat) (cs : List Char) : Read Json :=
  match skipBlanks cs with
  | [] => .error .ended
  | c :: r =>
    if c = '"' then (readString r).map fun (s, r') => (.string s, r')
    else if c = '[' then
      match depth with
      | 0 => .error .malformed
      | d + 1 => (readItems (readValue d) (r.length + 1) true [] r).map fun (vs, r') => (.array vs, r')
    else if c = '\x7b' then
      match depth with
      | 0 => .error .malformed
      | d + 1 => (readMembers (readValue d) (r.length + 1) true [] r).map fun (ms, r') => (.object ms, r')
    else if c = 'n' then readWord .null ['u', 'l', 'l'] r
    else if c = 't' then readWord (.bool true) ['r', 'u', 'e'] r
    else if c = 'f' then readWord (.bool false) ['a', 'l', 's', 'e'] r
    else if c = '-' then (readNumeral true r).map fun (n, r') => (.number n, r')
    else if c.isDigit then (readNumeral false (c :: r)).map fun (n, r') => (.number n, r')
    else .error .malformed
termination_by structural depth

/-- The value that a whole text is. -/
def parse (text : String) : Except Defect Json := do
  let (v, r) ← readValue 127 text.toList
  match skipBlanks r with
  | [] => .ok v
  | _ :: _ => .error .malformed

end DeviceCatalog.Json
