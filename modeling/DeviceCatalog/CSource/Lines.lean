import DeviceCatalog.CSource.Item

/-!
# Source lines

How a text is cut into the lines that a compiler of C sees. A line ends at a line feed, at a carriage return or at both in this order, and
a line that ends in a backslash goes on with the next one. Trigraphs are taken as they stand.
-/

namespace DeviceCatalog.CSource

/-- The character ends a line. -/
def endsLine (c : Char) : Bool := c == '\n' || c == '\r'

/-- The lines of what stands behind a character, which may be a carriage return: a line feed that follows it ends the same line. -/
def linesBehind (afterReturn : Bool) : List Char → List (List Char)
  | [] => []
  | c :: cs =>
    if afterReturn && c == '\n' then linesBehind false cs
    else if endsLine c then [] :: linesBehind (c == '\r') cs
    else
      match linesBehind false cs with
      | [] => [[c]]
      | l :: ls => (c :: l) :: ls

/-- The lines of a text as it is written, without what ends them. -/
def lines (cs : List Char) : List (List Char) := linesBehind false cs

/-- The line goes on with the next one. -/
def continues (l : List Char) : Bool := l.getLast? == some '\\'

/-- Lines that go on joined with those that they go on with. -/
def splice : List (List Char) → List (List Char)
  | [] => []
  | l :: ls =>
    if continues l then
      match splice ls with
      | [] => [l]
      | m :: ms => (l.dropLast ++ m) :: ms
    else l :: splice ls

/-- The lines of a text as a compiler sees them. -/
def sourceLines (s : String) : List (List Char) := splice (lines s.toList)

/-- Nothing in the text ends a line. -/
def Unbroken (l : List Char) : Prop := ∀ c ∈ l, endsLine c = false

/-- The text can be a source line: nothing in it ends a line, and it does not go on with the next one. -/
def OneLine (l : List Char) : Prop := Unbroken l ∧ continues l = false

/-- The text consists of whole lines, each with its end. -/
def Complete (cs : List Char) : Prop := cs = [] ∨ ∃ before, cs = before ++ ['\n']

/-- The number of lines of some items as they are written. -/
def lineCount (items : List Item) : Nat := (lines (fileText items).toList).length

end DeviceCatalog.CSource
