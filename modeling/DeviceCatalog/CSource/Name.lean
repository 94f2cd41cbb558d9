/-!
# Identifiers of C

The identifier that stands for a name in emitted source: letters, digits and underscores are kept, every other character becomes
an underscore, and a leading digit gets one in front.
-/

namespace DeviceCatalog.CSource

/-- A letter, a digit or an underscore of the ASCII set. -/
def isNameChar (c : Char) : Bool :=
  c.isAlphanum || c = '_'

/-- The identifier for the characters of a name. -/
def nameChars (cs : List Char) : List Char :=
  let kept := cs.map fun c => if isNameChar c then c else '_'
  match cs with
  | c :: _ => if c.isDigit then '_' :: kept else kept
  | [] => kept

/-- The identifier for a name. -/
def name (s : String) : String :=
  String.ofList (nameChars s.toList)

end DeviceCatalog.CSource
