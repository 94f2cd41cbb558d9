import DeviceCatalog.Text.Pieces

/-!
# Paths

A path is a text cut at its slashes into steps: stay (an empty piece or a single dot), go up (two dots), or go down to a name.
Two paths are the same when they agree after dropping the steps that stay; only a dot at the very start counts.
-/

namespace DeviceCatalog

/-- A path as it is written. -/
structure Path where
  text : String
deriving DecidableEq, Inhabited

namespace Path

/-- One step along a path. -/
inductive Step where
  | stay
  | up
  | down (name : String)
deriving DecidableEq

/-- The step that a piece between slashes stands for. -/
def Step.ofPiece (piece : List Char) : Step :=
  if piece = [] ∨ piece = ['.'] then .stay
  else if piece = ['.', '.'] then .up
  else .down (String.ofList piece)

/-- Every step of the path, also those that stay: a path that ends in a slash ends by staying in what must be a directory. -/
def steps (p : Path) : List Step :=
  (Text.pieces '/' p.text.toList).map .ofPiece

/-- The path starts at the root. -/
def absolute (p : Path) : Bool :=
  p.text.toList.head? == some '/'

/-- The path starts with a single dot. -/
def startsHere (p : Path) : Bool :=
  (Text.pieces '/' p.text.toList).head? == some ['.']

/-- The steps that name the place: those that stay are dropped except a dot at the start. -/
def parts (p : Path) : List Step :=
  (if p.startsHere then [.stay] else []) ++ p.steps.filter (· ≠ .stay)

/-- The paths name the same place part by part. -/
def same (p q : Path) : Bool :=
  p.absolute == q.absolute && p.parts == q.parts

/-- The last part, if it is a name. -/
def fileName? (p : Path) : Option String :=
  match p.parts.getLast? with
  | some (.down name) => some name
  | _ => none

/-- The path of the directory around what the path names, without what stays at its end. It is empty when the path holds a single
part, which is found where relative paths start. -/
def around (p : Path) : Path :=
  let stays (piece : List Char) : Bool := Step.ofPiece piece == .stay
  let named := ((Text.pieces '/' p.text.toList).reverse.dropWhile stays).drop 1
  match named.dropWhile stays with
  | [] => ⟨if p.absolute then "/" else ""⟩
  | pieces => ⟨String.intercalate "/" (pieces.reverse.map String.ofList)⟩

/-- The path ends in a slash. -/
def endsInSlash (p : Path) : Bool :=
  p.text.toList.getLast? == some '/'

/-- The path without the slashes at its end. -/
def withoutEndSlashes (p : Path) : Path :=
  ⟨String.ofList (p.text.toList.reverse.dropWhile (· == '/')).reverse⟩

end Path

end DeviceCatalog
