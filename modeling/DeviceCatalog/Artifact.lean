import DeviceCatalog.Task

/-!
# Artifacts on disk

An artifact is a file of a run: where it goes and its whole text. Writing happens in two steps: every artifact that is not current
is staged next to its destination, and only when all are staged are they moved into place, one after the other. An artifact whose file
already holds its text is left alone. When a step fails, the files that were staged and not yet moved are discarded.
-/

namespace DeviceCatalog

/-- A file of a run. -/
structure Artifact where
  path : Path
  contents : String
deriving DecidableEq

namespace Artifact

/-- The bytes of an artifact. -/
def bytes (a : Artifact) : ByteArray := a.contents.toUTF8

/-- The file at the artifact's path holds exactly its text. -/
def isCurrent (t : FileTree) (a : Artifact) : Bool :=
  match t.readBytes a.path with
  | .ok bytes => bytes == a.bytes
  | .error _ => false

/-- How a file on disk differs from its artifact. -/
inductive Staleness where
  | missing
  | outdated
deriving DecidableEq

/-- How the file of an artifact differs from it, if it does. -/
def staleness? (t : FileTree) (a : Artifact) : Option Staleness :=
  if !t.exists? a.path then some .missing else if !a.isCurrent t then some .outdated else none

/-- The artifacts that differ from their files, in order. -/
def check (t : FileTree) (artifacts : List Artifact) : List (Path × Staleness) :=
  artifacts.filterMap fun a => (staleness? t a).map fun s => (a.path, s)

/-- The text of the first artifact whose path is the same as the given one. -/
def find? (artifacts : List Artifact) (path : Path) : Option String :=
  (artifacts.find? fun a => a.path.same path).map Artifact.contents

/-- What a write did. -/
structure Written where
  written : List Path
  unchanged : List Path

/-- The artifact put next to its destination, whose directory is made if it is missing: a new file is created there and the text is
written to it. Both may fail; what has been written by then is discarded in the end. -/
def stage (number : Nat) (a : Artifact) : Task Place := do
  let place ← Task.attempt (.write a.path) fun t => t.stagedPlace a.path number
  Task.attempt (.write a.path) fun t => t.fill place a.bytes
  pure place

/-- What staging came to: the staged artifacts with their places, and the paths left alone. -/
structure Staging where
  staged : List (Artifact × Place) := []
  unchanged : List Path := []

/-- Every artifact that is not current is staged, the others are reported. -/
def stageAll (number : Nat) : List Artifact → Task Staging
  | [] => pure {}
  | a :: rest => do
    let current ← Task.inspect fun t => a.isCurrent t
    if current then
      Task.note (.upToDate a.path)
      let s ← stageAll number rest
      pure { s with unchanged := a.path :: s.unchanged }
    else
      let place ← stage number a
      let s ← stageAll (number + 1) rest
      pure { s with staged := (a, place) :: s.staged }

/-- Every staged artifact is moved to its destination and reported. -/
def moveAll : List (Artifact × Place) → Task Unit
  | [] => pure ()
  | (a, place) :: rest => do
    Task.attemptChange (.write a.path) fun t => t.move place a.path
    Task.note (.wrote a.path)
    moveAll rest

/-- Stages what is not current, then moves it into place. -/
def stageAndMove (artifacts : List Artifact) : Task Written := do
  let s ← stageAll 0 artifacts
  moveAll s.staged
  pure ⟨s.staged.map fun (a, _) => a.path, s.unchanged⟩

/-- Writes every artifact that is not current. -/
def write (artifacts : List Artifact) : Task Written :=
  (stageAndMove artifacts).andThen FileTree.discardStaged

end Artifact

end DeviceCatalog
