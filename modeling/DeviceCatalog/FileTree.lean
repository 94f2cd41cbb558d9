import DeviceCatalog.DiskFault
import DeviceCatalog.Path

/-!
# File trees

The directories and files below a root, with the place from which relative paths start. A path is walked step by step: every step
leaves a place that must be a directory, and the last one may lead to a place where nothing is yet. Files on their way to their
destination have names of their own kind, which no path can spell, so they are never mistaken for a file that somebody wrote.

Below a tree there is a device. It may refuse any step of putting artifacts on the disk: making a directory, creating a file, writing its
bytes and moving it. So a disk that is full, broken or protected against changes is a tree with a device that refuses. What a tree leaves
out: links, so that every place has one name; files and directories that nobody may read; times, owners and permissions themselves; what
other programs do to the disk in the meantime; and that a file may stay where it is to be removed.
-/

namespace DeviceCatalog

/-- The name of a file or directory inside its directory. -/
inductive FileName where
  | given (text : String)
  /-- A file that is staged next to its destination. -/
  | staged (number : Nat)
deriving DecidableEq

/-- The text of a name. -/
def FileName.text : FileName → String
  | .given text => text
  | .staged n => ".staged" ++ toString n

/-- Where something is: the names from the innermost one outwards. The root has none. -/
abbrev Place := List FileName

/-- What is at a place. -/
inductive FileEntry where
  | directory
  | file (bytes : ByteArray)

/-- What a device does not do although every path lets it through, with what it says then. A run makes a directory at most once, and
creates, fills and moves a staged file at most once, so the place tells the occasion: a disk with room for two files does not fill the
third. -/
structure Device where
  /-- No directory is made at the place. -/
  directoryFault? : Place → Option DeviceFault := fun _ => none
  /-- No file is created at the place. -/
  fileFault? : Place → Option DeviceFault := fun _ => none
  /-- Only so many of the bytes are written to the new file at the place; all of them, when only the end of the writing goes wrong. -/
  writeFault? : Place → ByteArray → Option (Nat × DeviceFault) := fun _ _ => none
  /-- The file at the first place is not moved to the second one. -/
  moveFault? : Place → Place → Option DeviceFault := fun _ _ => none

/-- Directories and files. Every entry is found under its place with the depth of the place in front, so that a look-up passes over
places at other depths without comparing their names. -/
structure FileTree where
  entries : List ((Nat × Place) × FileEntry) := []
  /-- Where relative paths start. -/
  start : Place := []
  /-- The device that the tree is on. -/
  device : Device := {}

namespace FileTree

/-- What an entry at a place is found under. -/
def key (p : Place) : Nat × Place := (p.length, p)

/-- What is at a place; the root is always a directory. -/
def at? (t : FileTree) (p : Place) : Option FileEntry :=
  match p with
  | [] => some .directory
  | _ :: _ => t.entries.lookup (key p)

/-- There is a directory at a place. -/
def isDirectory (t : FileTree) (p : Place) : Bool :=
  match t.at? p with
  | some .directory => true
  | _ => false

/-- The tree with only the places that are kept. -/
def restrict (t : FileTree) (keep : Place → Bool) : FileTree :=
  { t with entries := t.entries.filter fun e => keep e.1.2 }

/-- The tree with an entry put at a place. -/
def set (t : FileTree) (p : Place) (e : FileEntry) : FileTree :=
  { t with entries := (key p, e) :: t.entries.filter fun old => old.1 ≠ key p }

/-- The tree without a place and everything below it. -/
def erase (t : FileTree) (p : Place) : FileTree :=
  t.restrict fun q => !p.isSuffixOf q

/-- The place is one of a file that is on its way to its destination. -/
def isStaged : Place → Bool
  | .staged _ :: _ => true
  | _ => false

/-- The tree without staged files. -/
def discardStaged (t : FileTree) : FileTree :=
  t.restrict fun q => !isStaged q

/-! ## Walking -/

/-- The greatest length of a name, in bytes. -/
def nameLimit : Nat := 255

/-- One step away from a place, which must be a directory. -/
def step (t : FileTree) (p : Place) (s : Path.Step) : Except DiskFault Place :=
  match t.at? p with
  | none => .error .notFound
  | some (.file _) => .error .notDirectory
  | some .directory =>
    match s with
    | .stay => .ok p
    | .up => .ok p.tail
    | .down name => if nameLimit < name.utf8ByteSize then .error .nameTooLong else .ok (.given name :: p)

/-- The place that some steps lead to. -/
def walk (t : FileTree) (p : Place) (steps : List Path.Step) : Except DiskFault Place :=
  steps.foldlM t.step p

/-- The number of bytes from which on a path is too long. -/
def pathLimit : Nat := 4096

/-- The place where a path starts. A path may not be empty nor too long nor hold a zero. -/
def origin (t : FileTree) (path : Path) : Except DiskFault Place :=
  if path.text.toList.contains (Char.ofNat 0) then .error .zeroInPath
  else if path.text.isEmpty then .error .notFound
  else if pathLimit ≤ path.text.utf8ByteSize then .error .nameTooLong
  else .ok (if path.absolute then [] else t.start)

/-- The place that a path leads to. -/
def resolve (t : FileTree) (path : Path) : Except DiskFault Place := do
  let p ← t.origin path
  t.walk p path.steps

/-! ## Reading -/

/-- The bytes of a file. -/
def readBytes (t : FileTree) (path : Path) : Except DiskFault ByteArray := do
  let p ← t.resolve path
  match t.at? p with
  | some (.file bytes) => .ok bytes
  | some .directory => .error .isDirectory
  | none => .error .notFound

/-- The text of a file. -/
def readText (t : FileTree) (path : Path) : Except DiskFault String := do
  let bytes ← t.readBytes path
  match String.fromUTF8? bytes with
  | some text => .ok text
  | none => .error .notText

/-- Something is where the path leads. -/
def exists? (t : FileTree) (path : Path) : Bool :=
  match t.resolve path with
  | .ok p => (t.at? p).isSome
  | .error _ => false

/-! ## Directories -/

/-- A directory made at a place where nothing is, unless the device refuses. -/
def makeDirectory (t : FileTree) (p : Place) : Except DiskFault Place × FileTree :=
  match t.device.directoryFault? p with
  | some fault => (.error (.device fault), t)
  | none => (.ok p, t.set p .directory)

/-- A directory one step away from a place. Only a name can be made, and only where nothing is; a directory that is there already is as
good as one that was made. -/
def makeNext (t : FileTree) (p : Place) (s : Path.Step) : Except DiskFault Place × FileTree :=
  match t.step p s with
  | .error fault => (.error fault, t)
  | .ok q =>
    match s, t.at? q with
    | .down _, none => t.makeDirectory q
    | _, some .directory => (.ok q, t)
    | _, _ => (.error .alreadyExists, t)

/-- A directory behind some steps, last step first; the directories around it must be there. -/
def makeBehind (t : FileTree) (origin : Place) : List Path.Step → Except DiskFault Place × FileTree
  | [] => (.ok origin, t)
  | last :: before =>
    match t.walk origin before.reverse with
    | .ok p => t.makeNext p last
    | .error fault => (.error fault, t)

/-- The directories along some steps, last step first: the innermost one is tried first, and those around it are made when they are
missing. What was made stays when a later one fails. -/
def makeAlong (t : FileTree) (origin : Place) : List Path.Step → Except DiskFault Place × FileTree
  | [] => (.ok origin, t)
  | last :: before =>
    match t.makeBehind origin (last :: before) with
    | (.error .notFound, _) =>
      match t.makeAlong origin before with
      | (.ok p, t') => t'.makeNext p last
      | (.error fault, t') => (.error fault, t')
    | result => result

/-- The directory that a path leads to, made with the ones around the last part of its name. An empty path means the start. -/
def createDirectories (t : FileTree) (path : Path) : Except DiskFault Place × FileTree :=
  if path.text.isEmpty then (.ok t.start, t)
  else
    match t.origin path with
    | .error fault => (.error fault, t)
    | .ok origin =>
      let reversed := path.withoutEndSlashes.steps.reverse
      match t.makeBehind origin reversed with
      | (.error .notFound, _) =>
        match t.makeAlong origin path.parts.dropLast.reverse with
        | (.ok _, t') => t'.makeBehind origin reversed
        | (.error fault, t') => (.error fault, t')
      | result => result

/-- The directory around what the path names, made with the ones around it. -/
def createParents (t : FileTree) (path : Path) : Except DiskFault Place × FileTree :=
  t.createDirectories path.around

/-! ## Replacing and removing -/

/-- The room for the name of a staged file, in bytes. -/
def stagedNameSize : Nat := 10

/-- The number of bytes of the path of a staged file, from the root on. -/
def stagedPathSize (t : FileTree) (directory : Path) : Nat :=
  let above := if directory.absolute then 0 else t.start.foldl (fun size n => size + (n.text.utf8ByteSize + 1)) 1
  above + directory.text.utf8ByteSize + 1 + stagedNameSize

/-- The place of a new staged file in the directory around what a path names, which is made if it is missing. -/
def stagedPlace (t : FileTree) (path : Path) (number : Nat) : Except DiskFault Place × FileTree :=
  match t.createParents path with
  | (.error fault, t') => (.error fault, t')
  | (.ok directory, t') =>
    if pathLimit ≤ t.stagedPathSize path.around then (.error .nameTooLong, t')
    else
      match t.device.fileFault? (.staged number :: directory) with
      | some fault => (.error (.device fault), t')
      | none => (.ok (.staged number :: directory), t')

/-- Bytes written to the new file at a place. When the device stops midway, the file holds what was written by then. -/
def fill (t : FileTree) (p : Place) (bytes : ByteArray) : Except DiskFault Unit × FileTree :=
  match t.device.writeFault? p bytes with
  | some (written, fault) => (.error (.device fault), t.set p (.file (bytes.extract 0 written)))
  | none => (.ok (), t.set p (.file bytes))

/-- Where a file can be put under a path: at a name without a slash behind it. The fault `slash` is what a slash at the end means for
the operation at hand, and `special` is what a last step means that is no name. -/
def destination (t : FileTree) (path : Path) (slash special : DiskFault) : Except DiskFault Place := do
  let origin ← t.origin path
  let steps := path.withoutEndSlashes.steps
  let p ← t.walk origin steps.dropLast
  let last := steps.getLast?.getD .stay
  let q ← t.step p last
  match last with
  | .down _ => if path.endsInSlash then .error slash else .ok q
  | _ => .error special

/-- A file moved from its place to where a path leads, over a file that may be there. -/
def move (t : FileTree) (source : Place) (path : Path) : Except DiskFault FileTree := do
  let q ← t.destination path .notDirectory (.device .inUse)
  match t.at? source with
  | some (.file bytes) =>
    match t.device.moveFault? source q with
    | some fault => .error (.device fault)
    | none => if t.isDirectory q then .error .isDirectory else .ok ((t.erase source).set q (.file bytes))
  | _ => .error .notFound

/-- Bytes written to the file at a path, whose directory must be there. -/
def writeBytes (t : FileTree) (path : Path) (bytes : ByteArray) : Except DiskFault FileTree := do
  let q ← t.destination path .isDirectory .isDirectory
  if t.isDirectory q then .error .isDirectory else .ok (t.set q (.file bytes))

/-- The file or the whole directory at a path removed. -/
def remove (t : FileTree) (path : Path) : Except DiskFault FileTree := do
  let p ← t.resolve path
  match t.at? p with
  | some _ => .ok (t.erase p)
  | none => .error .notFound

/-! ## Listing -/

/-- Every entry below a place with its names from there on, a directory before what it holds, the names of a directory in rising
order. -/
def listing (t : FileTree) (p : Place) : List (List String × FileEntry) :=
  let below := t.entries.filter fun e => p.isSuffixOf e.1.2 && e.1.2 ≠ p
  (below.map fun ((_, q), e) => ((q.reverse.drop p.length).map FileName.text, e)).mergeSort fun a b => ¬b.1 < a.1

/-- Nothing is at the place in this tree, or something else than the entry. -/
def lacks (t : FileTree) (p : Place) (e : FileEntry) : Bool :=
  match t.at? p, e with
  | some .directory, .directory => false
  | some (.file old), .file new => old != new
  | _, _ => true

/-- What has to be put into the first tree to make it hold what the second one holds, a directory before what it holds. -/
def additions (before after : FileTree) : List (List String × FileEntry) :=
  { after with entries := after.entries.filter fun ((_, p), e) => before.lacks p e }.listing []

end FileTree

end DeviceCatalog
