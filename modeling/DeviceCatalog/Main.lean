import DeviceCatalog.CommandLine

/-!
# The program

The command line on a real disk. The part of the disk that the command names is read into a file tree, the command is run on the
tree, and what it added is put on the disk: directories are made and every file is moved into place as a whole.
-/

namespace DeviceCatalog.Program

/-- The path of a place from the root of the disk. -/
def placeText (names : List String) : String :=
  "/" ++ String.intercalate "/" names

/-- What is on the disk under a path whose directory is there. Reading a directory is the wrong kind of operation for it. -/
def probe (path : String) : IO (Option FileEntry) := do
  try
    return some (.file (← IO.FS.readBinFile path))
  catch e =>
    match e with
    | .inappropriateType _ _ _ => return some .directory
    | _ => return none

/-- One step on the disk, the entry at its end put into the tree. -/
def explore (state : FileTree × Place) (s : Path.Step) : IO (FileTree × Place) := do
  let (t, p) := state
  match t.step p s with
  | .error _ => return state
  | .ok q =>
    if (t.at? q).isSome then return (t, q)
    else
      match ← probe (placeText (q.reverse.map FileName.text)) with
      | some e => return (t.set q e, q)
      | none => return (t, q)

/-- The tree with everything that lies along a path. -/
def explorePath (t : FileTree) (path : Path) : IO FileTree := do
  let (t, _) ← path.steps.foldlM explore (t, if path.absolute then [] else t.start)
  return t

/-- The paths that a command reads or writes. -/
def namedPaths (c : CommandLine.Command) : List Path :=
  Catalog.splitPaths c.catalogs ++ [c.paths.deviceTable, c.paths.pollRecords] ++ c.paths.symbolTable.toList ++
    c.paths.decoderHeader.toList ++ c.paths.decoderSource.toList

/-- The part of the disk that a command names. -/
def readDisk (c : CommandLine.Command) : IO FileTree := do
  let ⟨directory⟩ ← IO.currentDir
  let here : Path := ⟨directory⟩
  let t ← explorePath {} here
  let start := here.steps.foldl (fun (p : Place) s =>
    match s with
    | .down name => .given name :: p
    | _ => p) []
  (namedPaths c).foldlM explorePath { t with start := start }

/-- An entry put on the disk; a file is staged and moved into place. -/
def putOnDisk (entry : List String × FileEntry) : IO Unit := do
  let path := placeText entry.1
  match entry.2 with
  | .directory => IO.FS.createDirAll path
  | .file bytes =>
    let staged := path ++ ".staged"
    IO.FS.writeBinFile staged bytes
    IO.FS.rename staged path

/-- The word for the urgency of a notice, at its printed width. -/
def levelWord : Notice.Level → String
  | .warning => "WARN "
  | .info => "INFO "
  | .detail => "DEBUG"

/-- A command run on the disk. -/
def runCommand (c : CommandLine.Command) : IO UInt32 := do
  let before ← readDisk c
  let (answer, after) := c.run before
  try
    (before.additions after).forM putOnDisk
    answer.notices.forM fun n => IO.println (levelWord n.level ++ " [devtypes] " ++ n.message)
    IO.eprint answer.errorText
    return UInt32.ofNat answer.code
  catch e =>
    IO.eprint (CommandLine.errorLine (toString e))
    return UInt32.ofNat CommandLine.failureCode

/-- How the program is called. -/
def usage : String :=
  "usage: [-v | -q] (devtypes-gen | devtypes-check) [OPTIONS] JSON_PATHS DEV_TYPE_HEADER DEV_POLL_HEADER"

/-- The variables that settings fall back on, as they are set. -/
def readEnvironment : IO CommandLine.Environment := do
  let names := [CommandLine.Setting.timestampBytes, .pollResolution].filterMap CommandLine.Setting.variable?
  let found ← names.mapM fun name => do
    let value ← IO.getEnv name
    return value.map fun v => (name, v)
  return found.filterMap id

end DeviceCatalog.Program

open DeviceCatalog in
/-- The program. -/
def main (arguments : List String) : IO UInt32 := do
  match CommandLine.parse? (← Program.readEnvironment) arguments with
  | some (.run c) => Program.runCommand c
  | some .help =>
    IO.println Program.usage
    return UInt32.ofNat CommandLine.successCode
  | none =>
    IO.eprintln Program.usage
    return UInt32.ofNat CommandLine.usageCode
