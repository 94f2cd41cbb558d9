import DeviceCatalog.CommandLine.Arguments
import DeviceCatalog.Generation

/-!
# The command line

Running a command on a file tree. `generate` writes the artifacts of the catalogs, `check` compares them with the disk; both render
the same artifacts first. The answer is an exit code, the notices that are urgent enough, and the lines for the error stream.
-/

namespace DeviceCatalog.CommandLine

/-- What a run of the program shows. -/
structure Answer where
  code : Nat
  notices : List Notice := []
  errorText : String := ""

/-- The code of a run that did what it was asked for. -/
def successCode : Nat := 0

/-- The code of a run that failed or found stale artifacts. -/
def failureCode : Nat := 1

/-- The code of a command line that cannot be read. -/
def usageCode : Nat := 2

/-- The notices that a verbosity lets through. -/
def Verbosity.admits : Verbosity → Notice.Level → Bool
  | _, .warning => true
  | .normal, .info | .detailed, .info => true
  | .detailed, .detail => true
  | _, _ => false

/-- A line of the error stream that states why a run failed. -/
def errorLine (text : String) : String := "Error: " ++ text ++ "\n"

/-- Where a tree's catalogs come from. -/
def catalogSource (t : FileTree) : Catalog.Source := t.readText

/-- The artifacts of a command's catalogs. -/
def Command.render (c : Command) (t : FileTree) : Logged Failure (List Artifact) :=
  Generation.fromFiles (catalogSource t) c.catalogs c.options c.paths

/-- The line for catalogs that cannot be rendered. -/
def Command.renderError (c : Command) (f : Failure) : String :=
  errorLine ("Failed to generate device types from " ++ c.catalogs ++ ": " ++ f.chain)

/-- The words for a stale artifact. -/
def stalenessWord : Artifact.Staleness → String
  | .missing => "missing"
  | .outdated => "out of date"

/-- The lines for stale artifacts. -/
def staleText (stale : List (Path × Artifact.Staleness)) : String :=
  String.join (stale.map fun (path, s) => "  " ++ path.text ++ " is " ++ stalenessWord s ++ "\n") ++
    errorLine (Text.decimal stale.length ++
      " generated device type files need regenerating; run `cargo run -p xtask -- devtypes-gen`")

/-- Rendered artifacts written to the tree. -/
def writeArtifacts (artifacts : List Artifact) (t : FileTree) : Answer × FileTree :=
  let (r, t') := Artifact.write artifacts t
  match r.outcome with
  | .ok w =>
    (⟨successCode, r.notices ++ [.filesWritten w.written.length w.unchanged.length], ""⟩, t')
  | .error f => (⟨failureCode, r.notices, errorLine f.chain⟩, t')

/-- Rendered artifacts compared with the tree. -/
def checkArtifacts (artifacts : List Artifact) (t : FileTree) : Answer :=
  match Artifact.check t artifacts with
  | [] => ⟨successCode, [.allUpToDate], ""⟩
  | stale => ⟨failureCode, [], staleText stale⟩

/-- A command run on a tree, with every notice. -/
def Command.perform (c : Command) (t : FileTree) : Answer × FileTree :=
  let r := c.render t
  match r.outcome with
  | .error f => (⟨failureCode, r.notices, c.renderError f⟩, t)
  | .ok artifacts =>
    let (answer, t') :=
      match c.verb with
      | .generate => writeArtifacts artifacts t
      | .check => (checkArtifacts artifacts t, t)
    ({ answer with notices := r.notices ++ answer.notices }, t')

/-- A command run on a tree, with the notices that its verbosity lets through. -/
def Command.run (c : Command) (t : FileTree) : Answer × FileTree :=
  let (answer, t') := c.perform t
  ({ answer with notices := answer.notices.filter fun n => c.verbosity.admits n.level }, t')

/-- The program run on a tree. -/
def run (env : Environment) (arguments : List String) (t : FileTree) : Answer × FileTree :=
  match parse? env arguments with
  | none => (⟨usageCode, [], ""⟩, t)
  | some .help => (⟨successCode, [], ""⟩, t)
  | some (.run c) => c.run t

end DeviceCatalog.CommandLine
