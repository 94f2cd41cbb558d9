import DeviceCatalog.Artifact
import DeviceCatalog.Artifact.Bindings
import DeviceCatalog.Artifact.DeviceTable
import DeviceCatalog.Catalog

/-!
# Generation

From catalogs to artifacts. `render` gives the artifacts of a model in a fixed order: the poll records header, the device type table,
and, when script bindings are wanted, those of the symbol table, the decoder header and the decoder sources that have a path.
`fromFiles` checks the options, loads and merges the catalogs, builds the model and renders it; the first stage that fails decides.
-/

namespace DeviceCatalog

namespace Generation

/-- The name by which one artifact includes another: the last part of its path, or a default when that is no name. -/
def includeName (path : Path) (default : String) : String :=
  path.fileName?.getD default

/-- The include name of a poll records header whose path has none. -/
def defaultPollRecordsName : String := "DevicePollRecords_generated.h"

/-- The include name of a decoder header whose path has none. -/
def defaultDecoderHeaderName : String := "DeviceMPDecoders_generated.h"

/-- The artifact of some items. -/
def artifact (path : Path) (items : List CSource.Item) : Artifact :=
  ⟨path, CSource.fileText items⟩

/-- The artifacts of the native side. -/
def nativeArtifacts (m : Model) (o : Options) (paths : OutputPaths) : List Artifact :=
  [ artifact paths.pollRecords (Artifact.pollRecords m o),
    artifact paths.deviceTable
      (Artifact.deviceTable m o (includeName paths.pollRecords defaultPollRecordsName)) ]

/-- The artifacts of the bindings, of those that have a path. -/
def bindingArtifacts (b : Artifact.Bindings) (paths : OutputPaths) : List Artifact :=
  let headerName :=
    match paths.decoderHeader with
    | some p => includeName p defaultDecoderHeaderName
    | none => defaultDecoderHeaderName
  let recordsName := includeName paths.pollRecords defaultPollRecordsName
  (paths.symbolTable.map fun p => artifact p b.symbolTable).toList ++
    (paths.decoderHeader.map fun p => artifact p b.decoderHeader).toList ++
    (paths.decoderSource.map fun p => artifact p (b.decoderSource headerName recordsName)).toList

/-- The artifacts of a model, if the options are valid. -/
def render (m : Model) (o : Options) (paths : OutputPaths) : Logged Failure (List Artifact) := do
  Logged.ofExcept o.validate
  match o.script with
  | none => pure (nativeArtifacts m o paths)
  | some s =>
    let b ← Artifact.Bindings.ofModel m s
    pure (nativeArtifacts m o paths ++ bindingArtifacts b paths)

/-- The artifacts of some device types. -/
def fromDevices (devices : List DeviceType) (o : Options) (paths : OutputPaths) : Logged Failure (List Artifact) := do
  let m ← Model.build devices
  render m o paths

/-- The paths of a list of catalogs, of which there must be one at least. -/
def catalogPaths (list : String) : Except Failure (List Path) :=
  match Catalog.splitPaths list with
  | [] => .error (.invalidOption .noCatalog)
  | paths => .ok paths

/-- The artifacts of a list of catalogs. -/
def fromFiles (source : Catalog.Source) (list : String) (o : Options) (paths : OutputPaths) :
    Logged Failure (List Artifact) := do
  Logged.ofExcept o.validate
  let catalogs ← Logged.ofExcept (catalogPaths list)
  let devices ← Catalog.load source catalogs
  Logged.note (.catalogsMerged devices.length catalogs.length)
  fromDevices devices o paths

end Generation

end DeviceCatalog
