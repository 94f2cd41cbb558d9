import DeviceCatalog.Proofs.Generation

/-!
# What rendering reads and where artifacts go

Rendering depends on nothing but the texts of the listed catalogs, the options and the output paths. Its artifacts go to the output paths
that the options call for, in a fixed order.
-/

namespace DeviceCatalog

/-- The output paths that a run with some options uses, in the order of its artifacts. -/
def OutputPaths.used (paths : OutputPaths) (o : Options) : List Path :=
  [paths.pollRecords, paths.deviceTable] ++
    if o.script.isSome then paths.symbolTable.toList ++ paths.decoderHeader.toList ++ paths.decoderSource.toList else []

namespace Catalog

/-- Merging depends on the given files only. -/
theorem mergeFrom_congr {source source' : Source} {paths : List Path} (h : ∀ p ∈ paths, source' p = source p) (m : Merged) :
    mergeFrom source' m paths = mergeFrom source m paths := by
  unfold mergeFrom
  induction paths generalizing m with
  | nil => rfl
  | cons p paths ih =>
    obtain ⟨hp, hpaths⟩ := List.forall_mem_cons.1 h
    have hread : read source' p = read source p := by rw [read, read, hp]
    rw [List.foldlM_cons, List.foldlM_cons, hread]
    exact congrArg (_ >>= ·) (funext (ih hpaths))

/-- Loading reads the listed catalogs and nothing else. -/
theorem load_congr {source source' : Source} {paths : List Path} (h : ∀ p ∈ paths, source' p = source p) :
    load source' paths = load source paths := by
  rw [load, load, mergeFrom_congr h]

/-- A catalog that was loaded has a text. -/
theorem Loads.exists_text {source : Source} {paths : List Path} {devices : List DeviceType} (h : Loads source paths devices) {p : Path}
    (hp : p ∈ paths) : ∃ text, source p = .ok text := by
  obtain ⟨defs, ⟨catalogs, hholds, -⟩, -⟩ := h
  induction hholds with
  | nil => cases hp
  | cons hfirst _ ih =>
    rcases List.mem_cons.1 hp with rfl | hp
    · obtain ⟨text, -, htext, -⟩ := hfirst
      exact ⟨text, htext⟩
    · exact ih hp

end Catalog

namespace Generation

/-- The catalogs are the paths of the list. -/
theorem eq_splitPaths_of_catalogPaths {list : String} {catalogs : List Path} (h : catalogPaths list = .ok catalogs) :
    catalogs = Catalog.splitPaths list := by
  unfold catalogPaths at h
  split at h
  · cases h
  · exact (Except.ok.inj h).symm

/-- Two sources with the same texts for the listed catalogs give the same artifacts, with the same notices. -/
theorem fromFiles_congr {source source' : Catalog.Source} {list : String} (h : ∀ p ∈ Catalog.splitPaths list, source' p = source p)
    (o : Options) (paths : OutputPaths) : fromFiles source' list o paths = fromFiles source list o paths := by
  unfold fromFiles
  refine congrArg (Logged.ofExcept o.validate >>= ·) (funext fun _ => ?_)
  cases hlist : catalogPaths list with
  | error f => rfl
  | ok catalogs =>
    have hpure : (Logged.ofExcept (.ok catalogs) : Logged Failure (List Path)) = pure catalogs := rfl
    have hcatalogs := eq_splitPaths_of_catalogPaths hlist
    rw [hpure, pure_bind, pure_bind, Catalog.load_congr (hcatalogs ▸ h)]

/-- With valid options and device types loaded, a run gives what it gives from the device types. -/
theorem outcome_fromFiles_of_load {source : Catalog.Source} {list : String} {catalogs : List Path} {devices : List DeviceType} {o : Options}
    (ho : o.validate = .ok ()) (hlist : catalogPaths list = .ok catalogs) (hload : (Catalog.load source catalogs).outcome = .ok devices)
    (paths : OutputPaths) : (fromFiles source list o paths).outcome = (fromDevices devices o paths).outcome := by
  rw [outcome_fromFiles, ho, Outcome.ok_bind, hlist, Outcome.ok_bind, hload, Outcome.ok_bind, fromDevices, Logged.outcome_bind]

/-- Every listed catalog of a run that has artifacts has a text. -/
theorem exists_text_of_fromFiles {source : Catalog.Source} {list : String} {o : Options} {paths : OutputPaths} {artifacts : List Artifact}
    (h : (fromFiles source list o paths).outcome = .ok artifacts) {p : Path} (hp : p ∈ Catalog.splitPaths list) :
    ∃ text, source p = .ok text := by
  obtain ⟨devices, haccepts⟩ := exists_outcome_fromFiles_eq_ok_iff.1 ⟨artifacts, h⟩
  exact haccepts.loads.exists_text hp

/-- The artifacts of the bindings go to the paths that are given for them. -/
theorem map_path_bindingArtifacts (b : Artifact.Bindings) (paths : OutputPaths) :
    (bindingArtifacts b paths).map Artifact.path =
      paths.symbolTable.toList ++ paths.decoderHeader.toList ++ paths.decoderSource.toList := by
  unfold bindingArtifacts
  cases paths.symbolTable <;> cases paths.decoderHeader <;> cases paths.decoderSource <;> rfl

/-- The artifacts go to the output paths in use. -/
theorem map_path_of_render {m : Model} {o : Options} {paths : OutputPaths} {artifacts : List Artifact}
    (h : (render m o paths).outcome = .ok artifacts) : artifacts.map Artifact.path = paths.used o := by
  unfold render at h
  rw [Logged.outcome_bind] at h
  obtain ⟨_, -, h⟩ := Outcome.bind_eq_ok_iff.1 h
  unfold OutputPaths.used
  cases hscript : o.script with
  | none =>
    rw [hscript] at h
    cases h
    rfl
  | some s =>
    rw [hscript] at h
    obtain ⟨b, -, h⟩ := Outcome.bind_eq_ok_iff.1 ((Logged.outcome_bind _ _).symm.trans h)
    cases h
    rw [List.map_append, map_path_bindingArtifacts]
    rfl

/-- The artifacts of a run go to the output paths in use, in order. -/
theorem map_path_of_fromFiles {source : Catalog.Source} {list : String} {o : Options} {paths : OutputPaths} {artifacts : List Artifact}
    (h : (fromFiles source list o paths).outcome = .ok artifacts) : artifacts.map Artifact.path = paths.used o := by
  rw [outcome_fromFiles] at h
  obtain ⟨_, -, h⟩ := Outcome.bind_eq_ok_iff.1 h
  obtain ⟨catalogs, -, h⟩ := Outcome.bind_eq_ok_iff.1 h
  obtain ⟨devices, -, h⟩ := Outcome.bind_eq_ok_iff.1 h
  obtain ⟨m, -, h⟩ := Outcome.bind_eq_ok_iff.1 h
  exact map_path_of_render h

end Generation

end DeviceCatalog
