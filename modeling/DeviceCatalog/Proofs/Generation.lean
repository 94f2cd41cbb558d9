import DeviceCatalog.Generation
import DeviceCatalog.Proofs.Loading
import DeviceCatalog.Proofs.ModelBuild

/-!
# When a run succeeds and how it fails

A run passes its stages in order: the options, the list of catalogs, the files, the surviving entries, and the checks on the device
types. `Accepts` says that every stage is passed and `FirstFault` names the first one that is not, with the first file, entry or
device type that fails it.
-/

namespace DeviceCatalog

namespace Catalog

/-- For loaded device types different identifiers are the same as no two keys with one identifier. -/
theorem Loads.distinctNames_iff {source : Source} {paths : List Path} {devices : List DeviceType} (h : Loads source paths devices) :
    Model.DistinctNames devices ↔ Set.InjOn CSource.name {key | ∃ d ∈ devices, d.key = key} := by
  have hmem : ∀ key, key ∈ devices.map DeviceType.key ↔ ∃ d ∈ devices, d.key = key := fun key => List.mem_map
  constructor
  · intro hnames key hkey key' hkey' heq
    exact List.inj_on_of_nodup_map hnames ((hmem key).2 hkey) ((hmem key').2 hkey') heq
  · intro hinj
    refine List.Nodup.map_on (fun key hkey key' hkey' heq => ?_) h.keys_nodup
    exact hinj ((hmem key).1 hkey) ((hmem key').1 hkey') heq

end Catalog

namespace Generation

/-- All stages of a run are passed, with these device types. -/
structure Accepts (source : Catalog.Source) (list : String) (o : Options) (devices : List DeviceType) : Prop where
  options : o.validate = .ok ()
  paths : Catalog.splitPaths list ≠ []
  loads : Catalog.Loads source (Catalog.splitPaths list) devices
  sizes : ∀ d ∈ devices, d.laidOutSize = d.declaredBytes
  names : Set.InjOn CSource.name {key | ∃ d ∈ devices, d.key = key}
  positions : Model.PositionsFit devices

/-- The first stage of a run that is not passed, with the first thing that fails it. -/
inductive FirstFault (source : Catalog.Source) (list : String) (o : Options) : Failure → Prop where
  | options {f : Failure} (h : o.validate = .error f) : FirstFault source list o f
  | paths (ho : o.validate = .ok ()) (h : Catalog.splitPaths list = []) : FirstFault source list o (.invalidOption .noCatalog)
  | file {before after : List Path} {p : Path} {cause : CatalogFault} (ho : o.validate = .ok ())
      (hsplit : Catalog.splitPaths list = before ++ p :: after) (hbefore : ∀ q ∈ before, ∃ catalog, Catalog.Holds source q catalog)
      (h : Catalog.Refuses source p cause) : FirstFault source list o (.catalog p cause)
  | entry {before after : List Definition} {key : String} {p : Path} {e : Entry} {f : Failure} (ho : o.validate = .ok ())
      (hpaths : Catalog.splitPaths list ≠ [])
      (hdefs : Catalog.Surviving source (Catalog.splitPaths list) (before ++ (key, p, e) :: after))
      (hbefore : ∀ d ∈ before, ∃ device, d.2.2.Resolves d.1 device) (h : e.Faulty key p f) : FirstFault source list o f
  | model {devices : List DeviceType} {f : Failure} (ho : o.validate = .ok ()) (hpaths : Catalog.splitPaths list ≠ [])
      (hloads : Catalog.Loads source (Catalog.splitPaths list) devices) (h : Model.Refuses devices f) : FirstFault source list o f

/-- Once the options are valid rendering does not fail. -/
theorem exists_outcome_render (m : Model) {o : Options} (paths : OutputPaths) (h : o.validate = .ok ()) :
    ∃ artifacts, (render m o paths).outcome = .ok artifacts := by
  unfold render
  rw [Logged.outcome_bind, Logged.outcome_ofExcept, h]
  cases o.script with
  | none => exact ⟨_, rfl⟩
  | some s => exact ⟨_, rfl⟩

/-- A run goes through its stages in this order, and the first one that fails decides. -/
theorem outcome_fromFiles (source : Catalog.Source) (list : String) (o : Options) (paths : OutputPaths) :
    (fromFiles source list o paths).outcome = o.validate >>= fun _ => catalogPaths list >>= fun catalogs =>
      (Catalog.load source catalogs).outcome >>= fun devices =>
        (Model.build devices).outcome >>= fun m => (render m o paths).outcome := by
  simp only [fromFiles, fromDevices, Logged.outcome_bind, Logged.outcome_ofExcept, Logged.outcome_note, Outcome.ok_bind]

/-- A list with paths names catalogs. -/
theorem catalogPaths_eq_ok {list : String} (h : Catalog.splitPaths list ≠ []) :
    catalogPaths list = .ok (Catalog.splitPaths list) := by
  unfold catalogPaths
  split
  · rename_i hnil
    exact absurd hnil h
  · rfl

/-- A list without paths names no catalog. -/
theorem catalogPaths_eq_error {list : String} (h : Catalog.splitPaths list = []) :
    catalogPaths list = .error (.invalidOption .noCatalog) := by
  rw [catalogPaths, h]

/-- A run has artifacts exactly when it passes all stages. -/
theorem exists_outcome_fromFiles_eq_ok_iff {source : Catalog.Source} {list : String} {o : Options} {paths : OutputPaths} :
    (∃ artifacts, (fromFiles source list o paths).outcome = .ok artifacts) ↔ ∃ devices, Accepts source list o devices := by
  simp only [outcome_fromFiles, Outcome.bind_eq_ok_iff, Catalog.outcome_load_eq_ok_iff]
  constructor
  · intro h
    obtain ⟨artifacts, _, ho, catalogs, hcatalogs, devices, hloads, m, hm, -⟩ := h
    have hpaths : Catalog.splitPaths list ≠ [] := by
      intro hnil
      rw [catalogPaths_eq_error hnil] at hcatalogs
      cases hcatalogs
    rw [catalogPaths_eq_ok hpaths] at hcatalogs
    cases hcatalogs
    obtain ⟨hsizes, hnames, hpositions⟩ := Model.exists_outcome_build_eq_ok_iff.1 ⟨m, hm⟩
    exact ⟨devices, ho, hpaths, hloads, hsizes, hloads.distinctNames_iff.1 hnames, hpositions⟩
  · intro h
    obtain ⟨devices, ho, hpaths, hloads, hsizes, hnames, hpositions⟩ := h
    obtain ⟨m, hm⟩ := Model.exists_outcome_build_eq_ok_iff.2 ⟨hsizes, hloads.distinctNames_iff.2 hnames, hpositions⟩
    obtain ⟨artifacts, hartifacts⟩ := exists_outcome_render m paths ho
    exact ⟨artifacts, (), ho, _, catalogPaths_eq_ok hpaths, devices, hloads, m, hm, hartifacts⟩

/-- A run fails exactly with its first fault. -/
theorem outcome_fromFiles_eq_error_iff {source : Catalog.Source} {list : String} {o : Options} {paths : OutputPaths} {f : Failure} :
    (fromFiles source list o paths).outcome = .error f ↔ FirstFault source list o f := by
  rw [outcome_fromFiles]
  constructor
  · intro h
    rcases Outcome.bind_eq_error_iff.1 h with ho | ⟨_, ho, h⟩
    · exact .options ho
    by_cases hpaths : Catalog.splitPaths list = []
    · rw [catalogPaths_eq_error hpaths, Outcome.error_bind] at h
      cases h
      exact .paths ho hpaths
    rw [catalogPaths_eq_ok hpaths, Outcome.ok_bind] at h
    rcases Outcome.bind_eq_error_iff.1 h with hload | ⟨devices, hloads, h⟩
    · rcases Catalog.outcome_load_eq_error_iff.1 hload with hfile | ⟨before, ⟨key, p, e⟩, after, hdefs, hbefore, he⟩
      · obtain ⟨before, p, after, cause, hsplit, hbefore, hcause, rfl⟩ := hfile
        exact .file ho hsplit hbefore hcause
      · exact .entry ho hpaths hdefs hbefore he
    · rcases Outcome.bind_eq_error_iff.1 h with hbuild | ⟨m, -, hrender⟩
      · exact .model ho hpaths (Catalog.outcome_load_eq_ok_iff.1 hloads) (Model.outcome_build_eq_error_iff.1 hbuild)
      · obtain ⟨artifacts, hartifacts⟩ := exists_outcome_render m paths ho
        rw [hartifacts] at hrender
        cases hrender
  · intro h
    cases h with
    | options h => rw [h, Outcome.error_bind]
    | paths ho h => rw [ho, Outcome.ok_bind, catalogPaths_eq_error h, Outcome.error_bind]
    | @file before after p cause ho hsplit hbefore h =>
      have hpaths : Catalog.splitPaths list ≠ [] := by
        rw [hsplit]
        exact List.append_ne_nil_of_right_ne_nil _ (List.cons_ne_nil _ _)
      have hload : (Catalog.load source (Catalog.splitPaths list)).outcome = .error (.catalog p cause) :=
        Catalog.outcome_load_eq_error_iff.2 (Or.inl ⟨before, p, after, cause, hsplit, hbefore, h, rfl⟩)
      rw [ho, Outcome.ok_bind, catalogPaths_eq_ok hpaths, Outcome.ok_bind, hload, Outcome.error_bind]
    | entry ho hpaths hdefs hbefore h =>
      have hload := Catalog.outcome_load_eq_error_iff.2 (Or.inr ⟨_, _, _, hdefs, hbefore, h⟩)
      rw [ho, Outcome.ok_bind, catalogPaths_eq_ok hpaths, Outcome.ok_bind, hload, Outcome.error_bind]
    | model ho hpaths hloads h =>
      rw [ho, Outcome.ok_bind, catalogPaths_eq_ok hpaths, Outcome.ok_bind, Catalog.outcome_load_eq_ok_iff.2 hloads, Outcome.ok_bind,
        Model.outcome_build_eq_error_iff.2 h, Outcome.error_bind]

/-- A run has artifacts exactly when its options are valid, its list names a catalog, every file holds one, every surviving entry
resolves, every layout has the declared size, the keys make different identifiers and all positions fit. Otherwise it fails with the
first fault in the order of these stages and, within a stage, of the files, the surviving entries or the device types. -/
theorem fromFiles_fails_at_first_fault (source : Catalog.Source) (list : String) (o : Options) (paths : OutputPaths) :
    ((∃ artifacts, (fromFiles source list o paths).outcome = .ok artifacts) ↔ ∃ devices, Accepts source list o devices) ∧
      ∀ f, (fromFiles source list o paths).outcome = .error f ↔ FirstFault source list o f :=
  ⟨exists_outcome_fromFiles_eq_ok_iff, fun _ => outcome_fromFiles_eq_error_iff⟩

end Generation

end DeviceCatalog
