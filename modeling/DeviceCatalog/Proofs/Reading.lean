import DeviceCatalog.Catalog
import DeviceCatalog.Proofs.AddressSpec

/-!
# What a catalog holds and what an entry becomes

The outcome of reading one catalog and of resolving one entry, each as a relation beside its function: the catalogs that a source
holds (`Holds`) and the first thing wrong with the others (`Refuses`), the device types that entries become (`Resolves`) and the
first thing wrong with the other entries (`Faulty`).
-/

namespace DeviceCatalog

namespace Catalog

/-- The members of `devTypes` decode as the entries of the catalog. -/
def Decodes (members : List (String × Json)) (catalog : Catalog) : Prop :=
  List.Forall₂ (fun m x => x.1 = m.1 ∧ (Entry.decode m.2).outcome = .ok x.2) members catalog

/-- The source has a readable JSON text at the path, and its `devTypes`, if there is one, decodes as the catalog. -/
def Holds (source : Source) (p : Path) (catalog : Catalog) : Prop :=
  ∃ text root, source p = .ok text ∧ Json.parse text = .ok root ∧
    (root.member? "devTypes" = none ∧ catalog = [] ∨
      ∃ members, root.member? "devTypes" = some (.object members) ∧ Decodes members catalog)

/-- The first thing wrong at the path: the text cannot be read, it is no JSON, `devTypes` is no object, or an entry does not
decode. -/
inductive Refuses (source : Source) (p : Path) : CatalogFault → Prop where
  | disk {fault : DiskFault} (h : source p = .error fault) : Refuses source p (.disk fault)
  | json {text : String} {defect : Json.Defect} (htext : source p = .ok text) (h : Json.parse text = .error defect) :
      Refuses source p (.json defect)
  | notAnObject {text : String} {root v : Json} (htext : source p = .ok text) (hroot : Json.parse text = .ok root)
      (hmember : root.member? "devTypes" = some v) (h : ∀ members, v ≠ .object members) :
      Refuses source p (.schema .notAnObject)
  | entry {text : String} {root : Json} {before after : List (String × Json)} {key : String} {body : Json} {cause : Mismatch}
      (htext : source p = .ok text) (hroot : Json.parse text = .ok root)
      (hmember : root.member? "devTypes" = some (.object (before ++ (key, body) :: after)))
      (hbefore : ∀ m ∈ before, ∃ e, (Entry.decode m.2).outcome = .ok e) (h : (Entry.decode body).outcome = .error cause) :
      Refuses source p (.schema (.entry key cause))

/-- A member is decoded when its value is an entry. -/
theorem outcome_decodeMember_eq_ok_iff {p : Path} {m : String × Json} {x : String × Entry} :
    (decodeMember p m).outcome = .ok x ↔ x.1 = m.1 ∧ (Entry.decode m.2).outcome = .ok x.2 := by
  obtain ⟨key, entry⟩ := x
  rw [decodeMember, Logged.outcome_bind, Outcome.bind_eq_ok_iff]
  constructor
  · intro h
    obtain ⟨e, he, h⟩ := h
    cases h
    exact ⟨rfl, Outcome.mapError_eq_ok_iff.1 he⟩
  · intro h
    obtain ⟨hkey, he⟩ := h
    cases hkey
    exact ⟨entry, Outcome.mapError_eq_ok_iff.2 he, rfl⟩

/-- A member that is not decoded fails as its value does, and the failure names its key and the file. -/
theorem outcome_decodeMember_eq_error_iff {p : Path} {m : String × Json} {f : Failure} :
    (decodeMember p m).outcome = .error f ↔
      ∃ cause, (Entry.decode m.2).outcome = .error cause ∧ f = .catalog p (.schema (.entry m.1 cause)) := by
  rw [decodeMember, Logged.outcome_bind, Outcome.bind_eq_error_iff, Logged.outcome_mapError, Outcome.mapError_eq_error_iff]
  constructor
  · intro h
    rcases h with ⟨cause, hcause, rfl⟩ | ⟨_, _, h⟩
    · exact ⟨cause, hcause, rfl⟩
    · cases h
  · intro h
    obtain ⟨cause, hcause, rfl⟩ := h
    exact Or.inl ⟨cause, hcause, rfl⟩

/-- A catalog is read exactly when the source holds it. -/
theorem outcome_read_eq_ok_iff {source : Source} {p : Path} {catalog : Catalog} :
    (read source p).outcome = .ok catalog ↔ Holds source p catalog := by
  unfold read Holds
  cases htext : source p with
  | error fault => simp
  | ok text =>
    simp only [ofText, Except.ok.injEq, exists_and_left, exists_eq_left']
    cases hroot : Json.parse text with
    | error d => simp
    | ok root =>
      simp only [ofJson, Except.ok.injEq, exists_eq_left']
      cases hmember : root.member? "devTypes" with
      | none => simp [eq_comm]
      | some v =>
        cases v with
        | object members =>
          simp [Decodes, Logged.outcome_mapM, Outcome.mapM_eq_ok_iff, outcome_decodeMember_eq_ok_iff]
        | _ => simp

/-- A catalog is refused for the first thing that is wrong with it, and the failure names its path. -/
theorem outcome_read_eq_error_iff {source : Source} {p : Path} {f : Failure} :
    (read source p).outcome = .error f ↔ ∃ cause, Refuses source p cause ∧ f = .catalog p cause := by
  constructor
  · intro h
    unfold read at h
    cases htext : source p with
    | error fault =>
      rw [htext] at h
      exact ⟨_, .disk htext, (Except.error.inj h).symm⟩
    | ok text =>
      simp only [htext, ofText] at h
      cases hroot : Json.parse text with
      | error defect =>
        rw [hroot] at h
        exact ⟨_, .json htext hroot, (Except.error.inj h).symm⟩
      | ok root =>
        simp only [hroot, ofJson] at h
        split at h
        · cases h
        · rename_i members hmember
          -- The members are read in order, and the first one that is refused decides.
          rw [Logged.outcome_mapM, Outcome.mapM_eq_error_iff] at h
          obtain ⟨before, ⟨key, body⟩, after, rfl, hbefore, h⟩ := h
          obtain ⟨cause, hcause, rfl⟩ := outcome_decodeMember_eq_error_iff.1 h
          refine ⟨_, .entry htext hroot hmember (fun m hm => ?_) hcause, rfl⟩
          obtain ⟨x, hx⟩ := hbefore m hm
          exact ⟨x.2, (outcome_decodeMember_eq_ok_iff.1 hx).2⟩
        · rename_i v hobject hmember
          exact ⟨_, .notAnObject htext hroot hmember hobject, (Except.error.inj h).symm⟩
  · intro h
    obtain ⟨cause, h, rfl⟩ := h
    unfold read
    cases h with
    | disk h => rw [h]; rfl
    | json htext h => simp only [htext, ofText, h]; rfl
    | @notAnObject text root v htext hroot hmember h =>
      simp only [htext, ofText, hroot, ofJson, hmember]
      rfl
    | @entry text root before after key body cause htext hroot hmember hbefore h =>
      simp only [htext, ofText, hroot, ofJson, hmember]
      rw [Logged.outcome_mapM, Outcome.mapM_eq_error_iff]
      refine ⟨before, (key, body), after, rfl, fun m hm => ?_, outcome_decodeMember_eq_error_iff.2 ⟨cause, h, rfl⟩⟩
      obtain ⟨e, he⟩ := hbefore m hm
      exact ⟨(m.1, e), outcome_decodeMember_eq_ok_iff.2 ⟨rfl, he⟩⟩

end Catalog

namespace Entry

/-- The addresses of the entry denote something and its device info decodes: the device type that it becomes. -/
def Resolves (e : Entry) (key : String) (device : DeviceType) : Prop :=
  ∃ addresses response, Address.Denotes e.addresses addresses ∧ (Response.ofDeviceInfo e.deviceInfo).outcome = .ok response ∧
    device = e.toDevice key addresses response

/-- The first thing wrong with an entry: its addresses come before its device info. -/
inductive Faulty (e : Entry) (key : String) (source : Path) : Failure → Prop where
  | addresses {token : String} (h : Address.FirstMalformed e.addresses token) :
      Faulty e key source (.malformedAddresses e.addresses token)
  | deviceInfo {addresses : List Address} {cause : Mismatch} (haddresses : Address.Denotes e.addresses addresses)
      (h : (Response.ofDeviceInfo e.deviceInfo).outcome = .error cause) :
      Faulty e key source (.catalog source (.schema (.deviceInfo key cause)))

/-- What an entry resolves to is what the declarative description says. -/
theorem outcome_resolve_eq_ok_iff {e : Entry} {key : String} {source : Path} {device : DeviceType} :
    (e.resolve key source).outcome = .ok device ↔ e.Resolves key device := by
  simp only [resolve, Logged.outcome_bind, Logged.outcome_mapError, Logged.outcome_pure, Outcome.bind_eq_ok_iff,
    Address.outcome_readSpec_eq_ok_iff, Outcome.mapError_eq_ok_iff, Except.ok.injEq]
  constructor
  · intro h
    obtain ⟨addresses, haddresses, response, hresponse, rfl⟩ := h
    exact ⟨addresses, response, haddresses, hresponse, rfl⟩
  · intro h
    obtain ⟨addresses, response, haddresses, hresponse, rfl⟩ := h
    exact ⟨addresses, haddresses, response, hresponse, rfl⟩

/-- An entry fails to resolve for a fault that the declarative description names. -/
theorem outcome_resolve_eq_error_iff {e : Entry} {key : String} {source : Path} {f : Failure} :
    (e.resolve key source).outcome = .error f ↔ e.Faulty key source f := by
  simp only [resolve, Logged.outcome_bind, Logged.outcome_mapError, Logged.outcome_pure, Outcome.bind_eq_error_iff,
    Address.outcome_readSpec_eq_ok_iff, Address.outcome_readSpec_eq_error_iff, Outcome.mapError_eq_error_iff]
  constructor
  · intro h
    rcases h with ⟨token, htoken, rfl⟩ | ⟨addresses, haddresses, ⟨cause, hcause, rfl⟩ | ⟨_, _, h⟩⟩
    · exact .addresses htoken
    · exact .deviceInfo haddresses hcause
    · cases h
  · intro h
    rcases h with ⟨htoken⟩ | ⟨haddresses, hcause⟩
    · exact Or.inl ⟨_, htoken, rfl⟩
    · exact Or.inr ⟨_, haddresses, Or.inl ⟨_, hcause, rfl⟩⟩

end Entry

end DeviceCatalog
