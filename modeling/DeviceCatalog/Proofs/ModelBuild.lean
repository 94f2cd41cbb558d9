import DeviceCatalog.Model
import DeviceCatalog.Proofs.AddressIndex
import DeviceCatalog.Proofs.FirstFailure
import Mathlib.Algebra.Ring.Nat
import Mathlib.Data.List.Nodup

/-!
# Building a model

The three checks on the device types of a run, each with the first thing that fails it: every layout has the declared size, the keys
make different identifiers, and every device type with addresses has a position that fits.
-/

namespace DeviceCatalog

/-! ## Sizes -/

/-- The bytes that the placed attributes of a device type take. -/
def DeviceType.laidOutSize (d : DeviceType) : Nat :=
  ((d.responseSchema.filterMap Attribute.placedType?).map FieldType.width).sum

/-- Placing attributes takes up their widths. -/
theorem PollLayout.size_place (deviceKey : String) (start : Nat) (attrs : List Attribute) :
    (place deviceKey start attrs).size = start + ((attrs.filterMap Attribute.placedType?).map FieldType.width).sum := by
  induction attrs generalizing start with
  | nil => rfl
  | cons a attrs ih =>
    rw [place, List.filterMap_cons]
    split
    · rename_i t h
      simp only [h, List.map_cons, List.sum_cons, ih, Nat.add_assoc]
    · rename_i h
      simp only [h, ih]

namespace Model

/-- A device type whose layout has the declared size becomes a record. -/
theorem outcome_record_eq_ok {d : DeviceType} (h : d.laidOutSize = d.declaredBytes) :
    (record d).outcome = .ok ⟨d, PollLayout.place d.key 0 d.responseSchema⟩ := by
  have hsize : (PollLayout.place d.key 0 d.responseSchema).size = d.declaredBytes := by
    rw [PollLayout.size_place, Nat.zero_add]
    exact h
  simp only [record, PollLayout.compute, Logged.outcome_bind, Logged.outcome_notes, hsize, if_true]
  rfl

/-- A device type whose layout has another size is refused with both sizes. -/
theorem outcome_record_eq_error {d : DeviceType} (h : d.laidOutSize ≠ d.declaredBytes) :
    (record d).outcome = .error (.sizeMismatch d.key d.declaredBytes d.laidOutSize) := by
  have hsize : (PollLayout.place d.key 0 d.responseSchema).size = d.laidOutSize := by
    rw [PollLayout.size_place, Nat.zero_add]
    rfl
  simp only [record, PollLayout.compute, Logged.outcome_bind, Logged.outcome_notes, hsize, if_neg h]
  rfl

/-- A device type has a record when the laid-out size is the declared one. -/
theorem exists_outcome_record_eq_ok_iff {d : DeviceType} :
    (∃ r, (record d).outcome = .ok r) ↔ d.laidOutSize = d.declaredBytes := by
  by_cases h : d.laidOutSize = d.declaredBytes
  · exact iff_of_true ⟨_, outcome_record_eq_ok h⟩ h
  · refine iff_of_false ?_ h
    rintro ⟨r, hr⟩
    rw [outcome_record_eq_error h] at hr
    cases hr

/-- A device type has no record when the two sizes differ, and both are named. -/
theorem outcome_record_eq_error_iff {d : DeviceType} {f : Failure} :
    (record d).outcome = .error f ↔
      d.laidOutSize ≠ d.declaredBytes ∧ f = .sizeMismatch d.key d.declaredBytes d.laidOutSize := by
  by_cases h : d.laidOutSize = d.declaredBytes
  · rw [outcome_record_eq_ok h]
    exact ⟨nofun, fun hne => absurd h hne.1⟩
  · rw [outcome_record_eq_error h, Except.error.injEq, eq_comm]
    exact (and_iff_right h).symm

/-! ## Identifiers -/

/-- What the search finds among the keys before is a key of the same identifier. -/
theorem name_eq_of_find? {seen : List String} {key earlier : String}
    (h : (seen.find? fun k => CSource.name k == CSource.name key) = some earlier) :
    earlier ∈ seen ∧ CSource.name earlier = CSource.name key :=
  ⟨List.mem_of_find?_eq_some h, by simpa using List.find?_some h⟩

/-- When it finds none, the key can join them. -/
theorem nodup_of_find? {seen : List String} {key : String} (hseen : (seen.map CSource.name).Nodup)
    (h : (seen.find? fun k => CSource.name k == CSource.name key) = none) : ((key :: seen).map CSource.name).Nodup := by
  have hfresh : CSource.name key ∉ seen.map CSource.name := by
    simpa using h
  exact List.nodup_cons.2 ⟨hfresh, hseen⟩

theorem reverse_cons_append (key : String) (seen keys : List String) :
    (key :: seen).reverse ++ keys = seen.reverse ++ key :: keys := by
  rw [List.reverse_cons, List.append_assoc, List.singleton_append]

/-- Names before a key of the same identifier make a repetition. -/
theorem not_nodup_of_mem {seen keys : List String} {earlier key : String} (h : earlier ∈ seen)
    (hname : CSource.name earlier = CSource.name key) : ¬ ((seen.reverse ++ key :: keys).map CSource.name).Nodup := by
  rw [List.map_append, List.map_cons, List.nodup_append]
  rintro ⟨-, -, hdisjoint⟩
  exact hdisjoint _ (List.mem_map_of_mem (List.mem_reverse.2 h)) _ List.mem_cons_self hname

/-- The search fails when no two keys make the same identifier, those before it included. -/
theorem clash?_eq_none_iff {seen keys : List String} (hseen : (seen.map CSource.name).Nodup) :
    clash? seen keys = none ↔ ((seen.reverse ++ keys).map CSource.name).Nodup := by
  induction keys generalizing seen with
  | nil =>
    rw [List.append_nil, List.map_reverse, List.nodup_reverse]
    exact iff_of_true rfl hseen
  | cons key keys ih =>
    rw [clash?]
    cases hfind : seen.find? fun k => CSource.name k == CSource.name key with
    | some earlier =>
      obtain ⟨hmem, hname⟩ := name_eq_of_find? hfind
      exact iff_of_false nofun (not_nodup_of_mem hmem hname)
    | none =>
      rw [← reverse_cons_append]
      exact ih (nodup_of_find? hseen hfind)

/-- The second name is the first of the keys whose identifier a name before it makes, and the first name makes it. -/
def ClashesIn (seen keys : List String) (first second : String) : Prop :=
  ∃ before after, keys = before ++ second :: after ∧ ((seen.reverse ++ before).map CSource.name).Nodup ∧
    first ∈ seen.reverse ++ before ∧ CSource.name first = CSource.name second

/-- A key whose identifier was seen before is the first to clash. -/
theorem clashesIn_cons_of_mem {seen keys : List String} {key earlier first second : String} (hseen : (seen.map CSource.name).Nodup)
    (hmem : earlier ∈ seen) (hname : CSource.name earlier = CSource.name key) :
    ClashesIn seen (key :: keys) first second ↔ earlier = first ∧ key = second := by
  constructor
  · intro h
    obtain ⟨before, after, hsplit, hnodup, hfirst, hclash⟩ := h
    rcases before with _ | ⟨k, before⟩
    · cases hsplit
      rw [List.append_nil, List.mem_reverse] at hfirst
      exact ⟨List.inj_on_of_nodup_map hseen hmem hfirst (hname.trans hclash.symm), rfl⟩
    · cases hsplit
      exact absurd hnodup (not_nodup_of_mem hmem hname)
  · rintro ⟨rfl, rfl⟩
    refine ⟨[], keys, rfl, ?_, ?_, hname⟩
    · rw [List.append_nil, List.map_reverse, List.nodup_reverse]
      exact hseen
    · rw [List.append_nil, List.mem_reverse]
      exact hmem

/-- A key whose identifier is new joins those that were seen. -/
theorem clashesIn_cons_of_nodup {seen keys : List String} {key first second : String} (hnodup : ((key :: seen).map CSource.name).Nodup) :
    ClashesIn seen (key :: keys) first second ↔ ClashesIn (key :: seen) keys first second := by
  simp only [ClashesIn, reverse_cons_append]
  constructor
  · intro h
    obtain ⟨before, after, hsplit, hbefore, hfirst, hclash⟩ := h
    rcases before with _ | ⟨k, before⟩
    · cases hsplit
      rw [List.append_nil, List.mem_reverse] at hfirst
      exact absurd (hclash ▸ List.mem_map_of_mem hfirst) (List.nodup_cons.1 hnodup).1
    · cases hsplit
      exact ⟨before, after, rfl, hbefore, hfirst, hclash⟩
  · intro h
    obtain ⟨before, after, rfl, h⟩ := h
    exact ⟨key :: before, after, rfl, h⟩

/-- The search ends at the first key whose identifier an earlier key makes, and finds that key. -/
theorem clash?_eq_some_iff {seen keys : List String} {first second : String} (hseen : (seen.map CSource.name).Nodup) :
    clash? seen keys = some (first, second) ↔ ClashesIn seen keys first second := by
  induction keys generalizing seen with
  | nil =>
    refine ⟨nofun, ?_⟩
    rintro ⟨before, after, h, -⟩
    cases before <;> cases h
  | cons key keys ih =>
    rw [clash?]
    cases hfind : seen.find? fun k => CSource.name k == CSource.name key with
    | some earlier =>
      obtain ⟨hmem, hname⟩ := name_eq_of_find? hfind
      rw [clashesIn_cons_of_mem hseen hmem hname, Option.some.injEq, Prod.mk.injEq]
    | none =>
      have hnodup := nodup_of_find? hseen hfind
      rw [clashesIn_cons_of_nodup hnodup]
      exact ih hnodup

/-- The keys of the device types make different identifiers. -/
def DistinctNames (devices : List DeviceType) : Prop :=
  ((devices.map DeviceType.key).map CSource.name).Nodup

instance (devices : List DeviceType) : Decidable (DistinctNames devices) :=
  inferInstanceAs (Decidable (List.Nodup _))

/-- The identifiers pass when the names of the device types are distinct. -/
theorem checkIdentifiers_eq_ok_iff {devices : List DeviceType} : checkIdentifiers devices = .ok () ↔ DistinctNames devices := by
  have hclash : clash? [] (devices.map DeviceType.key) = none ↔ DistinctNames devices := clash?_eq_none_iff List.nodup_nil
  rw [checkIdentifiers, ← hclash]
  split
  · rename_i first second h
    rw [h]
    exact iff_of_false nofun nofun
  · rename_i h
    exact iff_of_true rfl h

/-- The first device type whose key makes the identifier of an earlier one decides, and the failure names both keys. -/
theorem checkIdentifiers_eq_error_iff {devices : List DeviceType} {f : Failure} :
    checkIdentifiers devices = .error f ↔
      ∃ before d after, devices = before ++ d :: after ∧ DistinctNames before ∧
        ∃ earlier ∈ before, CSource.name earlier.key = CSource.name d.key ∧
          f = .identifierClash (CSource.name d.key) earlier.key d.key := by
  have hclash : ∀ first second, clash? [] (devices.map DeviceType.key) = some (first, second) ↔ _ := fun first second =>
    clash?_eq_some_iff List.nodup_nil
  unfold checkIdentifiers
  constructor
  · intro h
    cases hfound : clash? [] (devices.map DeviceType.key) with
    | none =>
      rw [hfound] at h
      cases h
    | some p =>
      obtain ⟨first, second⟩ := p
      rw [hfound] at h
      cases h
      obtain ⟨before, after, hsplit, hnodup, hfirst, hname⟩ := (hclash first second).1 hfound
      obtain ⟨before, rest, rfl, rfl, hrest⟩ := List.map_eq_append_iff.1 hsplit
      obtain ⟨d, after, rfl, rfl, rfl⟩ := List.map_eq_cons_iff.1 hrest
      obtain ⟨earlier, hearlier, rfl⟩ := List.mem_map.1 hfirst
      exact ⟨before, d, after, rfl, hnodup, earlier, hearlier, hname, rfl⟩
  · intro h
    obtain ⟨before, d, after, rfl, hnodup, earlier, hearlier, hname, rfl⟩ := h
    have hfound := (hclash earlier.key d.key).2
      ⟨before.map DeviceType.key, after.map DeviceType.key, by simp, hnodup, List.mem_map_of_mem hearlier, hname⟩
    rw [hfound]

/-! ## The model -/

/-- Every device type with addresses has a position that sixteen bits hold. -/
def PositionsFit (devices : List DeviceType) : Prop :=
  ∀ p d, devices[p]? = some d → d.addresses ≠ [] → p < UInt16.size

/-- No position of a catalog of at most `2 ^ 16` device types is too large. -/
theorem positionsFit_of_length {devices : List DeviceType} (h : devices.length ≤ UInt16.size) : PositionsFit devices := by
  intro p d hget _
  have hlt := (List.getElem?_eq_some_iff.1 hget).1
  omega

/-- There is an index when all positions fit. -/
theorem exists_index_iff {devices : List DeviceType} : (∃ index, AddressIndex.build devices = .ok index) ↔ PositionsFit devices := by
  simp only [AddressIndex.build_eq_ok_iff, exists_and_left, exists_eq, and_true]
  constructor
  · intro h p d hget haddresses
    by_contra hge
    exact h (d, p) (List.mem_zipIdx_iff_getElem?.2 hget) ⟨Nat.not_lt.1 hge, haddresses⟩
  · rintro h ⟨d, p⟩ hmem ⟨hge, haddresses⟩
    exact Nat.not_lt.2 hge (h p d (List.mem_zipIdx_iff_getElem?.1 hmem) haddresses)

/-- A model is built from the records, the check of the identifiers, the index and the scan lists, in this order. -/
theorem outcome_build (devices : List DeviceType) :
    (build devices).outcome = (devices.mapM fun d => (record d).outcome) >>= fun records =>
      checkIdentifiers devices >>= fun _ => AddressIndex.build devices >>= fun index =>
        .ok ⟨records, index, ScanLists.classify devices⟩ := by
  simp only [build, Logged.outcome_bind, Logged.outcome_mapM, Logged.outcome_ofExcept, Logged.outcome_notes, Logged.outcome_pure]
  rfl

/-- The device types pass the three checks. -/
structure Accepts (devices : List DeviceType) : Prop where
  sizes : ∀ d ∈ devices, d.laidOutSize = d.declaredBytes
  names : DistinctNames devices
  positions : PositionsFit devices

/-- The first thing wrong with the device types: all sizes come before the identifiers, and those before the positions. -/
inductive Refuses (devices : List DeviceType) : Failure → Prop where
  | size {before after : List DeviceType} {d : DeviceType} (hsplit : devices = before ++ d :: after)
      (hbefore : ∀ x ∈ before, x.laidOutSize = x.declaredBytes) (h : d.laidOutSize ≠ d.declaredBytes) :
      Refuses devices (.sizeMismatch d.key d.declaredBytes d.laidOutSize)
  | identifier {before after : List DeviceType} {d earlier : DeviceType} (hsizes : ∀ x ∈ devices, x.laidOutSize = x.declaredBytes)
      (hsplit : devices = before ++ d :: after) (hbefore : DistinctNames before) (hearlier : earlier ∈ before)
      (h : CSource.name earlier.key = CSource.name d.key) :
      Refuses devices (.identifierClash (CSource.name d.key) earlier.key d.key)
  | position {p : Nat} {d : DeviceType} (hsizes : ∀ x ∈ devices, x.laidOutSize = x.declaredBytes) (hnames : DistinctNames devices)
      (hget : devices[p]? = some d) (hp : UInt16.size ≤ p) (h : d.addresses ≠ []) : Refuses devices (.tooManyTypes devices.length)

/-- All device types have records when every laid-out size is the declared one. -/
theorem exists_records_iff {devices : List DeviceType} :
    (∃ records, (devices.mapM fun d => (record d).outcome) = .ok records) ↔ ∀ d ∈ devices, d.laidOutSize = d.declaredBytes := by
  simp only [Outcome.exists_mapM_eq_ok_iff, exists_outcome_record_eq_ok_iff]

/-- Device types make a model exactly when they pass the checks. -/
theorem exists_outcome_build_eq_ok_iff {devices : List DeviceType} : (∃ m, (build devices).outcome = .ok m) ↔ Accepts devices := by
  simp only [outcome_build, Outcome.bind_eq_ok_iff]
  constructor
  · intro h
    obtain ⟨m, records, hrecords, _, hnames, index, hindex, -⟩ := h
    exact ⟨exists_records_iff.1 ⟨records, hrecords⟩, checkIdentifiers_eq_ok_iff.1 hnames, exists_index_iff.1 ⟨index, hindex⟩⟩
  · intro h
    obtain ⟨hsizes, hnames, hpositions⟩ := h
    obtain ⟨records, hrecords⟩ := exists_records_iff.2 hsizes
    obtain ⟨index, hindex⟩ := exists_index_iff.2 hpositions
    exact ⟨_, records, hrecords, (), checkIdentifiers_eq_ok_iff.2 hnames, index, hindex, rfl⟩

/-- The model holds what follows from the device types: their layouts, the index and the scan lists. -/
structure Describes (m : Model) (devices : List DeviceType) : Prop where
  deviceTypes : m.records.map Record.device = devices
  layouts : ∀ r ∈ m.records, r.layout = PollLayout.place r.device.key 0 r.device.responseSchema
  sizes : ∀ r ∈ m.records, r.layout.size = r.device.declaredBytes
  names : DistinctNames devices
  index : AddressIndex.build devices = .ok m.index
  scan : m.scan = ScanLists.classify devices

/-- A record that a device type becomes is the device type with its layout, which has the declared size. -/
theorem eq_of_outcome_record {d : DeviceType} {r : Record} (h : (record d).outcome = .ok r) :
    r.device = d ∧ r.layout = PollLayout.place d.key 0 d.responseSchema ∧ r.layout.size = d.declaredBytes := by
  have hsize := exists_outcome_record_eq_ok_iff.1 ⟨r, h⟩
  rw [outcome_record_eq_ok hsize] at h
  cases h
  refine ⟨rfl, rfl, ?_⟩
  rw [PollLayout.size_place, Nat.zero_add]
  exact hsize

/-- A model that was built describes its device types. -/
theorem describes_of_build {devices : List DeviceType} {m : Model} (h : (build devices).outcome = .ok m) : m.Describes devices := by
  simp only [outcome_build, Outcome.bind_eq_ok_iff, Outcome.mapM_eq_ok_iff] at h
  obtain ⟨records, hrecords, _, hnames, index, hindex, hm⟩ := h
  cases hm
  have hdevices : records.map Record.device = devices ∧ ∀ r ∈ records,
      r.layout = PollLayout.place r.device.key 0 r.device.responseSchema ∧ r.layout.size = r.device.declaredBytes := by
    clear hnames hindex
    induction hrecords with
    | nil => exact ⟨rfl, nofun⟩
    | cons hfirst _ ih =>
      obtain ⟨rfl, hlayout, hsize⟩ := eq_of_outcome_record hfirst
      refine ⟨by rw [List.map_cons, ih.1], ?_⟩
      rintro r hr
      rcases List.mem_cons.1 hr with rfl | hr
      · exact ⟨hlayout, hsize⟩
      · exact ih.2 r hr
  exact ⟨hdevices.1, fun r hr => (hdevices.2 r hr).1, fun r hr => (hdevices.2 r hr).2, checkIdentifiers_eq_ok_iff.1 hnames, hindex, rfl⟩

/-- A catalog that is not too long makes a model when its layouts have the declared sizes and its keys make different identifiers. -/
theorem exists_build {devices : List DeviceType} (hsizes : ∀ d ∈ devices, d.laidOutSize = d.declaredBytes) (hnames : DistinctNames devices)
    (hlength : devices.length ≤ UInt16.size) : ∃ m, (build devices).outcome = .ok m ∧ m.records.map Record.device = devices := by
  obtain ⟨m, hm⟩ := exists_outcome_build_eq_ok_iff.2 ⟨hsizes, hnames, positionsFit_of_length hlength⟩
  exact ⟨m, hm, (describes_of_build hm).deviceTypes⟩

/-- A device type whose layout has the declared size makes a model of one record. -/
theorem exists_build_singleton {d : DeviceType} (hsize : d.laidOutSize = d.declaredBytes) :
    ∃ m r, (build [d]).outcome = .ok m ∧ m.records = [r] ∧ r.device = d ∧ r.layout = PollLayout.place d.key 0 d.responseSchema := by
  obtain ⟨m, hm, hdevices⟩ := exists_build (List.forall_mem_singleton.2 hsize) (by simp [DistinctNames]) (by simp [UInt16.size])
  obtain ⟨r, hrecords, rfl⟩ := List.map_eq_singleton_iff.1 hdevices
  have hr : r ∈ m.records := by rw [hrecords]; exact List.mem_cons_self
  exact ⟨m, r, hm, hrecords, rfl, (describes_of_build hm).layouts r hr⟩

/-- Otherwise the first check that fails decides. -/
theorem outcome_build_eq_error_iff {devices : List DeviceType} {f : Failure} :
    (build devices).outcome = .error f ↔ Refuses devices f := by
  rw [outcome_build, Outcome.bind_eq_error_iff, Outcome.mapM_eq_error_iff]
  simp only [exists_outcome_record_eq_ok_iff, outcome_record_eq_error_iff]
  constructor
  · intro h
    -- The checks come in the order of layouts, identifiers and positions, so each one has passed where a later one fails.
    rcases h with ⟨before, d, after, hsplit, hbefore, hne, rfl⟩ | ⟨records, hrecords, h⟩
    · exact .size hsplit hbefore hne
    · have hsizes := exists_records_iff.1 ⟨records, hrecords⟩
      rcases Outcome.bind_eq_error_iff.1 h with h | ⟨_, hnames, h⟩
      · obtain ⟨before, d, after, hsplit, hbefore, earlier, hearlier, hname, rfl⟩ := checkIdentifiers_eq_error_iff.1 h
        exact .identifier hsizes hsplit hbefore hearlier hname
      · rcases Outcome.bind_eq_error_iff.1 h with h | ⟨_, _, h⟩
        · obtain ⟨rfl, hover⟩ := AddressIndex.build_eq_error_iff.1 h
          obtain ⟨p, d, hget, hp, haddresses⟩ := AddressIndex.exists_overflows.1 hover
          exact .position hsizes (checkIdentifiers_eq_ok_iff.1 hnames) hget hp haddresses
        · cases h
  · intro h
    cases h with
    | @size before after d hsplit hbefore hne => exact Or.inl ⟨before, d, after, hsplit, hbefore, hne, rfl⟩
    | @identifier before after d earlier hsizes hsplit hbefore hearlier hname =>
      obtain ⟨records, hrecords⟩ := exists_records_iff.2 hsizes
      have hclash := checkIdentifiers_eq_error_iff.2 ⟨before, d, after, hsplit, hbefore, earlier, hearlier, hname, rfl⟩
      exact Or.inr ⟨records, hrecords, Outcome.bind_eq_error_iff.2 (Or.inl hclash)⟩
    | position hsizes hnames hget hp haddresses =>
      obtain ⟨records, hrecords⟩ := exists_records_iff.2 hsizes
      have hover := AddressIndex.build_eq_error_iff.2 ⟨rfl, AddressIndex.exists_overflows.2 ⟨_, _, hget, hp, haddresses⟩⟩
      refine Or.inr ⟨records, hrecords, Outcome.bind_eq_error_iff.2 (Or.inr ⟨(), checkIdentifiers_eq_ok_iff.2 hnames, ?_⟩)⟩
      exact Outcome.bind_eq_error_iff.2 (Or.inl hover)

end Model

end DeviceCatalog
