import DeviceCatalog.Proofs.DecoderNames
import DeviceCatalog.Proofs.FileScope

/-!
# The names of the script functions

The decoder sources define the helpers, the functions for dictionaries, a function for each decoder and the dispatch function; the header
declares all of them but the helpers. The decoders are told apart by the identifiers of their type names, but nothing keeps a type name from
the identifier that the dispatch function has: that name alone can come twice (`functions_distinct_iff`).
-/

namespace DeviceCatalog.Artifact

open CSource

/-- What the name of the dispatch function has behind the stem of the decoders. -/
def dispatchIdentifier : String := "device_data"

/-! ## The identifiers of the decoders -/

/-- The identifiers of the decoders are those that the type names make, of device types that have one. -/
theorem mem_decoderIdentifiers_iff {devices : List DeviceType} {m : Model} (h : m.Describes devices) {ident : String} (hne : ident ≠ "") :
    ident ∈ (firstOfClass m.records).map typeIdentifier ↔ ∃ d ∈ devices, CSource.name d.typeName = ident := by
  rw [← h.deviceTypes]
  constructor
  · intro hmem
    obtain ⟨r, hr, hident⟩ := List.mem_map.1 hmem
    exact ⟨r.device, List.mem_map_of_mem (mem_of_mem_firstOfClass hr).1, hident⟩
  · rintro ⟨d, hd, hident⟩
    obtain ⟨r, hr, rfl⟩ := List.mem_map.1 hd
    have hname : r.device.typeName ≠ "" := by
      intro hempty
      rw [hempty] at hident
      exact hne hident.symm
    obtain ⟨r', hr', hsame⟩ := exists_mem_firstOfClass hr hname
    exact List.mem_map.2 ⟨r', hr', hsame.trans hident⟩

/-! ## Names with and without the dispatch function -/

/-- A name that stands in front of different names comes a second time or is different from all of them. -/
theorem nodup_iff_of_perm_cons {name : String} {names others : List String} (h : names.Perm (name :: others)) (hothers : others.Nodup) :
    (names.erase name).Nodup ∧ (names.Nodup ↔ name ∉ others) := by
  have herase : (names.erase name).Perm others := by
    have herased := h.erase name
    rwa [List.erase_cons_head] at herased
  refine ⟨herase.nodup_iff.2 hothers, ?_⟩
  rw [h.nodup_iff, List.nodup_cons]
  exact and_iff_left hothers

/-- Among fixed functions and decoders, the name of the dispatch function is that of the decoder with its identifier. -/
theorem nodup_iff_of_perm_dispatch {fixed identifiers names : List String}
    (h : names.Perm (dispatchSignature.name :: (fixed ++ identifiers.map ("mp_decode_" ++ ·)))) (hfixed : fixed.Nodup)
    (hapart : ∀ name ∈ fixed, ¬ "mp_decode_".toList <+: name.toList) (hidentifiers : identifiers.Nodup) :
    (names.erase dispatchSignature.name).Nodup ∧ (names.Nodup ↔ dispatchIdentifier ∉ identifiers) := by
  have hname : dispatchSignature.name = "mp_decode_" ++ dispatchIdentifier := by decide
  have hstemmed : stemmed [("mp_decode_", identifiers)] = identifiers.map ("mp_decode_" ++ ·) := List.append_nil _
  have hothers : (fixed ++ stemmed [("mp_decode_", identifiers)]).Nodup :=
    nodup_append_stemmed hfixed (List.forall_mem_singleton.2 hapart) (List.pairwise_singleton _ _) (List.forall_mem_singleton.2 hidentifiers)
  rw [hstemmed] at hothers
  obtain ⟨herase, hnodup⟩ := nodup_iff_of_perm_cons h hothers
  refine ⟨herase, hnodup.trans (not_congr ?_)⟩
  rw [hname, List.mem_append, List.mem_map_of_injective fun s t hst => (String.append_right_inj _).1 hst]
  refine or_iff_right fun hmem => hapart _ hmem ?_
  rw [String.toList_append]
  exact List.prefix_append _ _

/-- The functions that the header declares, up to their order. -/
theorem declared_perm (b : Bindings) : (b.decoderHeader.filterMap Item.declares?).Perm
    (dispatchSignature.name :: (dictionaryFunctions ++ (b.decoders.map typeIdentifier).map ("mp_decode_" ++ ·))) := by
  rw [declared_decoderHeader, List.map_map]
  exact List.perm_middle.trans (List.perm_append_comm.cons _)

/-- The functions that the source defines, up to their order. -/
theorem defined_perm (b : Bindings) (headerName pollRecordsName : String) :
    ((b.decoderSource headerName pollRecordsName).filterMap Item.function?).Perm
      (dispatchSignature.name :: (FieldType.all.map (fun t => scriptHelper ++ t.extractor) ++ dictionaryFunctions ++
        (b.decoders.map typeIdentifier).map ("mp_decode_" ++ ·))) := by
  rw [defined_decoderSource, List.map_map]
  exact List.perm_append_singleton _ _

/-- What the header declares and the sources define are different names when the name of the dispatch function is left out once, and with it
exactly when no decoder has its identifier. -/
theorem nodup_functions_iff {b : Bindings} (h : (b.decoders.map typeIdentifier).Nodup) (headerName pollRecordsName : String) :
    ∀ names ∈ [b.decoderHeader.filterMap Item.declares?, (b.decoderSource headerName pollRecordsName).filterMap Item.function?],
      (names.erase dispatchSignature.name).Nodup ∧ (names.Nodup ↔ dispatchIdentifier ∉ b.decoders.map typeIdentifier) := by
  intro names hnames
  rcases List.mem_pair.1 hnames with rfl | rfl
  · exact nodup_iff_of_perm_dispatch (declared_perm b) (by decide) (by decide) h
  · exact nodup_iff_of_perm_dispatch (defined_perm b headerName pollRecordsName) (by decide) (by decide) h

/-- Of the functions that the header declares, and of those that the sources define, no two have the same name when no type name makes the
identifier `device_data`, and only then. All of them but the dispatch function have different names in any case. -/
theorem functions_distinct_iff {devices : List DeviceType} {m : Model} (hm : (Model.build devices).outcome = .ok m) (o : ScriptOptions) :
    ∃ b, (Bindings.ofModel m o).outcome = .ok b ∧ ∀ headerName pollRecordsName,
      ∀ names ∈ [b.decoderHeader.filterMap Item.declares?, (b.decoderSource headerName pollRecordsName).filterMap Item.function?],
        (names.erase "mp_decode_device_data").Nodup ∧ (names.Nodup ↔ ∀ d ∈ devices, CSource.name d.typeName ≠ "device_data") := by
  have hnodup := nodup_firstOfClass m.records
  refine ⟨⟨m.records, firstOfClass m.records, o⟩, by rw [ofModel_eq], fun headerName pollRecordsName names hnames => ?_⟩
  obtain ⟨herase, hdistinct⟩ := nodup_functions_iff (b := ⟨m.records, firstOfClass m.records, o⟩) hnodup headerName pollRecordsName names hnames
  refine ⟨herase, hdistinct.trans ?_⟩
  rw [mem_decoderIdentifiers_iff (Model.describes_of_build hm) (by decide)]
  push Not
  exact Iff.rfl

/-- A type name that only begins with the identifier keeps the names apart. -/
theorem functions_distinct_longer_name :
    ∃ m b, (Model.build [{ key := "A", typeName := "device_data2" }]).outcome = .ok m ∧ (Bindings.ofModel m {}).outcome = .ok b ∧
      (b.decoderHeader.filterMap Item.declares?).Nodup ∧ ((b.decoderSource "decoders.h" "records.h").filterMap Item.function?).Nodup := by
  obtain ⟨m, -, hm, -⟩ := Model.exists_build_singleton (d := { key := "A", typeName := "device_data2" }) (by decide)
  obtain ⟨b, hb, hnames⟩ := functions_distinct_iff hm {}
  have hfree : ∀ d ∈ [({ key := "A", typeName := "device_data2" } : DeviceType)], CSource.name d.typeName ≠ "device_data" := by decide
  obtain ⟨hdeclared, hlast⟩ := List.forall_mem_cons.1 (hnames "decoders.h" "records.h")
  have hdefined := List.forall_mem_singleton.1 hlast
  exact ⟨m, b, hm, hb, hdeclared.2.2 hfree, hdefined.2.2 hfree⟩

/-- A device type that is accepted, with options that are valid, makes the header declare and the sources define the dispatch function's
name a second time, for its decoder. -/
theorem type_name_takes_dispatch_name :
    ∃ m b, (Model.build [{ key := "A", typeName := "device_data" }]).outcome = .ok m ∧
      ({ script := some {} } : Options).validate.isOk = true ∧ (Bindings.ofModel m {}).outcome = .ok b ∧
      ¬ (b.decoderHeader.filterMap Item.declares?).Nodup ∧ ¬ ((b.decoderSource "decoders.h" "records.h").filterMap Item.function?).Nodup := by
  obtain ⟨m, b, r, hm, hb, -, hr, hdevice, -⟩ :=
    exists_single_decoder (d := { key := "A", typeName := "device_data" }) (by decide) (by decide) {}
  have htaken : dispatchIdentifier ∈ b.decoders.map typeIdentifier := by
    refine List.mem_map.2 ⟨r, hr, ?_⟩
    rw [typeIdentifier, hdevice]
    decide
  obtain ⟨hdeclared, hlast⟩ := List.forall_mem_cons.1 (nodup_functions_iff (nodup_decoders hb) "decoders.h" "records.h")
  have hdefined := List.forall_mem_singleton.1 hlast
  exact ⟨m, b, hm, by decide +kernel, hb, fun h => hdeclared.2.1 h htaken, fun h => hdefined.2.1 h htaken⟩

end DeviceCatalog.Artifact
