import DeviceCatalog.Proofs.DecoderChoice
import DeviceCatalog.Proofs.Dispatch
import DeviceCatalog.Proofs.ModelBuild
import DeviceCatalog.Proofs.QuotedTexts

/-!
# The decoder that a type name finds

The dispatch function compares type names, but the decoders are chosen by identifiers. So the first record of a type name is found by it
unless a record in front makes the same identifier from another type name, or has a type name that ends for C functions where the wanted
one ends (`reached?_eq_some_iff`); every type name has a decoder only as long as different type names make different identifiers
(`exists_decoder_iff`).
-/

namespace DeviceCatalog.Artifact

open CSource

variable {α : Type}

/-- The first records of all classes have distinct identifiers. -/
theorem nodup_firstOfClass (rs : List Record) : ((firstOfClass rs).map typeIdentifier).Nodup := by
  have hnodup := (nodup_assignDecoders [] rs).1
  rwa [assignDecoders_eq] at hnodup

/-- A record answers to a type name without NUL when its own is the same up to its first NUL. -/
theorem answersTo_iff {q : String} (hq : '\x00' ∉ q.toList) (d : Record) :
    answersTo q d = true ↔ beforeNul d.device.typeName = q.toList := by
  rw [answersTo, decide_eq_true_iff, beforeNul_of_notMem hq, eq_comm]

/-- The first record of a type name is found by it when its identifier is not taken and no decoder in front answers. -/
theorem reached?_eq_some_iff {before after : List Record} {r : Record} (hname : r.device.typeName ≠ "")
    (hnul : '\x00' ∉ r.device.typeName.toList) (hfirst : ∀ d ∈ before, d.device.typeName ≠ r.device.typeName) :
    reached? (firstOfClass (before ++ r :: after)) r.device.typeName = some r ↔
      (∀ d ∈ before, typeIdentifier d ≠ typeIdentifier r) ∧
        ∀ d ∈ firstOfClass before, beforeNul d.device.typeName ≠ r.device.typeName.toList := by
  obtain ⟨later, hlater, hlist⟩ := exists_firstOfClass_eq before r after
  have hself : answersTo r.device.typeName r = true := (answersTo_iff hnul r).2 (beforeNul_of_notMem hnul)
  have hother : ∀ d ∈ firstOfClass before, d ≠ r := fun d hd hsame =>
    hfirst d (mem_of_mem_firstOfClass hd).1 (congrArg (fun r : Record => r.device.typeName) hsame)
  have hfront : (∀ d ∈ firstOfClass before, beforeNul d.device.typeName ≠ r.device.typeName.toList) ↔
      reached? (firstOfClass before) r.device.typeName = none := by
    rw [reached?, List.find?_eq_none]
    exact forall₂_congr fun d _ => not_congr (answersTo_iff hnul d).symm
  have hfree : (∀ d ∈ before, typeIdentifier d ≠ typeIdentifier r) ↔ typeIdentifier r ∉ before.map typeIdentifier := by
    simp
  rw [hfront, hfree, hlist, reached?, List.find?_append]
  cases hfound : (firstOfClass before).find? (answersTo r.device.typeName) with
  | some d =>
    -- a decoder in front answers, and that is not the one of the record
    have hne : d ≠ r := hother d (List.mem_of_find?_eq_some hfound)
    refine iff_of_false (fun h => hne (Option.some.inj h)) fun h => ?_
    rw [reached?, hfound] at h
    cases h.2
  | none =>
    rw [Option.none_or, reached?, hfound]
    by_cases hopens : typeIdentifier r ∉ before.map typeIdentifier
    · rw [if_pos ⟨hname, hopens⟩, List.singleton_append, List.find?_cons_of_pos hself]
      exact iff_of_true rfl ⟨hopens, rfl⟩
    · rw [if_neg fun h => hopens h.2, List.nil_append]
      refine iff_of_false (fun h => ?_) fun h => hopens h.1
      exact hlater r (List.mem_of_find?_eq_some h) rfl

/-- Every type name has a decoder exactly when different type names make different identifiers. -/
theorem exists_decoder_iff (rs : List Record) :
    (∀ r ∈ rs, r.device.typeName ≠ "" → ∃ d ∈ firstOfClass rs, d.device.typeName = r.device.typeName) ↔
      ∀ r ∈ rs, ∀ r' ∈ rs, typeIdentifier r = typeIdentifier r' → r.device.typeName = r'.device.typeName := by
  constructor
  · intro h r hr r' hr' hsame
    by_cases hname : r.device.typeName = ""
    · have hempty : typeIdentifier r' = "" := by
        rw [← hsame, typeIdentifier, hname]
        exact name_eq_empty_iff.2 rfl
      rw [hname, name_eq_empty_iff.1 hempty]
    · have hname' : r'.device.typeName ≠ "" := fun hempty =>
        typeIdentifier_ne_empty hname (by rw [hsame, typeIdentifier, hempty]; exact name_eq_empty_iff.2 rfl)
      obtain ⟨d, hd, hdname⟩ := h r hr hname
      obtain ⟨d', hd', hdname'⟩ := h r' hr' hname'
      have hidentifier : typeIdentifier d = typeIdentifier d' := by
        rw [typeIdentifier, hdname, typeIdentifier, hdname']
        exact hsame
      have heq : d = d' := List.inj_on_of_nodup_map (nodup_firstOfClass rs) hd hd' hidentifier
      rw [← hdname, ← hdname', heq]
  · intro h r hr hname
    obtain ⟨d, hd, hsame⟩ := exists_mem_firstOfClass hr hname
    exact ⟨d, hd, h d (mem_of_mem_firstOfClass hd).1 r hr hsame⟩

/-- Run on the type name of a record that is the first one with this type name, the dispatch function does what the decoder does that it
finds. That is the decoder of the record exactly when no record in front makes its identifier and no decoder in front has a type name that
the C text of the wanted one equals; and every type name has a decoder exactly when different type names make different identifiers. -/
theorem dispatch_finds_first_record_iff {m : Model} {o : ScriptOptions} {b : Bindings} (hb : (Bindings.ofModel m o).outcome = .ok b)
    {before after : List Record} {r : Record} (hrecords : m.records = before ++ r :: after) (hname : r.device.typeName ≠ "")
    (hnul : '\x00' ∉ r.device.typeName.toList) (hfirst : ∀ d ∈ before, d.device.typeName ≠ r.device.typeName) {M : Machine α}
    (hM : M.ComparesTexts) (headerName pollRecordsName : String) (position : Nat) {length : Nat} (hlength : length < 2 ^ 32)
    (time : UInt64) (mem : Memory α) :
    dispatch M b headerName pollRecordsName b.decoders (.text r.device.typeName :: decoderArguments position length time) mem =
        (reached? b.decoders r.device.typeName).elim
          (some (.foreign "mp_const_none", mem.log (comparisons r.device.typeName b.decoders))) (fun d =>
            runFunction M (b.decoderSource headerName pollRecordsName) (scriptDecoderName d) (decoderArguments position length time)
              (mem.log (comparisons r.device.typeName b.decoders))) ∧
      (reached? b.decoders r.device.typeName = some r ↔
        (∀ d ∈ before, typeIdentifier d ≠ typeIdentifier r) ∧
          ∀ d ∈ firstOfClass before, beforeNul d.device.typeName ≠ r.device.typeName.toList) ∧
      ((∀ d ∈ m.records, d.device.typeName ≠ "" → ∃ d' ∈ b.decoders, d'.device.typeName = d.device.typeName) ↔
        ∀ d ∈ m.records, ∀ d' ∈ m.records, typeIdentifier d = typeIdentifier d' → d.device.typeName = d'.device.typeName) ∧
      ((∀ d ∈ b.decoders, typeIdentifier d ≠ "device_data") →
        runFunction M (b.decoderSource headerName pollRecordsName) "mp_decode_device_data" =
          dispatch M b headerName pollRecordsName b.decoders) := by
  have hdecoders : b.decoders = firstOfClass m.records := by
    rw [ofModel_eq] at hb
    cases hb
    rfl
  have hnodup : (b.decoders.map typeIdentifier).Nodup := by
    rw [hdecoders]
    exact nodup_firstOfClass m.records
  refine ⟨dispatch_eq hM hlength hnodup (fun d hd => hd) mem, ?_, ?_, fun hfree => runFunction_dispatch fun d hd hsame => ?_⟩
  · rw [hdecoders, hrecords]
    exact reached?_eq_some_iff hname hnul hfirst
  · rw [hdecoders]
    exact exists_decoder_iff m.records
  · exact hfree d hd ((String.append_right_inj _).1 hsame)

/-- Two records share a type name behind one of another type name: the first of the two is found, behind two comparisons. -/
theorem dispatch_finds_first_record_shared_name :
    let devices : List DeviceType :=
      [{ key := "A", typeName := "LPS25" }, { key := "B", typeName := "VL6180" }, { key := "C", typeName := "VL6180" }]
    ∃ (m : Model) (b : Bindings) (r : Record), (Model.build devices).outcome = .ok m ∧ (Bindings.ofModel m {}).outcome = .ok b ∧
      r.device.key = "B" ∧ '\x00' ∉ r.device.typeName.toList ∧ reached? b.decoders "VL6180" = some r ∧
      runFunction (textMachine [1, 2]) (b.decoderSource "decoders.h" "records.h") "mp_decode_device_data"
          (.text "VL6180" :: decoderArguments 0 2 7) ⟨fun _ => 0, []⟩ =
        runFunction (textMachine [1, 2]) (b.decoderSource "decoders.h" "records.h") "mp_decode_VL6180" (decoderArguments 0 2 7)
          ⟨fun _ => 0, [.called "strcmp" [.text "VL6180", .text "LPS25"], .called "strcmp" [.text "VL6180", .text "VL6180"]]⟩ := by
  intro devices
  obtain ⟨m, hm, hdevices⟩ : ∃ m, (Model.build devices).outcome = .ok m ∧ m.records.map Record.device = devices :=
    Model.exists_build (by decide) (by decide) (by decide)
  obtain ⟨first, rest, hrecords, hfirst, hrest⟩ := List.map_eq_cons_iff.1 hdevices
  obtain ⟨r, rest, rfl, hr, hrest⟩ := List.map_eq_cons_iff.1 hrest
  obtain ⟨last, rest, rfl, hlast, hrest⟩ := List.map_eq_cons_iff.1 hrest
  obtain rfl := List.map_eq_nil_iff.1 hrest
  have hdecoders : firstOfClass m.records = [first, r] := by
    have hlps : CSource.name "LPS25" = "LPS25" := by decide
    have hvl : CSource.name "VL6180" = "VL6180" := by decide
    rw [hrecords]
    simp [firstOfClass, OpensClass, List.zipIdx_cons, typeIdentifier, hfirst, hr, hlast, hlps, hvl]
  have hname : r.device.typeName = "VL6180" := by rw [hr]
  have hb : (Bindings.ofModel m {}).outcome = .ok ⟨m.records, firstOfClass m.records, {}⟩ := by rw [ofModel_eq]
  have hbefore : ∀ d ∈ [first], d.device.typeName ≠ r.device.typeName := by
    rw [List.forall_mem_singleton, hfirst, hname]
    decide
  have hsplit : m.records = [first] ++ r :: [last] := hrecords
  obtain ⟨hrun, hreached, -, hfile⟩ := dispatch_finds_first_record_iff hb hsplit (by rw [hname]; decide) (by rw [hname]; decide) hbefore
    (comparesTexts_textMachine [1, 2]) "decoders.h" "records.h" 0 (by decide : 2 < 2 ^ 32) 7 ⟨fun _ => 0, []⟩
  have hfound : reached? (firstOfClass m.records) "VL6180" = some r := by
    rw [hname] at hreached
    refine hreached.2 ⟨?_, fun d hd => ?_⟩
    · rw [List.forall_mem_singleton, typeIdentifier, hfirst, typeIdentifier, hname]
      decide
    · rw [List.mem_singleton.1 (mem_of_mem_firstOfClass hd).1, hfirst]
      decide
  have howned : ∀ d ∈ firstOfClass m.records, typeIdentifier d ≠ "device_data" := by
    rw [hdecoders]
    intro d hd
    simp only [List.mem_cons, List.not_mem_nil, or_false] at hd
    rcases hd with rfl | rfl
    · rw [typeIdentifier, hfirst]
      decide
    · rw [typeIdentifier, hr]
      decide
  have hcompared : (comparisons "VL6180" (firstOfClass m.records) : List (Event Unit)) =
      [.called "strcmp" [.text "VL6180", .text "LPS25"], .called "strcmp" [.text "VL6180", .text "VL6180"]] := by
    have hmiss : answersTo "VL6180" first = false := by
      rw [answersTo, hfirst]
      decide
    have hhit : answersTo "VL6180" r = true := by
      rw [answersTo, hr]
      decide
    rw [hdecoders, comparisons_of_not_answersTo hmiss, comparisons_of_answersTo hhit, hfirst, hr]
  have hdecoder : scriptDecoderName r = "mp_decode_VL6180" := by
    rw [scriptDecoderName, typeIdentifier, hr]
    decide
  rw [hname, hfound, hcompared, ← hfile howned] at hrun
  refine ⟨m, _, r, hm, hb, by rw [hr], by rw [hname]; decide, hfound, ?_⟩
  rw [← hdecoder]
  exact hrun

/-- Two type names make one identifier: the second one is left without a decoder, and the dispatch function finds nothing for it. -/
theorem dispatch_misses_type_name :
    let devices : List DeviceType := [{ key := "A", typeName := "a.b" }, { key := "B", typeName := "a_b" }]
    ∃ (m : Model) (b : Bindings), (Model.build devices).outcome = .ok m ∧ Bindings.ofModel m {} = ⟨[.decoderTaken "B" "a_b"], .ok b⟩ ∧
      (∃ d ∈ m.records, d.device.typeName = "a_b") ∧ (∀ d ∈ b.decoders, d.device.typeName ≠ "a_b") ∧
      runFunction (textMachine []) (b.decoderSource "decoders.h" "records.h") "mp_decode_device_data"
          (.text "a_b" :: decoderArguments 0 0 0) ⟨fun _ => 0, []⟩ =
        some (.foreign "mp_const_none", ⟨fun _ => 0, [.called "strcmp" [.text "a_b", .text "a.b"]]⟩) := by
  intro devices
  obtain ⟨m, hm, hdevices⟩ : ∃ m, (Model.build devices).outcome = .ok m ∧ m.records.map Record.device = devices :=
    Model.exists_build (by decide) (by decide) (by decide)
  obtain ⟨first, rest, hrecords, hfirst, hrest⟩ := List.map_eq_cons_iff.1 hdevices
  obtain ⟨second, rest, rfl, hsecond, hrest⟩ := List.map_eq_cons_iff.1 hrest
  obtain rfl := List.map_eq_nil_iff.1 hrest
  have hsame : CSource.name "a_b" = CSource.name "a.b" := by decide
  have hdecoders : firstOfClass m.records = [first] := by
    rw [hrecords]
    simp [firstOfClass, OpensClass, List.zipIdx_cons, typeIdentifier, hfirst, hsecond, hsame]
  have hskipped : laterOfClass m.records = [second] := by
    rw [hrecords]
    simp [laterOfClass, JoinsClass, List.zipIdx_cons, typeIdentifier, hfirst, hsecond, hsame]
  have hmiss : answersTo "a_b" first = false := by
    rw [answersTo, hfirst]
    decide
  have howned : ∀ d ∈ firstOfClass m.records, scriptDecoderName d ≠ dispatchSignature.name := by
    rw [hdecoders, List.forall_mem_singleton, scriptDecoderName, typeIdentifier, hfirst]
    decide
  have hnone : reached? (firstOfClass m.records) "a_b" = none := by
    rw [hdecoders, reached?, List.find?_cons_of_neg (by simp [hmiss])]
    rfl
  have hcompared : (comparisons "a_b" (firstOfClass m.records) : List (Event Unit)) = [.called "strcmp" [.text "a_b", .text "a.b"]] := by
    rw [hdecoders, comparisons_of_not_answersTo hmiss, hfirst]
    rfl
  let b : Bindings := ⟨m.records, firstOfClass m.records, {}⟩
  have hrun : dispatch (textMachine []) b "decoders.h" "records.h" b.decoders (.text "a_b" :: decoderArguments 0 0 0) ⟨fun _ => 0, []⟩ =
      some (.foreign "mp_const_none", Memory.log ⟨fun _ => 0, []⟩ (comparisons "a_b" b.decoders)) :=
    dispatch_of_none (comparesTexts_textMachine []) (by decide) hnone _
  rw [← runFunction_dispatch howned, hcompared] at hrun
  refine ⟨m, b, hm, ?_, ⟨second, by rw [hrecords]; simp, by rw [hsecond]⟩, ?_, hrun⟩
  · rw [ofModel_eq, hskipped, List.map_singleton, hsecond]
  · show ∀ d ∈ firstOfClass m.records, d.device.typeName ≠ "a_b"
    rw [hdecoders, List.forall_mem_singleton, hfirst]
    decide

end DeviceCatalog.Artifact
