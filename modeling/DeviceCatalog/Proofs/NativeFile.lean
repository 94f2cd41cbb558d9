import DeviceCatalog.Proofs.NativeDecoder

/-!
# The files of the native decoders

What a decoder relies on is there when the poll records stand in front of the device type table: the constants, the structures and the
helpers have names of their own, and the decoders of two records have different names (`decoderScope_nativeBefore`). So a decoder
runs in these files as it does behind what it relies on (`runFunction_decoder`).
-/

namespace DeviceCatalog

open CSource

/-- The timestamps of accepted options have one to four bytes. -/
theorem Options.timestampBytes_of_validate {o : Options} (h : o.validate = .ok ()) :
    0 < o.timestampBytes.toNat ∧ o.timestampBytes.toNat ≤ 4 := by
  have hrange : ¬ (o.timestampBytes < 1 ∨ 4 < o.timestampBytes) := by
    intro hout
    rw [validate, check, if_pos hout] at h
    cases h
  obtain ⟨hlow, hhigh⟩ := not_or.1 hrange
  exact ⟨UInt32.le_iff_toNat_le.1 (UInt32.not_lt.1 hlow), UInt32.le_iff_toNat_le.1 (UInt32.not_lt.1 hhigh)⟩

namespace Artifact

variable {α : Type} {M : Machine α}

/-- What stands in front of the helpers. -/
def nativeFront (m : Model) (o : Options) (pollRecordsName : String) : List Item :=
  pollRecords m o ++ tableHead o pollRecordsName

/-- What stands in front of a decoder, the decoders before it among it. -/
def nativeBefore (m : Model) (o : Options) (pollRecordsName : String) (earlier : List Record) : List Item :=
  nativeFront m o pollRecordsName ++ helpers nativeHelper ++ (timestampItems o ++ earlier.flatMap (decoderItems o))

/-- Behind the helpers there are the function that unwraps timestamps, the decoders and the tables. -/
theorem nativeFile_eq_append {m : Model} {o : Options} (hdecoding : o.decoding = true) (pollRecordsName : String) :
    pollRecords m o ++ deviceTable m o pollRecordsName = nativeFront m o pollRecordsName ++ helpers nativeHelper ++
      (timestampItems o ++ (m.records.flatMap (decoderItems o) ++
        ([.table (recordTable m o), .blank] ++ indexItems m.index ++ scanItems m.scan))) := by
  simp only [deviceTable, if_pos hdecoding, nativeDecoders, nativeFront, List.append_assoc]

/-! ## Constants -/

section Constants

variable (m : Model) (o : Options) (pollRecordsName : String) (more : List Item)

/-- A constant of the timestamp formats is known behind the head of the poll records. -/
theorem lookup_timestampConstant {name : String} {v : Value α}
    (h : (Scope.ofItems M ([.pragmaOnce, .includeSystem "stdint.h", .blank, generatedNote, .blank] ++ timestampConstants o)).constants.lookup
      name = some v) : (Scope.ofItems M (nativeFront m o pollRecordsName ++ more)).constants.lookup name = some v := by
  rw [nativeFront, pollRecords, List.append_assoc, List.append_assoc]
  exact Scope.lookup_constant h _

/-- The file knows the number of bytes of a timestamp. -/
theorem lookup_timestampSize :
    (Scope.ofItems M (nativeFront m o pollRecordsName ++ more)).constants.lookup "POLL_RESULT_TIMESTAMP_SIZE" =
      some (.int .uint32 o.timestampBytes.toNat) := by
  refine lookup_timestampConstant m o pollRecordsName more ?_
  rw [← Machine.convert_ofDecimal o.timestampBytes.toNat_lt]
  rfl

theorem lookup_pollResolution :
    (Scope.ofItems M (nativeFront m o pollRecordsName ++ more)).constants.lookup "POLL_RESULT_RESOLUTION_US" =
      some (.int .uint32 o.pollResolution.toNat) := by
  refine lookup_timestampConstant m o pollRecordsName more ?_
  rw [← Machine.convert_ofDecimal o.pollResolution.toNat_lt]
  rfl

theorem lookup_wrapPeriod :
    (Scope.ofItems M (nativeFront m o pollRecordsName ++ more)).constants.lookup "POLL_RESULT_WRAP_US" =
      some (.int .uint64 o.wrapPeriod.toNat) := by
  have hkept : IntType.uint64.wrap (IntType.uint64.wrap o.wrapPeriod.toNat) = o.wrapPeriod.toNat := by
    rw [IntType.wrap_wrap, IntType.wrap_natCast rfl o.wrapPeriod.toNat_lt]
  refine lookup_timestampConstant m o pollRecordsName more ?_
  rw [← hkept]
  rfl

theorem lookup_structResolution :
    (Scope.ofItems M (nativeFront m o pollRecordsName ++ more)).constants.lookup "DECODE_STRUCT_TIMESTAMP_RESOLUTION_US" =
      some (.int .uint32 o.structResolution.toNat) := by
  refine lookup_timestampConstant m o pollRecordsName more ?_
  rw [← Machine.convert_ofDecimal o.structResolution.toNat_lt]
  rfl

end Constants

/-! ## Structures and functions -/

section Names

variable {m : Model} {o : Options} {pollRecordsName : String} {earlier later : List Record} {r : Record}

theorem functions_nativeFront : (nativeFront m o pollRecordsName).filterMap Item.function? = [] := by
  rw [List.filterMap_eq_nil_iff]
  intro item hitem
  simp only [nativeFront, pollRecords, timestampConstants, tableHead, List.mem_append, List.mem_cons, List.not_mem_nil, or_false] at hitem
  rcases hitem with ((hitem | hitem) | hitem) | ((hitem | hitem) | hitem)
  · rcases hitem with rfl | rfl | rfl | rfl | rfl <;> rfl
  · rcases hitem with rfl | rfl | rfl | rfl <;> rfl
  · split at hitem
    · obtain ⟨r, -, hr⟩ := List.mem_flatMap.1 hitem
      simp only [structItems, List.mem_cons, List.not_mem_nil, or_false] at hr
      rcases hr with rfl | rfl <;> rfl
    · cases hitem
  · rcases hitem with rfl | rfl | rfl | rfl <;> rfl
  · split at hitem
    · rw [List.mem_singleton.1 hitem]
      rfl
    · cases hitem
  · rcases hitem with rfl | rfl <;> rfl

/-- The functions in front of a decoder: the helpers, the one for timestamps and the decoders before it. -/
theorem functions_nativeBefore : (nativeBefore m o pollRecordsName earlier).filterMap Item.function? =
    FieldType.all.map (fun t => nativeHelper ++ t.extractor) ++ timestampFunction :: earlier.map decoderName := by
  have hhelpers : (helpers nativeHelper).filterMap Item.function? = FieldType.all.map fun t => nativeHelper ++ t.extractor :=
    functions_someHelpers nativeHelper FieldType.all
  have hdecoders : (earlier.flatMap (decoderItems o)).filterMap Item.function? = earlier.map decoderName := by
    induction earlier with
    | nil => rfl
    | cons r earlier ih =>
      rw [List.flatMap_cons, List.filterMap_append, ih]
      rfl
  rw [nativeBefore, List.filterMap_append, List.filterMap_append, List.filterMap_append, functions_nativeFront, hhelpers, hdecoders]
  rfl

/-- Decoders of the same name are for the same identifier. -/
theorem decoderName_injective {r' : Record} (h : decoderName r = decoderName r') : r.identifier = r'.identifier :=
  (String.append_right_inj _).1 h

/-- The names of the decoders are not those of the functions that they use. -/
theorem decoderName_ne {name : String} (h : name ∈ timestampFunction :: FieldType.all.map fun t => nativeHelper ++ t.extractor) :
    decoderName r ≠ name := by
  have hothers : ∀ name ∈ timestampFunction :: FieldType.all.map fun t => nativeHelper ++ t.extractor,
      name.toList.take 3 = ['d', 'e', 'v'] := by decide
  rintro rfl
  have hstart := hothers _ h
  rw [decoderName, String.toList_append, List.take_append_of_le_length (by decide)] at hstart
  exact absurd hstart (by decide)

/-- No function in front of a decoder has its name, if no record before it has its identifier. -/
theorem decoderName_notMem (h : r.identifier ∉ earlier.map Record.identifier) :
    decoderName r ∉ (nativeBefore m o pollRecordsName earlier).filterMap Item.function? := by
  rw [functions_nativeBefore, List.mem_append, List.mem_cons]
  rintro (hname | hname | hname)
  · exact decoderName_ne (List.mem_cons_of_mem _ hname) rfl
  · exact decoderName_ne List.mem_cons_self hname
  · obtain ⟨r', hr', hsame⟩ := List.mem_map.1 hname
    exact h (List.mem_map.2 ⟨r', hr', decoderName_injective hsame⟩)

/-- The header of the records has a struct for every record. -/
theorem structs_pollRecords (h : o.decoding = true) :
    (pollRecords m o).filterMap Item.struct? = m.records.map fun r => (structName r, structMembers o r) := by
  have hstructs : ∀ rs : List Record, (rs.flatMap (structItems o)).filterMap Item.struct? =
      rs.map fun r => (structName r, structMembers o r) := by
    intro rs
    induction rs with
    | nil => rfl
    | cons r rs ih =>
      rw [List.flatMap_cons, List.filterMap_append, ih]
      rfl
  rw [pollRecords, if_pos h, List.filterMap_append, hstructs]
  rfl

/-- The structure of a record is the first one of its name. -/
theorem lookup_struct (hdecoding : o.decoding = true) (hrecords : m.records = earlier ++ r :: later)
    (h : r.identifier ∉ earlier.map Record.identifier) (more : List Item) :
    (Scope.ofItems M (nativeFront m o pollRecordsName ++ more)).structs.lookup (structName r) = some (structMembers o r) := by
  have hname : structName r ∉ (earlier.map fun r => (structName r, structMembers o r)).map Prod.fst := by
    rw [List.map_map, List.mem_map]
    rintro ⟨r', hr', hsame⟩
    exact h (List.mem_map.2 ⟨r', hr', (String.append_right_inj _).1 hsame⟩)
  rw [Scope.structs_ofItems, nativeFront, List.append_assoc, List.filterMap_append, structs_pollRecords hdecoding, hrecords,
    List.map_append, List.map_cons, List.append_assoc, List.lookup_append, lookup_eq_none_of_notMem hname, Option.none_or,
    List.cons_append, List.lookup_cons_self]

end Names

/-! ## Decoders -/

section Decoders

variable {m : Model} {o : Options} {pollRecordsName : String} {earlier later : List Record} {r : Record}

/-- The function that unwraps timestamps is known behind the helpers. -/
theorem lookup_timestampFunction (rest : List Item) :
    (Scope.ofItems M (nativeFront m o pollRecordsName ++ helpers nativeHelper ++ (timestampItems o ++ rest))).functions.lookup
      timestampFunction = some (meaning M (Scope.ofItems M (nativeFront m o pollRecordsName ++ helpers nativeHelper)) timestampSignature
        (timestampBody o)) := by
  have hname : timestampSignature.name ∉ (nativeFront m o pollRecordsName ++ helpers nativeHelper).filterMap Item.function? := by
    have hhelpers : (helpers nativeHelper).filterMap Item.function? = FieldType.all.map fun t => nativeHelper ++ t.extractor :=
      functions_someHelpers nativeHelper FieldType.all
    rw [List.filterMap_append, functions_nativeFront, hhelpers]
    decide
  exact Scope.lookup_function hname

/-- The function that unwraps timestamps gives one, wherever it stands behind the helpers. -/
theorem givesTimestamp_nativeFront (hpos : 0 < o.timestampBytes.toNat) (hle : o.timestampBytes.toNat ≤ 4) :
    GivesTimestamp M (meaning M (Scope.ofItems M (nativeFront m o pollRecordsName ++ helpers nativeHelper)) timestampSignature
      (timestampBody o)) o.timestampBytes.toNat o.pollResolution.toNat o.wrapPeriod :=
  givesTimestamp_meaning hpos hle (lookup_pollResolution m o pollRecordsName _) (lookup_wrapPeriod m o pollRecordsName _)

/-- A decoder calls a function that unwraps timestamps. -/
theorem givesTimestamp_nativeBefore (hpos : 0 < o.timestampBytes.toNat) (hle : o.timestampBytes.toNat ≤ 4) :
    GivesTimestamp M ((Scope.ofItems M (nativeBefore m o pollRecordsName earlier)).call M timestampFunction) o.timestampBytes.toNat
      o.pollResolution.toNat o.wrapPeriod := by
  have hcall : (Scope.ofItems M (nativeBefore m o pollRecordsName earlier)).call M timestampFunction =
      meaning M (Scope.ofItems M (nativeFront m o pollRecordsName ++ helpers nativeHelper)) timestampSignature (timestampBody o) := by
    funext vs mem
    rw [Scope.call, nativeBefore, lookup_timestampFunction]
  rw [hcall]
  exact givesTimestamp_nativeFront hpos hle

/-- What stands in front of a decoder is what it relies on. -/
theorem decoderScope_nativeBefore (hdecoding : o.decoding = true) (hpos : 0 < o.timestampBytes.toNat) (hle : o.timestampBytes.toNat ≤ 4)
    (hrecords : m.records = earlier ++ r :: later) (h : r.identifier ∉ earlier.map Record.identifier) :
    DecoderScope M (Scope.ofItems M (nativeBefore m o pollRecordsName earlier)) o r where
  fields := givesField_helpers fun t => by
    rw [functions_nativeFront]
    exact List.not_mem_nil
  timestamp := givesTimestamp_nativeBefore hpos hle
  size := by
    rw [nativeBefore, List.append_assoc]
    exact lookup_timestampSize m o pollRecordsName _
  resolution := by
    rw [nativeBefore, List.append_assoc]
    exact ⟨_, lookup_structResolution m o pollRecordsName _⟩
  members := by
    rw [nativeBefore, List.append_assoc]
    exact lookup_struct hdecoding hrecords h _

/-- A decoder is found under its name in the poll records and the device type table. -/
theorem runFunction_decoder (hdecoding : o.decoding = true) (hrecords : m.records = earlier ++ r :: later)
    (h : r.identifier ∉ earlier.map Record.identifier) :
    runFunction M (pollRecords m o ++ deviceTable m o pollRecordsName) (decoderName r) =
      meaning M (Scope.ofItems M (nativeBefore m o pollRecordsName earlier)) (decoderSignature r) (decoderBody o r) := by
  have hsplit : pollRecords m o ++ deviceTable m o pollRecordsName = nativeBefore m o pollRecordsName earlier ++
      .function .ownLine (decoderSignature r) (decoderBody o r) :: (.blank :: later.flatMap (decoderItems o) ++
        ([.table (recordTable m o), .blank] ++ indexItems m.index ++ scanItems m.scan)) := by
    have hdecoders : m.records.flatMap (decoderItems o) = earlier.flatMap (decoderItems o) ++
        .function .ownLine (decoderSignature r) (decoderBody o r) :: .blank :: later.flatMap (decoderItems o) := by
      rw [hrecords, List.flatMap_append, List.flatMap_cons]
      rfl
    simp only [nativeFile_eq_append hdecoding, hdecoders, nativeBefore, List.append_assoc, List.cons_append]
  rw [hsplit]
  exact runFunction_eq (Scope.lookup_function (s := decoderSignature r) (decoderName_notMem h))

end Decoders

end Artifact

end DeviceCatalog
