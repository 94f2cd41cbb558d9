import DeviceCatalog.Proofs.NativeFile
import DeviceCatalog.Proofs.ScriptFile

/-!
# Decoders stay in their buffer

The decoders that are emitted for a model, run from the files they are emitted in, on a buffer of any length. A native decoder reads one
poll result after the other, each from its first byte to its last one, and ends when one more is not wanted, not there or has no room. A
script decoder reads the poll response that its guard has found to be there. Neither is ever stuck at a byte outside the buffer.
-/

namespace DeviceCatalog

open CSource

namespace Model

/-- Two records of a model have different identifiers. -/
theorem Describes.nodup_identifiers {m : Model} {devices : List DeviceType} (h : m.Describes devices) :
    (m.records.map Record.identifier).Nodup := by
  have hnames := h.names
  rw [DistinctNames, ← h.deviceTypes, List.map_map, List.map_map] at hnames
  exact hnames

/-- The fields of a record stand end to end, from the start of the poll response to its end. -/
theorem Describes.consecutive {m : Model} {devices : List DeviceType} (h : m.Describes devices) {r : Record} (hr : r ∈ m.records) :
    PlacedField.Consecutive 0 r.layout.size r.layout.fields := by
  rw [h.layouts r hr]
  exact PollLayout.consecutive_place r.device.key 0 r.device.responseSchema

end Model

namespace Artifact

variable {α : Type} {M : Machine α}

/-! ## Runs from the files -/

/-- Run from the file it is emitted in, the native decoder of a record fills the first structures of the array, one in every turn. -/
theorem exists_run_fills {devices : List DeviceType} {m : Model} (h : m.Describes devices) {o : Options} (ho : o.validate = .ok ())
    (hdecoding : o.decoding = true) {r : Record} (hr : r ∈ m.records) (hlength : recordLength o r < 4294967296)
    (hbuffer : M.buffer.length < 4294967296) (pollRecordsName : String) (structOutSize : UInt32) (maxRecCount : UInt16) (mem : Memory α) :
    ∃ (mem' : Memory α) (turns : List (List (Event α))),
      runFunction M (pollRecords m o ++ deviceTable m o pollRecordsName) ("decodePollResp_" ++ r.identifier)
          [.bytes 0, .int .uint32 M.buffer.length, .room, .int .uint32 structOutSize.toNat, .int .uint16 maxRecCount.toNat, .state] mem =
        some (.int .uint32 (recordCount M o r maxRecCount.toNat structOutSize.toNat), mem') ∧
      mem'.trace = mem.trace ++ turns.flatMap (fun es => .turn :: es) ∧
      turns.length = recordCount M o r maxRecCount.toNat structOutSize.toNat ∧
      ∀ (k : Nat) es, turns[k]? = some es → FillsStructure M o r k es := by
  obtain ⟨hpos, hle⟩ := Options.timestampBytes_of_validate ho
  obtain ⟨earlier, later, hrecords, hnew⟩ := exists_split h.nodup_identifiers hr
  have hscope : DecoderScope M (Scope.ofItems M (nativeBefore m o pollRecordsName earlier)) o r :=
    decoderScope_nativeBefore hdecoding hpos hle hrecords hnew
  have hfits : CallFits M o r maxRecCount.toNat structOutSize.toNat :=
    ⟨hpos, hlength, hbuffer, maxRecCount.toNat_lt, structOutSize.toNat_lt⟩
  obtain ⟨mem', turns, hrun, hturns⟩ := meaning_decoder hscope hfits (h.consecutive hr) mem
  have hname : "decodePollResp_" ++ r.identifier = decoderName r := rfl
  exact ⟨mem', turns, by rw [hname, runFunction_decoder hdecoding hrecords hnew, hrun], hturns⟩

/-- A script decoder is one of a record of the model, and what stands in front of it in its file is what it relies on. -/
theorem exists_scriptScope {m : Model} {config : ScriptOptions} {b : Bindings} (hb : (Bindings.ofModel m config).outcome = .ok b) {r : Record}
    (hr : r ∈ b.decoders) (M : Machine α) (headerName pollRecordsName : String) :
    r ∈ m.records ∧ ∃ scope, ScriptScope M scope config ∧
      runFunction M (b.decoderSource headerName pollRecordsName) ("mp_decode_" ++ typeIdentifier r) =
        meaning M scope (scriptDecoderSignature r) (scriptDecoderBody config r) := by
  have hbindings := eq_of_outcome_ofModel hb
  have hoptions : b.options = config := by rw [hbindings]
  have hdecoders : b.decoders = (assignDecoders [] m.records).1 := by rw [hbindings]
  obtain ⟨hnodup, hmem⟩ := nodup_assignDecoders [] m.records
  rw [← hdecoders] at hnodup hmem
  obtain ⟨earlier, later, hsplit, hnew⟩ := exists_split hnodup hr
  have hrun : runFunction M (b.decoderSource headerName pollRecordsName) (scriptDecoderName r) =
      meaning M (Scope.ofItems M (scriptBefore config headerName pollRecordsName earlier)) (scriptDecoderSignature r)
        (scriptDecoderBody config r) := by
    rw [runFunction_scriptDecoder hsplit hnew, hoptions]
  exact ⟨(hmem r hr).1, _, scriptScope_scriptBefore, hrun⟩

/-- The bindings of a model with one record have its decoder when the device type has a type name. -/
theorem exists_bindings_singleton {m : Model} {r : Record} (hrecords : m.records = [r]) (htype : r.device.typeName.isEmpty = false)
    (config : ScriptOptions) : ∃ b, (Bindings.ofModel m config).outcome = .ok b ∧ b.decoders = [r] := by
  refine ⟨⟨m.records, (assignDecoders [] m.records).1, config⟩, by simp [Bindings.ofModel], ?_⟩
  show (assignDecoders [] m.records).1 = [r]
  rw [hrecords, assignDecoders, if_neg (by simp [htype]), if_neg (by simp)]
  rfl

/-- The record of a device type with a type name has a script decoder. -/
theorem exists_single_decoder {d : DeviceType} (hsize : d.laidOutSize = d.declaredBytes) (htype : d.typeName.isEmpty = false)
    (config : ScriptOptions) : ∃ m b r, (Model.build [d]).outcome = .ok m ∧ (Bindings.ofModel m config).outcome = .ok b ∧
      r ∈ m.records ∧ r ∈ b.decoders ∧ r.device = d ∧ r.layout = PollLayout.place d.key 0 d.responseSchema := by
  obtain ⟨m, r, hm, hrecords, rfl, hlayout⟩ := Model.exists_build_singleton hsize
  obtain ⟨b, hb, hdecoders⟩ := exists_bindings_singleton hrecords htype config
  exact ⟨m, b, r, hm, hb, hrecords ▸ List.mem_singleton_self r, hdecoders ▸ List.mem_singleton_self r, rfl, hlayout⟩

/-! ## Bounds -/

theorem mem_of_read_mem {es : List (Event α)} {ps : List Nat} (h : es.filterMap Event.read? = ps) {p : Nat} (hp : .read p ∈ es) : p ∈ ps := by
  rw [← h]
  exact List.mem_filterMap.2 ⟨_, hp, rfl⟩

/-- Run on a buffer, the native decoder of a record ends. It has decoded as many records as are wanted, as there are poll results in the
buffer and as there is room for, and has made that many turns and done nothing else; the turn of a record reads the bytes of its poll
result, each once and in order, and writes the members of its structure. -/
def NativeDecoderBounds (M : Machine α) (items : List Item) (o : Options) (r : Record) : Prop :=
  ∀ (structOutSize : UInt32) (maxRecCount : UInt16) (mem : Memory α), ∃ (mem' : Memory α) (turns : List (List (Event α))),
    runFunction M items ("decodePollResp_" ++ r.identifier)
        [.bytes 0, .int .uint32 M.buffer.length, .room, .int .uint32 structOutSize.toNat, .int .uint16 maxRecCount.toNat, .state] mem =
      some (.int .uint32 turns.length, mem') ∧
    turns.length = min maxRecCount.toNat
      (min (M.buffer.length / recordLength o r) (structOutSize.toNat / M.sizeOf (.struct (structName r)))) ∧
    mem'.trace = mem.trace ++ turns.flatMap (fun es => .turn :: es) ∧
    ∀ (k : Nat) es, turns[k]? = some es → IsTurn o r k es ∧
      ∀ p, .read p ∈ es → k * recordLength o r ≤ p ∧ p < (k + 1) * recordLength o r

/-- Run on a buffer, the script decoder of a record ends. It reads the bytes of the poll response, each once and in order, if the buffer is
long enough, and nothing otherwise. -/
def ScriptDecoderBounds (M : Machine α) (items : List Item) (r : Record) : Prop :=
  ∀ (timestamp : UInt64) (mem : Memory α), ∃ (v : Value α) (es : List (Event α)),
    runFunction M items ("mp_decode_" ++ typeIdentifier r) [.bytes 0, .int .uint32 M.buffer.length, .int .uint64 timestamp.toNat] mem =
      some (v, mem.log es) ∧
    es.filterMap Event.read? = (if r.layout.size ≤ M.buffer.length then List.range r.layout.size else []) ∧
    ∀ p, .read p ∈ es → p < r.layout.size ∧ p < M.buffer.length

/-- The decoder of every record in the emitted file stays inside the buffer and inside the room for the structs. -/
theorem nativeDecoderBounds_deviceTable {devices : List DeviceType} {m : Model} (h : m.Describes devices) {o : Options}
    (ho : o.validate = .ok ()) (hdecoding : o.decoding = true) {r : Record} (hr : r ∈ m.records) (hlength : recordLength o r < 4294967296)
    (hbuffer : M.buffer.length < 4294967296) (pollRecordsName : String) :
    NativeDecoderBounds M (pollRecords m o ++ deviceTable m o pollRecordsName) o r := by
  intro structOutSize maxRecCount mem
  obtain ⟨mem', turns, hrun, htrace, hcount, hturns⟩ :=
    exists_run_fills h ho hdecoding hr hlength hbuffer pollRecordsName structOutSize maxRecCount mem
  have hturn : ∀ (k : Nat) es, turns[k]? = some es → IsTurn o r k es := fun k es hes => (hturns k es hes).isTurn (h.consecutive hr)
  refine ⟨mem', turns, by rw [hrun, hcount], hcount, htrace, fun k es hes => ⟨hturn k es hes, fun p hp => ?_⟩⟩
  have hmem := mem_of_read_mem (hturn k es hes).reads hp
  rw [List.mem_range'_1] at hmem
  rwa [Nat.succ_mul]

/-- Every decoder of the bindings stays inside the buffer. -/
theorem scriptDecoderBounds_decoderSource {devices : List DeviceType} {m : Model} (h : m.Describes devices) {config : ScriptOptions}
    {b : Bindings} (hb : (Bindings.ofModel m config).outcome = .ok b) {r : Record} (hr : r ∈ b.decoders)
    (hfit : r.layout.size < 4294967296) (hbuffer : M.buffer.length < 4294967296) (headerName pollRecordsName : String) :
    ScriptDecoderBounds M (b.decoderSource headerName pollRecordsName) r := by
  intro timestamp mem
  obtain ⟨hrecord, scope, hscope, hdecoder⟩ := exists_scriptScope hb hr M headerName pollRecordsName
  obtain ⟨v, es, hrun, hes⟩ := meaning_scriptDecoder hscope (h.consecutive hrecord) hfit hbuffer timestamp mem
  refine ⟨v, es, by rw [hdecoder, hrun], hes, fun p hp => ?_⟩
  have hread := mem_of_read_mem hes hp
  split at hread
  · have hlt := List.mem_range.1 hread
    omega
  · cases hread

/-- Whatever model was built and whatever accepted options are chosen, the decoders of a record whose poll results have lengths of 32 bits
do not leave their buffer: the native decoder, where decoders are emitted, and the script decoder, if the record has one. -/
theorem decoders_stay_in_buffer {devices : List DeviceType} {m : Model} (h : (Model.build devices).outcome = .ok m) {o : Options}
    (ho : o.validate = .ok ()) {r : Record} (hr : r ∈ m.records) (hfit : o.timestampBytes.toNat + r.layout.size < 2 ^ 32)
    (M : Machine α) (hbuffer : M.buffer.length < 2 ^ 32) :
    (o.decoding = true → ∀ pollRecordsName,
      NativeDecoderBounds M (pollRecords m o ++ deviceTable m o pollRecordsName) o r) ∧
    ∀ config b, (Bindings.ofModel m config).outcome = .ok b → r ∈ b.decoders → ∀ headerName pollRecordsName,
      ScriptDecoderBounds M (b.decoderSource headerName pollRecordsName) r := by
  have hdescribes := Model.describes_of_build h
  refine ⟨fun hdecoding pollRecordsName => ?_, fun config b hb hdecoder headerName pollRecordsName => ?_⟩
  · exact nativeDecoderBounds_deviceTable hdescribes ho hdecoding hr hfit hbuffer pollRecordsName
  · exact scriptDecoderBounds_decoderSource hdescribes hb hdecoder (by omega) hbuffer headerName pollRecordsName

/-- Ten bytes hold two poll results of four bytes, although five are wanted: both are read and the last two bytes are not. The script decoder
reads the two bytes of its poll response. -/
theorem decoders_stay_in_buffer_partial_result :
    let d : DeviceType :=
      { key := "Probe", typeName := "PROBE", responseSchema := [{ name := "level", typeCode := "<H", outputKind := .int }], declaredBytes := 2 }
    let M : Machine Unit :=
      { buffer := [0, 1, 7, 0, 0, 2, 8, 0, 0, 3], sizeBits := 32, le_sizeBits := Nat.le_refl 32, sizeOf := fun _ => 8
        sizeOf_pos := fun _ => by decide, sizeOf_lt := fun _ => by decide, ofBits := fun _ => (), literal := fun _ _ => (), ofInt := fun _ _ => ()
        round := fun _ x => x, truncate? := fun _ => none, add := fun _ x _ => x, sub := fun _ x _ => x, mul := fun _ x _ => x
        div := fun _ x _ => x, external := fun name _ => .foreign name }
    ∃ m b mem' v es, (Model.build [d]).outcome = .ok m ∧ (Bindings.ofModel m {}).outcome = .ok b ∧
      runFunction M (pollRecords m {} ++ deviceTable m {} "records.h") "decodePollResp_Probe"
          [.bytes 0, .int .uint32 10, .room, .int .uint32 100, .int .uint16 5, .state] ⟨fun _ => 0, []⟩ = some (.int .uint32 2, mem') ∧
      mem'.trace.filterMap Event.read? = [0, 1, 2, 3, 4, 5, 6, 7] ∧
      runFunction M (b.decoderSource "decoders.h" "records.h") "mp_decode_PROBE" [.bytes 0, .int .uint32 10, .int .uint64 0] ⟨fun _ => 0, []⟩ =
        some (v, (⟨fun _ => 0, []⟩ : Memory Unit).log es) ∧
      es.filterMap Event.read? = [0, 1] := by
  intro d M
  obtain ⟨m, b, r, hm, hb, hr, hdecoder, hdevice, -⟩ := exists_single_decoder (d := d) (by decide) (by decide) {}
  have hsize : r.layout.size = 2 := by rw [(Model.describes_of_build hm).sizes r hr, hdevice]
  obtain ⟨hnative, hscript⟩ := decoders_stay_in_buffer hm (o := {}) rfl hr (by rw [hsize]; decide) M (by decide)
  obtain ⟨mem', turns, hrun, hcount, htrace, hturns⟩ := hnative rfl "records.h" 100 5 ⟨fun _ => 0, []⟩
  obtain ⟨v, es, hscriptRun, hreads, -⟩ := hscript {} _ hb hdecoder "decoders.h" "records.h" 0 ⟨fun _ => 0, []⟩
  have hlength : recordLength {} r = 4 := by rw [recordLength, hsize]; rfl
  rw [hlength] at hcount
  have htwo : min (UInt16.toNat 5) (min (10 / 4) (UInt32.toNat 100 / 8)) = 2 := by decide
  obtain ⟨first, second, rfl⟩ := List.length_eq_two.1 (hcount.trans htwo)
  have hfirst := (hturns 0 first rfl).1.reads
  have hsecond := (hturns 1 second rfl).1.reads
  rw [hlength] at hfirst hsecond
  refine ⟨m, b, mem', v, es, hm, hb, ?_, ?_, ?_, ?_⟩
  · have hname : "decodePollResp_" ++ r.identifier = "decodePollResp_Probe" := by
      rw [Record.identifier, hdevice]
      decide
    rw [hname] at hrun
    exact hrun
  · rw [htrace]
    simp [List.filterMap_cons, Event.read?, hfirst, hsecond, List.range']
  · have hname : "mp_decode_" ++ typeIdentifier r = "mp_decode_PROBE" := by
      rw [typeIdentifier, hdevice]
      decide
    rw [hname] at hscriptRun
    exact hscriptRun
  · rw [hreads, hsize]
    decide

end Artifact

end DeviceCatalog
