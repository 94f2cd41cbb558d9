import DeviceCatalog.Artifact.DeviceTable
import DeviceCatalog.Proofs.Declarations
import DeviceCatalog.Proofs.Identifiers
import DeviceCatalog.Proofs.ModelBuild

/-!
# The table of records reads back

Catalog text stands in the table of records as it is, next to the braces and commas of the table. Read back, every record has its own
row, and every column of the row holds the text that was put there, so the table determines what the records say.
-/

namespace DeviceCatalog

open CSource

namespace Artifact

/-- What the row of a device type says, column by column. -/
def recordCells (o : Options) (d : DeviceType) : List Cell :=
  [ .text d.typeName, .text d.addressSpec, .text d.detectionValues, .text d.initValues, .text d.pollInfo.compact,
    .word (Text.decimal d.declaredBytes), if o.includeDeviceInfo then .text d.deviceInfo.compact else .word "nullptr" ] ++
    (if o.decoding then [.word ("decodePollResp_" ++ CSource.name d.key)] else [])

/-- Every column is printed as a single cell. -/
theorem isPlain_recordColumns (o : Options) (r : Record) : ∀ e ∈ recordColumns o r, e.IsPlain := by
  have hinfo : (if o.includeDeviceInfo then Expr.raw r.device.deviceInfo.compact else .var "nullptr").IsPlain := by
    split
    · exact isPlain_raw _
    · exact isPlain_var ⟨by decide, by decide⟩
  have hdecoder : ∀ e ∈ if o.decoding then [Expr.var (decoderName r)] else [], e.IsPlain := by
    split
    · intro e he
      rw [List.mem_singleton.1 he]
      have hstart : IsWord "decodePollResp_".toList := ⟨by decide, by decide⟩
      exact isPlain_var (hstart.append fun c hc => isNameChar_of_mem_name hc)
    · exact nofun
  intro e he
  rcases List.mem_append.1 he with he | he
  · simp only [List.mem_cons, List.not_mem_nil, or_false] at he
    rcases he with rfl | rfl | rfl | rfl | rfl | rfl | rfl
    · exact isPlain_raw _
    · exact isPlain_raw _
    · exact isPlain_raw _
    · exact isPlain_raw _
    · exact isPlain_raw _
    · exact isPlain_decimal _
    · exact hinfo
  · exact hdecoder e he

/-- The cells of a row are those of its device type, if the record has the declared size. -/
theorem cells_recordColumns (o : Options) {r : Record} (h : r.layout.size = r.device.declaredBytes) :
    (recordColumns o r).map Expr.cell = recordCells o r.device := by
  rw [recordColumns, recordCells, h]
  cases o.includeDeviceInfo <;> cases o.decoding <;> rfl

/-- The table of a model reads as one row for each of its device types. -/
theorem rows?_recordTable {devices : List DeviceType} {m : Model} (h : m.Describes devices) (o : Options) :
    rows? (Item.table (recordTable m o)).text = some ("baseDevTypeRecords", devices.map (recordCells o)) := by
  have hplain : ∀ row ∈ m.records.map (recordColumns o), ∀ e ∈ row, e.IsPlain := by
    intro row hrow
    obtain ⟨r, -, rfl⟩ := List.mem_map.1 hrow
    exact isPlain_recordColumns o r
  have hrows : (m.records.map (recordColumns o)).map (fun row => row.map Expr.cell) = devices.map (recordCells o) := by
    rw [← h.deviceTypes, List.map_map, List.map_map]
    exact List.map_congr_left fun r hr => cells_recordColumns o (h.sizes r hr)
  have htype : (CType.named "DeviceTypeRecord").IsPlain := ⟨by decide, by decide⟩
  rw [← hrows]
  exact rows?_records htype ⟨by decide, by decide⟩ hplain

/-- The table of records in the file of a model reads as one row for each device type, in catalog order, whose columns are the texts of
the device type as they are, the declared size, the device info or a null pointer, and the decoder if there is one. So tables with the
same text have the same columns. -/
theorem record_table_reads_back {devices : List DeviceType} {m : Model} (h : (Model.build devices).outcome = .ok m) (o : Options)
    (pollRecordsName : String) :
    (∃ before after, deviceTable m o pollRecordsName = before ++ .table (recordTable m o) :: after) ∧
    rows? (Item.table (recordTable m o)).text = some ("baseDevTypeRecords", devices.map (recordCells o)) ∧
    ∀ devices' m' o', (Model.build devices').outcome = .ok m' →
      (Item.table (recordTable m' o')).text = (Item.table (recordTable m o)).text →
        devices'.map (recordCells o') = devices.map (recordCells o) := by
  have hrows := rows?_recordTable (Model.describes_of_build h) o
  refine ⟨⟨tableHead o pollRecordsName ++ (if o.decoding then nativeDecoders m o else []),
    .blank :: (indexItems m.index ++ scanItems m.scan), by simp [deviceTable]⟩, hrows, ?_⟩
  intro devices' m' o' h' htext
  have hrows' := rows?_recordTable (Model.describes_of_build h') o'
  rw [htext, hrows] at hrows'
  exact (Prod.mk.inj (Option.some.inj hrows')).2.symm

/-- A text that holds the ending of a plain literal, that of a named one, and the marks of a table stays in its column. -/
theorem record_table_hostile_text :
    let d : DeviceType := { key := "Odd", typeName := "a)\", nullptr\n    \x7d,\n    \x7b)raw\"b", initValues := "R\"raw(" }
    let o : Options := { includeDeviceInfo := false }
    ∃ m, (Model.build [d]).outcome = .ok m ∧ rows? (Item.table (recordTable m o)).text = some ("baseDevTypeRecords",
      [[.text "a)\", nullptr\n    \x7d,\n    \x7b)raw\"b", .text "", .text "", .text "R\"raw(", .text "\x7b\x7d", .word "0", .word "nullptr",
        .word "decodePollResp_Odd"]]) := by
  intro d o
  have haccepts : Model.Accepts [d] :=
    ⟨by simp [d, DeviceType.laidOutSize], by simp [Model.DistinctNames], Model.positionsFit_of_length (by decide)⟩
  obtain ⟨m, hm⟩ := Model.exists_outcome_build_eq_ok_iff.2 haccepts
  refine ⟨m, hm, ?_⟩
  rw [(record_table_reads_back hm o "").2.1]
  decide

end Artifact

end DeviceCatalog
