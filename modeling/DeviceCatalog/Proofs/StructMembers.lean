import DeviceCatalog.Proofs.DecoderBounds
import DeviceCatalog.Proofs.Dispatch
import DeviceCatalog.Proofs.Identifiers

/-!
# The members of a poll structure

A poll structure has one member for the timestamp and one for every placed field, and a turn of the native decoder writes them in this
order. The decoder therefore writes a member of some structure twice exactly when two members of the structure have one name: what stands
for a field's name may be what stands for another field's name, or the name of the timestamp.
-/

namespace DeviceCatalog

/-- The attributes of a device type that have a place in its poll response. -/
def DeviceType.placed (d : DeviceType) : List Attribute :=
  d.responseSchema.filter fun a => a.HasPlace

namespace Artifact

open CSource

variable {α : Type}

/-! ## Names -/

/-- The members of a struct: the one for the timestamp, then one for every placed attribute. -/
theorem memberNames_eq {m : Model} {devices : List DeviceType} (h : m.Describes devices) (o : Options) {r : Record} (hr : r ∈ m.records) :
    (structMembers o r).map Prod.snd = o.timestampName :: r.device.placed.map fun a => CSource.name a.name := by
  have hattrs : r.layout.fields.map PlacedField.attr = r.device.placed := by
    rw [h.layouts r hr, PollLayout.map_attr_fields_place]
    rfl
  rw [← hattrs, structMembers, List.map_cons, List.map_map, List.map_map]
  rfl

/-- The names of the members differ when those of the fields do and none of these is the timestamp's. -/
theorem nodup_memberNames_iff {timestamp : String} {attrs : List Attribute} :
    (timestamp :: attrs.map fun a => CSource.name a.name).Nodup ↔
      (∀ a ∈ attrs, CSource.name a.name ≠ timestamp) ∧ attrs.Pairwise fun a b => CSource.name a.name ≠ CSource.name b.name := by
  rw [List.nodup_cons, List.mem_map, List.Nodup, List.pairwise_map]
  push Not
  rfl

/-- Fields whose names are identifiers need no more than different names. -/
theorem nodup_memberNames_of_isIdentifier {timestamp : String} {attrs : List Attribute} (hidentifiers : ∀ a ∈ attrs, IsIdentifier a.name)
    (htimestamp : ∀ a ∈ attrs, a.name ≠ timestamp) (hnames : (attrs.map Attribute.name).Nodup) :
    (timestamp :: attrs.map fun a => CSource.name a.name).Nodup := by
  have hkept : attrs.map (fun a => CSource.name a.name) = attrs.map Attribute.name :=
    List.map_congr_left fun a ha => name_of_isIdentifier (hidentifiers a ha)
  rw [hkept, List.nodup_cons, List.mem_map]
  refine ⟨?_, hnames⟩
  rintro ⟨a, ha, hsame⟩
  exact htimestamp a ha hsame

/-! ## Writes -/

/-- The members of the first structures of an array, structure after structure. -/
def places (struct : String) (names : List String) (start count : Nat) : List (String × Nat × String) :=
  (List.range' start count).flatMap fun k => names.map fun name => (struct, k, name)

/-- They are all different when the names are, unless there is no structure. -/
theorem nodup_places_iff (struct : String) (names : List String) (start count : Nat) :
    (places struct names start count).Nodup ↔ count = 0 ∨ names.Nodup := by
  have hone : ∀ k : Nat, (names.map fun name => (struct, k, name)).Nodup ↔ names.Nodup := fun k =>
    List.nodup_map_iff fun a b hab => congrArg (fun place => place.2.2) hab
  -- the places of two structures differ in the index, whatever the names
  have hapart : (List.range' start count).Pairwise fun k l =>
      List.Disjoint (names.map fun name => (struct, k, name)) (names.map fun name => (struct, l, name)) := by
    have hdifferent : (List.range' start count).Nodup := List.nodup_range'
    refine hdifferent.imp fun {k l} hne place hk hl => ?_
    obtain ⟨name, -, rfl⟩ := List.mem_map.1 hk
    obtain ⟨other, -, hother⟩ := List.mem_map.1 hl
    exact hne (congrArg (fun place => place.2.1) hother).symm
  rw [places, List.nodup_flatMap, and_iff_left hapart]
  simp only [hone]
  constructor
  · intro h
    rcases Nat.eq_zero_or_pos count with hzero | hpos
    · exact Or.inl hzero
    · exact Or.inr (h start (List.mem_range'_1.2 ⟨Nat.le_refl _, by omega⟩))
  · rintro (rfl | hnames) k hk
    · cases hk
    · exact hnames

/-- Turn after turn, the structures are filled one after the other. -/
theorem written_turns {o : Options} {r : Record} {turns : List (List (Event α))} {start : Nat}
    (h : ∀ (i : Nat) es, turns[i]? = some es → IsTurn o r (start + i) es) :
    (turns.flatMap fun es => .turn :: es).filterMap Event.written? =
      places (structName r) ((structMembers o r).map Prod.snd) start turns.length := by
  -- the first turn fills the structure at `start`, so the others start one further
  induction turns generalizing start with
  | nil => rfl
  | cons es turns ih =>
    have hfirst : es.filterMap Event.written? = (structMembers o r).map fun m => (structName r, start, m.2) := (h 0 es rfl).writes
    have hlater : ∀ (i : Nat) es', turns[i]? = some es' → IsTurn o r (start + 1 + i) es' := by
      intro i es' hi
      rw [Nat.add_assoc, Nat.add_comm 1 i]
      exact h (i + 1) es' hi
    have hrest := ih hlater
    rw [List.flatMap_cons, List.filterMap_append, hrest, List.length_cons, places, places, List.range'_succ, List.flatMap_cons,
      List.map_map]
    exact congrArg (· ++ _) hfirst

/-- Run from the file it is emitted in, the decoder of a record fills the first structures of the array, member after member. -/
theorem exists_run_writes {devices : List DeviceType} {m : Model} (h : m.Describes devices) {o : Options} (ho : o.validate = .ok ())
    (hdecoding : o.decoding = true) {r : Record} (hr : r ∈ m.records) (hlength : recordLength o r < 4294967296) {M : Machine α}
    (hbuffer : M.buffer.length < 4294967296) (pollRecordsName : String) (structOutSize : UInt32) (maxRecCount : UInt16) (mem : Memory α) :
    ∃ (mem' : Memory α) (es : List (Event α)),
      runFunction M (pollRecords m o ++ deviceTable m o pollRecordsName) ("decodePollResp_" ++ r.identifier)
          [.bytes 0, .int .uint32 M.buffer.length, .room, .int .uint32 structOutSize.toNat, .int .uint16 maxRecCount.toNat, .state] mem =
        some (.int .uint32 (recordCount M o r maxRecCount.toNat structOutSize.toNat), mem') ∧
      mem'.trace = mem.trace ++ es ∧
      es.filterMap Event.written? = places (structName r) ((structMembers o r).map Prod.snd) 0
        (recordCount M o r maxRecCount.toNat structOutSize.toNat) := by
  obtain ⟨mem', turns, hrun, htrace, hcount, hturns⟩ :=
    exists_run_fills h ho hdecoding hr hlength hbuffer pollRecordsName structOutSize maxRecCount mem
  have hwritten : (turns.flatMap fun es => .turn :: es).filterMap Event.written? =
      places (structName r) ((structMembers o r).map Prod.snd) 0 turns.length :=
    written_turns fun i es hi => (Nat.zero_add i).symm ▸ (hturns i es hi).isTurn (h.consecutive hr)
  rw [hcount] at hwritten
  exact ⟨mem', _, hrun, htrace, hwritten⟩

/-- With decoding, the poll records have one structure for every record, with the timestamp and the placed fields as members. The members
have different names exactly when no two fields have names with the same identifier and none has the timestamp's; names that are
identifiers already need only be different. And exactly then, unless it fills no structure, the decoder of the record writes no member
twice: it writes the members of the structures that it fills one after the other, and nothing else. -/
theorem struct_members_distinct_iff {devices : List DeviceType} {m : Model} (h : (Model.build devices).outcome = .ok m) {o : Options}
    (ho : o.validate = .ok ()) (hdecoding : o.decoding = true) :
    (pollRecords m o).filterMap Item.struct? = m.records.map (fun r => ("poll_" ++ r.identifier, structMembers o r)) ∧
    ∀ r ∈ m.records,
      (structMembers o r).map Prod.snd = o.timestampName :: r.device.placed.map (fun a => CSource.name a.name) ∧
      (((structMembers o r).map Prod.snd).Nodup ↔ (∀ a ∈ r.device.placed, CSource.name a.name ≠ o.timestampName) ∧
        r.device.placed.Pairwise fun a b => CSource.name a.name ≠ CSource.name b.name) ∧
      ((∀ a ∈ r.device.placed, IsIdentifier a.name ∧ a.name ≠ o.timestampName) → (r.device.placed.map Attribute.name).Nodup →
        ((structMembers o r).map Prod.snd).Nodup) ∧
      ∀ M : Machine α, recordLength o r < 2 ^ 32 → M.buffer.length < 2 ^ 32 →
        ∀ (pollRecordsName : String) (structOutSize : UInt32) (maxRecCount : UInt16) (mem : Memory α),
          ∃ (mem' : Memory α) (es : List (Event α)) (count : Nat),
            count = recordCount M o r maxRecCount.toNat structOutSize.toNat ∧
            runFunction M (pollRecords m o ++ deviceTable m o pollRecordsName) ("decodePollResp_" ++ r.identifier)
                [.bytes 0, .int .uint32 M.buffer.length, .room, .int .uint32 structOutSize.toNat, .int .uint16 maxRecCount.toNat, .state]
                mem = some (.int .uint32 count, mem') ∧
            mem'.trace = mem.trace ++ es ∧
            es.filterMap Event.written? = places ("poll_" ++ r.identifier) ((structMembers o r).map Prod.snd) 0 count ∧
            ((es.filterMap Event.written?).Nodup ↔ count = 0 ∨ ((structMembers o r).map Prod.snd).Nodup) := by
  have hdescribes := Model.describes_of_build h
  refine ⟨structs_pollRecords hdecoding, fun r hr => ?_⟩
  have hnames := memberNames_eq hdescribes o hr
  refine ⟨hnames, ?_, fun hidentifiers hdifferent => ?_, fun M hlength hbuffer pollRecordsName structOutSize maxRecCount mem => ?_⟩
  · rw [hnames]
    exact nodup_memberNames_iff
  · rw [hnames]
    exact nodup_memberNames_of_isIdentifier (fun a ha => (hidentifiers a ha).1) (fun a ha => (hidentifiers a ha).2) hdifferent
  · obtain ⟨mem', es, hrun, htrace, hwritten⟩ :=
      exists_run_writes hdescribes ho hdecoding hr hlength hbuffer pollRecordsName structOutSize maxRecCount mem
    refine ⟨mem', es, _, rfl, hrun, htrace, hwritten, ?_⟩
    rw [hwritten]
    exact nodup_places_iff _ _ _ _

/-- Four bytes hold one poll result of a response of two bytes. -/
theorem recordCount_of_size_two {r : Record} (h : r.layout.size = 2) :
    recordLength {} r = 4 ∧ recordCount (textMachine [0, 1, 7, 9]) {} r (UInt16.toNat 5) (UInt32.toNat 100) = 1 := by
  have hlength : recordLength {} r = 4 := by rw [recordLength, h]; rfl
  have hstruct : structSize (textMachine [0, 1, 7, 9]) r = 8 := rfl
  refine ⟨hlength, ?_⟩
  rw [recordCount, hlength, hstruct]
  decide

/-- Two fields and the timestamp have different names: the decoder fills one structure and writes each of its members once. -/
theorem struct_members_distinct_two_fields :
    let d : DeviceType :=
      { key := "Probe", responseSchema := [{ name := "x", typeCode := "B" }, { name := "y", typeCode := "B" }], declaredBytes := 2 }
    ∃ (m : Model) (mem' : Memory Unit), (Model.build [d]).outcome = .ok m ∧
      runFunction (textMachine [0, 1, 7, 9]) (pollRecords m {} ++ deviceTable m {} "records.h") "decodePollResp_Probe"
          [.bytes 0, .int .uint32 4, .room, .int .uint32 100, .int .uint16 5, .state] ⟨fun _ => 0, []⟩ = some (.int .uint32 1, mem') ∧
      mem'.trace.filterMap Event.written? = [("poll_Probe", 0, "timeMs"), ("poll_Probe", 0, "x"), ("poll_Probe", 0, "y")] ∧
      (mem'.trace.filterMap Event.written?).Nodup := by
  intro d
  obtain ⟨m, r, hm, hrecords, hdevice, -⟩ := Model.exists_build_singleton (d := d) (by decide)
  have hr : r ∈ m.records := by rw [hrecords]; exact List.mem_cons_self
  have hsize : r.layout.size = 2 := by rw [(Model.describes_of_build hm).sizes r hr, hdevice]
  obtain ⟨hlength, hcount⟩ := recordCount_of_size_two hsize
  have hname : r.identifier = "Probe" := by
    rw [Record.identifier, hdevice]
    decide
  obtain ⟨-, hmodel⟩ := struct_members_distinct_iff (α := Unit) hm (o := {}) rfl rfl
  obtain ⟨hnames, hdistinct, -, hruns⟩ := hmodel r hr
  obtain ⟨mem', es, count, rfl, hrun, htrace, hwritten, honce⟩ :=
    hruns (textMachine [0, 1, 7, 9]) (by rw [hlength]; decide) (by decide) "records.h" 100 5 ⟨fun _ => 0, []⟩
  rw [hcount, hname] at hrun
  rw [List.nil_append] at htrace
  refine ⟨m, mem', hm, hrun, ?_, ?_⟩
  · rw [htrace, hwritten, hcount, hname, hnames, hdevice]
    decide
  · rw [htrace, honce, hdistinct, hdevice]
    exact Or.inr (by decide)

/-- Two fields have different names with the same identifier: their structure has two members of one name, and the decoder writes the
member of the first field a second time. -/
theorem struct_members_share_name :
    let d : DeviceType :=
      { key := "A", responseSchema := [{ name := "a.b", typeCode := "B" }, { name := "a_b", typeCode := "B" }], declaredBytes := 2 }
    ∃ (m : Model) (members : List (CType × String)) (mem' : Memory Unit), (Model.build [d]).outcome = .ok m ∧
      (pollRecords m {}).filterMap Item.struct? = [("poll_A", members)] ∧ members.map Prod.snd = ["timeMs", "a_b", "a_b"] ∧
      runFunction (textMachine [0, 1, 7, 9]) (pollRecords m {} ++ deviceTable m {} "records.h") "decodePollResp_A"
          [.bytes 0, .int .uint32 4, .room, .int .uint32 100, .int .uint16 5, .state] ⟨fun _ => 0, []⟩ = some (.int .uint32 1, mem') ∧
      mem'.trace.filterMap Event.written? = [("poll_A", 0, "timeMs"), ("poll_A", 0, "a_b"), ("poll_A", 0, "a_b")] ∧
      ¬ (members.map Prod.snd).Nodup ∧ ¬ (mem'.trace.filterMap Event.written?).Nodup := by
  intro d
  obtain ⟨m, r, hm, hrecords, hdevice, -⟩ := Model.exists_build_singleton (d := d) (by decide)
  have hdescribes := Model.describes_of_build hm
  have hr : r ∈ m.records := by rw [hrecords]; exact List.mem_cons_self
  have hsize : r.layout.size = 2 := by rw [hdescribes.sizes r hr, hdevice]
  obtain ⟨hlength, hcount⟩ := recordCount_of_size_two hsize
  have hname : r.identifier = "A" := by
    rw [Record.identifier, hdevice]
    decide
  have hmembers : (structMembers {} r).map Prod.snd = ["timeMs", "a_b", "a_b"] := by
    rw [memberNames_eq hdescribes {} hr, hdevice]
    decide
  have hstruct : structName r = "poll_A" := by rw [structName, hname]; rfl
  obtain ⟨mem', es, hrun, htrace, hwritten⟩ := exists_run_writes hdescribes (o := {}) rfl rfl hr (by rw [hlength]; decide)
    (show (textMachine [0, 1, 7, 9]).buffer.length < 4294967296 by decide) "records.h" 100 5 ⟨fun _ => 0, []⟩
  rw [hcount, hname] at hrun
  rw [hcount, hstruct, hmembers] at hwritten
  rw [List.nil_append] at htrace
  have hplaces : mem'.trace.filterMap Event.written? = [("poll_A", 0, "timeMs"), ("poll_A", 0, "a_b"), ("poll_A", 0, "a_b")] := by
    rw [htrace, hwritten]
    decide
  refine ⟨m, structMembers {} r, mem', hm, ?_, hmembers, hrun, hplaces, ?_, ?_⟩
  · rw [structs_pollRecords rfl, hrecords, List.map_singleton, hstruct]
  · rw [hmembers]
    decide
  · rw [hplaces]
    decide

end Artifact

end DeviceCatalog
