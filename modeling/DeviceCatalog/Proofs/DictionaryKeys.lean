import DeviceCatalog.Proofs.DecoderBounds
import DeviceCatalog.Proofs.Dispatch
import DeviceCatalog.Proofs.Symbols

/-!
# The keys of a dictionary

A script decoder stores the timestamp, the texts of the record and what is known of its fields, each under the symbol of its name. A symbol
that comes up again overwrites what is stored under it, so everything that is stored is there in the end when the names make different
symbols, and these differ exactly when the identifiers of the names do (`nodup_symbols_iff`).
-/

namespace DeviceCatalog.Artifact

open CSource

variable {α : Type} {M : Machine α}

/-! ## Names -/

/-- The names under which something is stored in the dictionary of a record, in order. -/
def entryNames (o : ScriptOptions) (r : Record) : List String :=
  "timestamp" :: decoderKeys o r

/-- The texts of a record are stored under type and name, and under the names of the metadata if it is included. -/
theorem names_recordTexts (o : ScriptOptions) (r : Record) : ((recordTexts o r).map (textEntry M)).map Prod.fst =
    ["type", "name"] ++ if o.includeMetadata then (metadata r).map Prod.fst else [] := by
  have hname : Prod.fst ∘ textEntry M = Prod.fst := rfl
  rw [List.map_map, hname, recordTexts, List.map_append]
  split <;> rfl

/-- What goes with a field is stored under names of its own. -/
theorem names_extraEntries (o : ScriptOptions) (f : PlacedField) : (extraEntries M o f).map Prod.fst =
    (if o.includeUnits ∧ f.attr.unit?.isSome then [unitName f] else []) ++
      if o.includeRanges ∧ f.attr.range.isSome then [minName f, maxName f] else [] := by
  unfold extraEntries
  rw [List.map_append]
  congr 1
  · cases f.attr.unit? with
    | none => simp
    | some u => cases o.includeUnits <;> simp [textEntry]
  · cases f.attr.range with
    | none => simp
    | some bounds => cases o.includeRanges <;> simp

/-- The entries of a field have the keys of the field. -/
theorem names_fieldEntries (o : ScriptOptions) (f : PlacedField) : (fieldEntries M o f).map Prod.fst = fieldKeys o f := by
  rw [fieldEntries, List.map_cons, names_extraEntries, fieldKeys, List.append_assoc]
  rfl

/-- Everything that is stored has a name of its record. -/
theorem names_decoderEntries (M : Machine α) (o : ScriptOptions) (r : Record) (timestamp : UInt64) :
    (decoderEntries M o r timestamp).map Prod.fst = entryNames o r := by
  have hfields : (r.layout.fields.flatMap (fieldEntries M o)).map Prod.fst = r.layout.fields.flatMap (fieldKeys o) := by
    rw [List.map_flatMap]
    exact congrArg (r.layout.fields.flatMap ·) (funext (names_fieldEntries o))
  rw [decoderEntries, List.map_append, List.map_cons, names_recordTexts, hfields]
  rfl

/-- Symbols differ when the identifiers of their names do. -/
theorem nodup_symbols_iff (o : ScriptOptions) (names : List String) : (names.map o.symbol).Nodup ↔ (names.map CSource.name).Nodup := by
  have hsymbol : o.symbol = (o.symbolStem ++ ·) ∘ CSource.name := rfl
  rw [hsymbol, ← List.map_map]
  exact List.nodup_map_iff fun _ _ => (String.append_right_inj o.symbolStem).1

/-! ## Stores -/

/-- Among some stores, a dictionary has an object under a key in the end: no later one overwrites it. -/
def Holds (stores : List (Stored α)) (dict key object : Value α) : Prop :=
  ∃ before after, stores = before ++ ⟨dict, key, object⟩ :: after ∧ ∀ s ∈ after, s.key ≠ key

/-- Under different keys everything is kept. -/
theorem holds_of_nodup {stores : List (Stored α)} (h : (stores.map Stored.key).Nodup) {s : Stored α} (hs : s ∈ stores) :
    Holds stores s.dict s.key s.object := by
  obtain ⟨before, after, rfl⟩ := List.append_of_mem hs
  rw [List.map_append, List.map_cons] at h
  have hlater : s.key ∉ after.map Stored.key := (List.nodup_cons.1 (List.Nodup.of_append_right h)).1
  exact ⟨before, after, rfl, fun s' hs' heq => hlater (heq ▸ List.mem_map_of_mem hs')⟩

/-- Under a key there is nothing but what is stored last. -/
theorem Holds.eq_of_last {stores : List (Stored α)} {dict key object last : Value α}
    (h : Holds (stores ++ [⟨dict, key, last⟩]) dict key object) : object = last := by
  obtain ⟨before, after, hsplit, hlater⟩ := h
  rcases List.eq_nil_or_concat after with rfl | ⟨init, s, rfl⟩
  · obtain ⟨-, heq⟩ := List.append_inj' hsplit rfl
    simp only [List.cons.injEq, Stored.mk.injEq] at heq
    exact heq.1.2.2.symm
  · have hkey := hlater s (by simp)
    rw [List.concat_eq_append, ← List.cons_append, ← List.append_assoc] at hsplit
    obtain ⟨-, heq⟩ := List.append_inj' hsplit rfl
    obtain rfl := List.singleton_injective heq
    exact absurd rfl hkey

/-- The machine makes different keys of different symbols. -/
def TellsSymbolsApart (M : Machine α) : Prop :=
  ∀ s t, keyOf M (.foreign s) = keyOf M (.foreign t) → s = t

/-- The stores of some entries. -/
def storesOf (M : Machine α) (o : ScriptOptions) (entries : List (String × Value α)) : List (Stored α) :=
  entries.map fun e => ⟨newDictionary M, keyOf M (.foreign (o.symbol e.1)), e.2⟩

/-- Symbols that no variable hides are stored under as they are. -/
theorem eq_storesOf {o : ScriptOptions} {hidden : List String} {stores : List (Stored α)} {entries : List (String × Value α)}
    (h : List.Forall₂ (StoresEntry M o hidden) stores entries) (hfree : ∀ n ∈ entries.map Prod.fst, o.symbol n ∉ hidden) :
    stores = storesOf M o entries := by
  induction h with
  | nil => rfl
  | @cons s e stores entries hs hstores ih =>
    rw [List.map_cons, List.forall_mem_cons] at hfree
    obtain ⟨dict, key, object⟩ := s
    obtain ⟨rfl, rfl, hkey⟩ := hs
    obtain rfl : key = _ := hkey hfree.1
    rw [ih hfree.2]
    rfl

/-- The keys of some stores are distinct when the identifiers for their names are. -/
theorem nodup_keys_storesOf (hM : TellsSymbolsApart M) (o : ScriptOptions) (entries : List (String × Value α)) :
    ((storesOf M o entries).map Stored.key).Nodup ↔ ((entries.map Prod.fst).map CSource.name).Nodup := by
  have hkeys : (storesOf M o entries).map Stored.key = ((entries.map Prod.fst).map o.symbol).map fun s => keyOf M (.foreign s) := by
    rw [storesOf, List.map_map, List.map_map, List.map_map]
    rfl
  have hinjective : Function.Injective fun s => keyOf M (.foreign s) := fun s t h => hM s t h
  rw [hkeys, List.nodup_map_iff hinjective, nodup_symbols_iff]

/-! ## Runs -/

/-- Run on a buffer with a poll response, the script decoder of a record returns a dictionary and puts the entries of the record into it, in
order, and stores nothing else. -/
def FillsDictionary (M : Machine α) (items : List Item) (o : ScriptOptions) (r : Record) : Prop :=
  ∀ (timestamp : UInt64) (mem : Memory α), ∃ es, runFunction M items ("mp_decode_" ++ typeIdentifier r)
      [.bytes 0, .int .uint32 M.buffer.length, .int .uint64 timestamp.toNat] mem = some (newDictionary M, mem.log es) ∧
    List.Forall₂ (StoresEntry M o (variableNames r)) (es.filterMap Event.stored?) (decoderEntries M o r timestamp)

/-- The decoder of a record in the emitted file fills a dictionary with the entries of the record. -/
theorem fillsDictionary_decoderSource {devices : List DeviceType} {m : Model} (h : m.Describes devices) {o : ScriptOptions} {b : Bindings}
    (hb : (Bindings.ofModel m o).outcome = .ok b) {r : Record} (hr : r ∈ b.decoders) (henough : r.layout.size ≤ M.buffer.length)
    (hbuffer : M.buffer.length < 4294967296) (headerName pollRecordsName : String) :
    FillsDictionary M (b.decoderSource headerName pollRecordsName) o r := by
  intro timestamp mem
  obtain ⟨hrecord, scope, hscope, hdecoder⟩ := exists_scriptScope hb hr M headerName pollRecordsName
  obtain ⟨es, stores, hrun, hes, hstores⟩ :=
    meaning_scriptDecoder_enough hscope (h.consecutive hrecord) (Nat.lt_of_le_of_lt henough hbuffer) hbuffer henough timestamp mem
  exact ⟨es, by rw [hdecoder, hrun], hes.stores ▸ hstores⟩

/-- Whatever model was built and whatever options the bindings have, the keys that a script decoder stores under are the symbols of the
timestamp, the type, the name, the texts of the device info, and the fields with their units and ranges. They are different exactly when the
identifiers of these names are. And exactly then, where no variable of the decoder has the name of a symbol and symbols are told apart, a
run stores under no key twice; the dictionary then has in the end what was stored in it, the timestamp and the type among it. -/
theorem dictionary_keys_distinct_iff {devices : List DeviceType} {m : Model} (h : (Model.build devices).outcome = .ok m)
    {config : ScriptOptions} {b : Bindings} (hb : (Bindings.ofModel m config).outcome = .ok b) {r : Record} (hr : r ∈ b.decoders) :
    keys (dictionaryItems config) ++ keys (scriptDecoderItems config r) = (entryNames config r).map (fun n => .var (config.symbol n)) ∧
    (((entryNames config r).map config.symbol).Nodup ↔ ((entryNames config r).map CSource.name).Nodup) ∧
    ∀ M : Machine α, r.layout.size ≤ M.buffer.length → M.buffer.length < 2 ^ 32 →
      (∀ n ∈ entryNames config r, config.symbol n ∉ variableNames r) →
      ∀ (headerName pollRecordsName : String) (timestamp : UInt64) (mem : Memory α), ∃ es,
        runFunction M (b.decoderSource headerName pollRecordsName) ("mp_decode_" ++ typeIdentifier r)
            [.bytes 0, .int .uint32 M.buffer.length, .int .uint64 timestamp.toNat] mem = some (newDictionary M, mem.log es) ∧
        es.filterMap Event.stored? = storesOf M config (decoderEntries M config r timestamp) ∧
        (TellsSymbolsApart M →
          (((es.filterMap Event.stored?).map Stored.key).Nodup ↔ ((entryNames config r).map CSource.name).Nodup) ∧
          (((entryNames config r).map CSource.name).Nodup → ∀ e ∈ decoderEntries M config r timestamp,
            Holds (es.filterMap Event.stored?) (newDictionary M) (keyOf M (.foreign (config.symbol e.1))) e.2)) := by
  have hdescribes := Model.describes_of_build h
  refine ⟨?_, nodup_symbols_iff config _, ?_⟩
  · rw [keys_dictionaryItems, keys_scriptDecoderItems]
    rfl
  intro M henough hbuffer hfree headerName pollRecordsName timestamp mem
  obtain ⟨es, hrun, hstores⟩ := fillsDictionary_decoderSource hdescribes hb hr henough hbuffer headerName pollRecordsName timestamp mem
  have hnames := names_decoderEntries M config r timestamp
  -- No variable hides a symbol, so the keys that the run stores under are the symbols themselves.
  have hexact : es.filterMap Event.stored? = storesOf M config (decoderEntries M config r timestamp) := by
    refine eq_storesOf hstores ?_
    rwa [hnames]
  refine ⟨es, hrun, hexact, fun hM => ?_⟩
  have hkeys := nodup_keys_storesOf hM config (decoderEntries M config r timestamp)
  rw [hnames] at hkeys
  rw [hexact]
  refine ⟨hkeys, fun hnodup e he => ?_⟩
  exact holds_of_nodup (hkeys.2 hnodup) (List.mem_map.2 ⟨e, he, rfl⟩)

/-- A machine whose objects are the values that they are made of. -/
def plainMachine (buffer : List UInt8) : Machine Unit :=
  { textMachine buffer with
    external := fun function vs =>
      match vs with
      | [v] | [v, _] => if function = "mp_obj_new_dict" then .foreign "dict" else v
      | _ => .foreign function }

theorem tellsSymbolsApart_plainMachine (buffer : List UInt8) : TellsSymbolsApart (plainMachine buffer) := by
  intro s t h
  exact Value.foreign.inj h

/-- The names of the entries make different symbols: the dictionary has every entry in the end. -/
theorem dictionary_keys_distinct_unit :
    let d : DeviceType :=
      { key := "Probe", typeName := "PROBE", deviceInfo := .object [("maker", .string "ACME")]
        responseSchema := [{ name := "t", typeCode := ">h", unit := some "C" }], declaredBytes := 2 }
    ∃ m b es, (Model.build [d]).outcome = .ok m ∧ (Bindings.ofModel m { includeUnits := true }).outcome = .ok b ∧
      runFunction (plainMachine [255, 51]) (b.decoderSource "decoders.h" "records.h") "mp_decode_PROBE"
          [.bytes 0, .int .uint32 2, .int .uint64 7] ⟨fun _ => 0, []⟩ = some (.foreign "dict", (⟨fun _ => 0, []⟩ : Memory Unit).log es) ∧
      (es.filterMap Event.stored?).map (fun s => (s.key, s.object)) =
        [ (.foreign "MP_QSTR_timestamp", .int .uint64 7), (.foreign "MP_QSTR_type", .text "PROBE"), (.foreign "MP_QSTR_name", .text "PROBE"),
          (.foreign "MP_QSTR_maker", .text "ACME"), (.foreign "MP_QSTR_t", .int .int (-205)), (.foreign "MP_QSTR_t_unit", .text "C") ] ∧
      ((es.filterMap Event.stored?).map Stored.key).Nodup ∧
      Holds (es.filterMap Event.stored?) (.foreign "dict") (.foreign "MP_QSTR_type") (.text "PROBE") := by
  intro d
  obtain ⟨m, b, r, hm, hb, -, hr, hdevice, hlayout⟩ :=
    exists_single_decoder (d := d) (by decide) (by decide) { includeUnits := true }
  have hfields : r.layout.fields = [⟨{ name := "t", typeCode := ">h", unit := some "C" }, .int16 .big, 0⟩] := by
    rw [hlayout]
    rfl
  have hsize : r.layout.size = 2 := by
    rw [hlayout]
    rfl
  have hidentifier : "mp_decode_" ++ typeIdentifier r = "mp_decode_PROBE" := by
    rw [typeIdentifier, hdevice]
    decide
  have hnames : entryNames { includeUnits := true } r = ["timestamp", "type", "name", "maker", "t", "t_unit"] := by
    simp only [entryNames, decoderKeys, metadata, hdevice, hfields]
    decide
  have hvariables : variableNames r = ["dict", "result", "pBuf", "bufLen", "timestampUs", "t_raw", "t_value"] := by
    simp only [variableNames, hfields]
    decide
  obtain ⟨-, -, hruns⟩ := dictionary_keys_distinct_iff hm hb hr
  rw [hnames, hvariables] at hruns
  obtain ⟨es, hrun, hstores, hkeys⟩ := hruns (plainMachine [255, 51]) (by rw [hsize]; decide) (by decide) (by decide) "decoders.h" "records.h" 7
    ⟨fun _ => 0, []⟩
  obtain ⟨hnodup, hholds⟩ := hkeys (tellsSymbolsApart_plainMachine _)
  have hentries : decoderEntries (plainMachine [255, 51]) { includeUnits := true } r 7 =
      [ ("timestamp", .int .uint64 7), ("type", .text "PROBE"), ("name", .text "PROBE"), ("maker", .text "ACME"), ("t", .int .int (-205)),
        ("t_unit", .text "C") ] := by
    simp only [decoderEntries, recordTexts, metadata, hdevice, hfields]
    rfl
  rw [hentries] at hstores hholds
  rw [hidentifier] at hrun
  refine ⟨m, b, es, hm, hb, hrun, ?_, hnodup.2 (by decide), ?_⟩
  · rw [hstores]
    rfl
  · exact hholds (by decide) ("type", .text "PROBE") (by simp)

/-- The device info has a text of the key "type": it is stored under the symbol of the type, behind the type of the device, which is no
longer in the dictionary in the end. -/
theorem dictionary_loses_type :
    let d : DeviceType := { key := "A", typeName := "A", deviceInfo := .object [("type", .string "X")] }
    ∃ m b es, (Model.build [d]).outcome = .ok m ∧ (Bindings.ofModel m {}).outcome = .ok b ∧
      runFunction (plainMachine []) (b.decoderSource "decoders.h" "records.h") "mp_decode_A" [.bytes 0, .int .uint32 0, .int .uint64 7]
        ⟨fun _ => 0, []⟩ = some (.foreign "dict", (⟨fun _ => 0, []⟩ : Memory Unit).log es) ∧
      (es.filterMap Event.stored?).map (fun s => (s.key, s.object)) =
        [ (.foreign "MP_QSTR_timestamp", .int .uint64 7), (.foreign "MP_QSTR_type", .text "A"), (.foreign "MP_QSTR_name", .text "A"),
          (.foreign "MP_QSTR_type", .text "X") ] ∧
      ¬ ((es.filterMap Event.stored?).map Stored.key).Nodup ∧
      ¬ Holds (es.filterMap Event.stored?) (.foreign "dict") (.foreign "MP_QSTR_type") (.text "A") := by
  intro d
  obtain ⟨m, b, r, hm, hb, -, hr, hdevice, hlayout⟩ := exists_single_decoder (d := d) (by decide) (by decide) {}
  have hfields : r.layout.fields = [] := by
    rw [hlayout]
    rfl
  have hsize : r.layout.size = 0 := by
    rw [hlayout]
    rfl
  have hidentifier : "mp_decode_" ++ typeIdentifier r = "mp_decode_A" := by
    rw [typeIdentifier, hdevice]
    decide
  obtain ⟨es, hrun, hentries⟩ := fillsDictionary_decoderSource (M := plainMachine []) (Model.describes_of_build hm) hb hr (by rw [hsize]; decide)
    (by decide) "decoders.h" "records.h" 7 ⟨fun _ => 0, []⟩
  have hvariables : variableNames r = ["dict", "result", "pBuf", "bufLen", "timestampUs"] := by
    simp only [variableNames, hfields]
    decide
  have hstores : es.filterMap Event.stored? = storesOf (plainMachine []) {}
      [("timestamp", .int .uint64 7), ("type", .text "A"), ("name", .text "A"), ("type", .text "X")] := by
    have hexact : decoderEntries (plainMachine []) {} r 7 =
        [("timestamp", .int .uint64 7), ("type", .text "A"), ("name", .text "A"), ("type", .text "X")] := by
      simp only [decoderEntries, recordTexts, metadata, hdevice, hfields]
      rfl
    rw [hexact, hvariables] at hentries
    exact eq_storesOf hentries (by decide)
  rw [hidentifier] at hrun
  refine ⟨m, b, es, hm, hb, hrun, ?_, ?_, ?_⟩
  · rw [hstores]
    rfl
  · rw [hstores, nodup_keys_storesOf (tellsSymbolsApart_plainMachine [])]
    decide
  · intro hholds
    have hsplit : es.filterMap Event.stored? =
        storesOf (plainMachine []) {} [("timestamp", .int .uint64 7), ("type", .text "A"), ("name", .text "A")] ++
          [⟨.foreign "dict", .foreign "MP_QSTR_type", .text "X"⟩] := hstores
    rw [hsplit] at hholds
    have hlast : (.text "A" : Value Unit) = .text "X" := hholds.eq_of_last
    simp at hlast

end DeviceCatalog.Artifact
