import DeviceCatalog.Proofs.DictionaryKeys
import DeviceCatalog.Proofs.StructMembers

/-!
# What the two decoders make of a field

Both decoders of a record read a field from the same bytes and scale it in the same way, but the native one keeps the result in the type of a
member of its structure, and the script one in the type of the kind that it stores. For a field that is stored as an integer these are the same
number unless it is an integer that is not scaled and does not fit into `int` (`sameNumber_iff`), which only an unsigned one of four bytes can
do.
-/

namespace DeviceCatalog

open CSource

variable {α : Type} {M : Machine α}

/-! ## Machines and numbers -/

namespace CSource

/-- The machine with another buffer. -/
def Machine.withBuffer (M : Machine α) (buffer : List UInt8) : Machine α :=
  { M with buffer := buffer }

/-- Operators do not look into the buffer. -/
theorem Machine.operate_withBuffer (buffer : List UInt8) (op : Operator) {a b : Value α} (ha : a.IsNumber) (hb : b.IsNumber) :
    (M.withBuffer buffer).operate op a b = M.operate op a b := by
  rcases ha with ⟨s, x, rfl⟩ | ⟨f, x, rfl⟩ | rfl <;> rcases hb with ⟨t, y, rfl⟩ | ⟨g, y, rfl⟩ | rfl <;> rfl

/-- Two values are the same number, whichever integer types they have. -/
def Value.SameNumber : Value α → Value α → Prop
  | .int _ m, .int _ n => m = n
  | v, w => v = w

theorem Value.SameNumber.refl (v : Value α) : v.SameNumber v := by
  cases v <;> rfl

/-- What a type of at most four bytes holds is not below what `int` holds, and not above what an unsigned type of four bytes holds. -/
theorem IntType.wrap_bounds {t : IntType} (ht : t.modulus ≤ 4294967296) (n : Int) : -2147483648 ≤ t.wrap n ∧ t.wrap n < 4294967296 := by
  have hpos : 0 < t.modulus := Nat.pow_pos (by decide)
  unfold wrap
  split
  · have hlow : -((t.modulus : Int) / 2) ≤ Int.bmod n t.modulus := Int.le_bmod hpos
    have hhigh : Int.bmod n t.modulus < ((t.modulus : Int) + 1) / 2 := Int.bmod_lt hpos
    omega
  · have hlow := Int.emod_nonneg n (b := t.modulus) (by omega)
    have hhigh := Int.emod_lt_of_pos n (b := t.modulus) (by omega)
    omega

/-- Of the numbers that fit 32 bits, signed or not, those below the half are kept by the signed type. -/
theorem IntType.wrap_int_eq_iff {n : Int} (hlow : -2147483648 ≤ n) (hhigh : n < 4294967296) : int.wrap n = n ↔ n < 2147483648 := by
  have hmodulus : int.modulus = 4294967296 := rfl
  rw [wrap, if_pos (show int.signed = true from rfl), hmodulus]
  constructor
  · intro h
    have hlt : Int.bmod n 4294967296 < (4294967296 + 1) / 2 := Int.bmod_lt (by decide)
    omega
  · intro h
    exact Int.bmod_eq_of_le (by omega) (by omega)

end CSource

namespace Artifact

/-! ## The number of a field -/

/-- The number that the native decoder keeps in the member of a field: where it is scaled it is converted to the type of the member by a cast
and by the assignment. -/
def memberNumber (M : Machine α) (f : PlacedField) (bs : List UInt8) : Value α :=
  M.convert f.valueType (assignedValue M f bs)

/-- A stored number fits 32 bits, signed or not. -/
theorem storedNumber_bounds (t : FieldType) (bs : List UInt8) : -2147483648 ≤ storedNumber t bs ∧ storedNumber t bs < 4294967296 := by
  have hall : ∀ t ∈ FieldType.all, (storedInt t).modulus ≤ 4294967296 := by decide
  exact IntType.wrap_bounds (hall t t.mem_all) _

/-- A stored integer stays what it is in the variable of its type. -/
theorem rawValue_eq {f : PlacedField} (h : f.type.isInteger = true) (bs : List UInt8) : rawValue M f bs = fieldValue M f.type bs := by
  rw [rawValue, fieldValue, if_pos h, convert_cType_int h, storedNumber, IntType.wrap_wrap]

/-- Scaling does not look into the buffer. -/
theorem scaled_withBuffer (buffer : List UInt8) (a : Attribute) {v : Value α} (hv : v.IsNumber) :
    scaled (M.withBuffer buffer) a v = scaled M a v := by
  have hliteral : ∀ x, literalValue (M.withBuffer buffer) a.outputKind x = literalValue M a.outputKind x := fun _ => rfl
  have hnumber := isNumber_literalValue M a.outputKind
  have hquotient := M.isNumber_operate .div hv (hnumber a.divisor)
  unfold scaled
  simp only [hliteral, Machine.operate_withBuffer buffer _ hv (hnumber _), Machine.operate_withBuffer buffer _ hquotient (hnumber _)]
  rfl

/-- What a script decoder stores does not depend on the buffer but for the bytes of the field. -/
theorem storedValue_withBuffer (buffer : List UInt8) (f : PlacedField) (bs : List UInt8) :
    storedValue (M.withBuffer buffer) f bs = storedValue M f bs := by
  obtain ⟨t, ht⟩ := exists_number?_cType f.type
  have hraw : (rawValue M f bs).IsNumber := Machine.isNumber_convert ht _
  have hsame : rawValue (M.withBuffer buffer) f bs = rawValue M f bs := rfl
  unfold storedValue
  rw [hsame, scaled_withBuffer buffer f.attr hraw]
  rfl

/-- The decoders make the same number of a field that is stored as an integer, unless it is an integer that is not scaled and too large. -/
theorem sameNumber_iff {f : PlacedField} (hinteger : f.type.isInteger = true) (bs : List UInt8) :
    (memberNumber M f bs).SameNumber (storedValue M f bs) ↔
      ¬ (f.attr.outputKind = .int ∧ f.attr.isScaled = false ∧ 2147483648 ≤ storedNumber f.type bs) := by
  have hraw := rawValue_eq (M := M) hinteger bs
  -- Only an integer that is not scaled is stored differently: it alone is cast to `int` as it is.
  cases hkind : f.attr.outputKind with
  | float =>
    have hsame : memberNumber M f bs = storedValue M f bs := by
      simp only [memberNumber, assignedValue, storedValue, PlacedField.valueType, hkind, hraw, StoreKind.ofOutput, StoreKind.valueType, scaled]
      split <;> rfl
    rw [hsame]
    simp [Value.SameNumber.refl]
  | int =>
    cases hscaled : f.attr.isScaled with
    | true =>
      have hsame : memberNumber M f bs = storedValue M f bs := by
        simp only [memberNumber, assignedValue, storedValue, PlacedField.valueType, hkind, hraw, StoreKind.ofOutput, StoreKind.valueType,
          hscaled, if_true]
        rfl
      rw [hsame]
      simp [Value.SameNumber.refl]
    | false =>
      obtain ⟨hlow, hhigh⟩ := storedNumber_bounds f.type bs
      have hmember : memberNumber M f bs = .int (storedInt f.type) (storedNumber f.type bs) := by
        simp only [memberNumber, assignedValue, scaled, PlacedField.valueType, hkind, hscaled, fieldValue, hinteger, if_true, Bool.false_eq_true,
          if_false, convert_cType_int hinteger]
        rw [storedNumber, IntType.wrap_wrap]
      have hstored : storedValue M f bs = .int .int (IntType.int.wrap (storedNumber f.type bs)) := by
        simp only [storedValue, hkind, hscaled, hraw, fieldValue, hinteger, if_true, Bool.false_eq_true, if_false, StoreKind.ofOutput,
          StoreKind.valueType]
        exact congrArg (Value.int .int) (IntType.wrap_wrap _ _)
      rw [hmember, hstored, Value.SameNumber, eq_comm, IntType.wrap_int_eq_iff hlow hhigh]
      simp

/-! ## The native decoder -/

/-- Where the members of a structure have different names, that of a field has the type of the field. -/
theorem memberType_eq {o : Options} {r : Record} (h : ((structMembers o r).map Prod.snd).Nodup) {f : PlacedField} (hf : f ∈ r.layout.fields) :
    memberType o r (memberName f) = some f.valueType := by
  have hmem : (f.valueType, memberName f) ∈ structMembers o r := List.mem_cons_of_mem _ (List.mem_map.2 ⟨f, hf, rfl⟩)
  obtain ⟨before, after, hsplit⟩ := List.append_of_mem hmem
  have hnew : memberName f ∉ before.map Prod.snd := by
    rw [hsplit, List.map_append, List.map_cons] at h
    exact fun hbefore => List.disjoint_of_nodup_append h hbefore List.mem_cons_self
  have hfound : (structMembers o r).find? (fun m => m.2 = memberName f) = some (f.valueType, memberName f) := by
    refine List.find?_eq_some_iff_append.2 ⟨by simp, before, after, hsplit, fun m hm => ?_⟩
    have hne : m.2 ≠ memberName f := fun heq => hnew (heq ▸ List.mem_map_of_mem hm)
    simp [hne]
  rw [memberType, hfound, Option.map_some]

/-- Of what maps to different things, two that map to one are the same. -/
theorem eq_of_nodup_filterMap {β γ : Type} {g : β → Option γ} {xs : List β} (h : (xs.filterMap g).Nodup) {a b : β} (ha : a ∈ xs)
    (hb : b ∈ xs) {x : γ} (hga : g a = some x) (hgb : g b = some x) : a = b := by
  induction xs with
  | nil => cases ha
  | cons y xs ih =>
    have hrest : (xs.filterMap g).Nodup := by
      refine h.sublist (List.Sublist.filterMap g (List.sublist_cons_self y xs))
    have hnew : g y = some x → ∀ c ∈ xs, g c ≠ some x := by
      intro hy c hc hgc
      rw [List.filterMap_cons_some hy, List.nodup_cons] at h
      exact h.1 (List.mem_filterMap.2 ⟨c, hc, hgc⟩)
    rcases List.mem_cons.1 ha with rfl | ha <;> rcases List.mem_cons.1 hb with rfl | hb
    · rfl
    · exact absurd hgb (hnew hga b hb)
    · exact absurd hga (hnew hgb a ‹a ∈ xs›)
    · exact ih hrest ha hb

/-- Run on a buffer, the native decoder of a record gives one value, and no other, to the member of a field in the structure of a poll result
that it comes to. -/
def KeepsMember (M : Machine α) (items : List Item) (o : Options) (r : Record) (f : PlacedField) (k : Nat) (v : Value α) : Prop :=
  ∀ (structOutSize : UInt32) (maxRecCount : UInt16) (mem : Memory α), k < recordCount M o r maxRecCount.toNat structOutSize.toNat →
    ∃ mem' es, runFunction M items ("decodePollResp_" ++ r.identifier)
        [.bytes 0, .int .uint32 M.buffer.length, .room, .int .uint32 structOutSize.toNat, .int .uint16 maxRecCount.toNat, .state] mem =
          some (.int .uint32 (recordCount M o r maxRecCount.toNat structOutSize.toNat), mem') ∧
      mem'.trace = mem.trace ++ es ∧ ∀ x, .write ("poll_" ++ r.identifier) k (memberName f) x ∈ es ↔ x = v

/-- The decoder of a record in the emitted file leaves the value of a field in its member, if no other member has the same name. -/
theorem keepsMember_deviceTable {devices : List DeviceType} {m : Model} (h : m.Describes devices) {o : Options} (ho : o.validate = .ok ())
    (hdecoding : o.decoding = true) {r : Record} (hr : r ∈ m.records) (hlength : recordLength o r < 4294967296)
    (hbuffer : M.buffer.length < 4294967296) (hmembers : ((structMembers o r).map Prod.snd).Nodup) {f : PlacedField}
    (hf : f ∈ r.layout.fields) (k : Nat) (pollRecordsName : String) :
    KeepsMember M (pollRecords m o ++ deviceTable m o pollRecordsName) o r f k
      (memberNumber M f (fieldBytes M (k * recordLength o r + o.timestampBytes.toNat) f)) := by
  intro structOutSize maxRecCount mem hk
  obtain ⟨mem', turns, hrun, htrace, hcount, hturns⟩ :=
    exists_run_fills h ho hdecoding hr hlength hbuffer pollRecordsName structOutSize maxRecCount mem
  have hwritten : (turns.flatMap fun es => .turn :: es).filterMap Event.written? =
      places (structName r) ((structMembers o r).map Prod.snd) 0 turns.length :=
    written_turns fun i es hi => (Nat.zero_add i).symm ▸ (hturns i es hi).isTurn (h.consecutive hr)
  have honce : ((turns.flatMap fun es => .turn :: es).filterMap Event.written?).Nodup := by
    rw [hwritten, nodup_places_iff]
    exact Or.inr hmembers
  have hevent : .write (structName r) k (memberName f) (memberNumber M f (fieldBytes M (k * recordLength o r + o.timestampBytes.toNat) f)) ∈
      turns.flatMap fun es => .turn :: es := by
    rw [← hcount] at hk
    obtain ⟨es₁, hes, -⟩ := hturns k turns[k] (List.getElem?_eq_getElem hk)
    refine List.mem_flatMap.2 ⟨turns[k], List.getElem_mem hk, List.mem_cons_of_mem _ ?_⟩
    rw [hes]
    refine List.mem_append_right _ (List.mem_flatMap.2 ⟨f, hf, List.mem_append_right _ ?_⟩)
    rw [memberValue, memberType_eq hmembers hf]
    exact List.mem_singleton_self _
  refine ⟨mem', _, hrun, htrace, fun x => ⟨fun hx => ?_, fun hx => hx ▸ hevent⟩⟩
  have hsame := eq_of_nodup_filterMap honce hx hevent rfl rfl
  exact (Event.write.inj hsame).2.2.2

/-! ## The script decoder -/

/-- Run on a buffer with a poll response, the script decoder of a record stores an object made of a value for a field. -/
def StoresValue (M : Machine α) (items : List Item) (config : ScriptOptions) (r : Record) (f : PlacedField) (v : Value α) : Prop :=
  ∀ (timestamp : UInt64) (mem : Memory α), ∃ es s, runFunction M items ("mp_decode_" ++ typeIdentifier r)
      [.bytes 0, .int .uint32 M.buffer.length, .int .uint64 timestamp.toNat] mem = some (newDictionary M, mem.log es) ∧
    s ∈ es.filterMap Event.stored? ∧
    StoresEntry M config (variableNames r) s (f.name, (StoreKind.ofOutput f.attr.outputKind).made M v)

theorem exists_mem_of_forall₂ {β γ : Type} {R : β → γ → Prop} {xs : List β} {ys : List γ} (h : List.Forall₂ R xs ys) {y : γ}
    (hy : y ∈ ys) : ∃ x ∈ xs, R x y := by
  induction h with
  | nil => cases hy
  | @cons x z xs ys hxz _ ih =>
    rcases List.mem_cons.1 hy with rfl | hy
    · exact ⟨x, List.mem_cons_self, hxz⟩
    · obtain ⟨x', hx', hR⟩ := ih hy
      exact ⟨x', List.mem_cons_of_mem x hx', hR⟩

/-- A decoder that fills the dictionary stores the value of every field. -/
theorem FillsDictionary.storesValue {items : List Item} {config : ScriptOptions} {r : Record} (h : FillsDictionary M items config r)
    {f : PlacedField} (hf : f ∈ r.layout.fields) : StoresValue M items config r f (storedValue M f (fieldBytes M 0 f)) := by
  intro timestamp mem
  obtain ⟨es, hrun, hstores⟩ := h timestamp mem
  have hentry : valueEntry M f ∈ decoderEntries M config r timestamp :=
    List.mem_append_right _ (List.mem_flatMap.2 ⟨f, hf, List.mem_cons_self⟩)
  obtain ⟨s, hs, hstored⟩ := exists_mem_of_forall₂ hstores hentry
  exact ⟨es, s, hrun, hs, hstored⟩

/-! ## Both decoders -/

/-- The bytes of a field in a poll response. -/
def responseBytes (f : PlacedField) (response : List UInt8) : List UInt8 :=
  (response.drop f.offset).take f.type.width

/-- A poll response in the buffer has the bytes of its fields there. -/
theorem fieldBytes_eq {f : PlacedField} {q size : Nat} {response : List UInt8} (hlimit : f.limit ≤ size)
    (hbytes : bytesAt M q size = response.take size) : fieldBytes M q f = responseBytes f response := by
  have hcut : ∀ bs : List UInt8, ((bs.take size).drop f.offset).take f.type.width = (bs.drop f.offset).take f.type.width := by
    intro bs
    unfold PlacedField.limit at hlimit
    rw [List.drop_take, List.take_take, Nat.min_eq_left (by omega)]
  have hbuffer := hcut (M.buffer.drop q)
  rw [bytesAt] at hbytes
  rw [hbytes, hcut, List.drop_drop] at hbuffer
  exact hbuffer.symm

/-- Where a poll response with a field is in the buffer, the buffer has its last byte. -/
theorem add_size_le_length {f : PlacedField} {q size : Nat} {response : List UInt8} (hlimit : f.limit ≤ size) (henough : size ≤ response.length)
    (hbytes : bytesAt M q size = response.take size) : q + size ≤ M.buffer.length := by
  have hpos := f.offset_lt_limit
  have hall : (bytesAt M q size).length = size := by rw [hbytes, List.length_take_of_le henough]
  have hthere : (bytesAt M q size).length ≤ M.buffer.length - q := by
    rw [bytesAt, List.length_take, List.length_drop]
    exact Nat.min_le_right _ _
  omega

/-- Whatever model was built, take a record with a script decoder whose structure has members of different names, and one of its fields that is
stored as an integer. Of a poll result with some response the native decoder keeps a number in the member of the field, and of the same
response the script decoder stores a number for it. The two are the same, unless the value is wanted as an integer, is not scaled and does not
fit into `int`. -/
theorem decoders_agree_iff {devices : List DeviceType} {m : Model} (h : (Model.build devices).outcome = .ok m) {o : Options}
    (ho : o.validate = .ok ()) (hdecoding : o.decoding = true) {config : ScriptOptions} {b : Bindings}
    (hb : (Bindings.ofModel m config).outcome = .ok b) {r : Record} (hr : r ∈ b.decoders) (hmembers : ((structMembers o r).map Prod.snd).Nodup)
    {f : PlacedField} (hf : f ∈ r.layout.fields) (hinteger : f.type.isInteger = true) (M : Machine α) (hbuffer : M.buffer.length < 2 ^ 32)
    {response : List UInt8} (henough : r.layout.size ≤ response.length) (hresponse : response.length < 2 ^ 32) {k : Nat}
    (hbytes : bytesAt M (k * recordLength o r + o.timestampBytes.toNat) r.layout.size = response.take r.layout.size) :
    (∀ pollRecordsName, KeepsMember M (pollRecords m o ++ deviceTable m o pollRecordsName) o r f k
      (memberNumber M f (responseBytes f response))) ∧
    (∀ headerName pollRecordsName, StoresValue (M.withBuffer response) (b.decoderSource headerName pollRecordsName) config r f
      (storedValue M f (responseBytes f response))) ∧
    ((memberNumber M f (responseBytes f response)).SameNumber (storedValue M f (responseBytes f response)) ↔
      ¬ (f.attr.outputKind = .int ∧ f.attr.isScaled = false ∧ 2 ^ 31 ≤ storedNumber f.type (responseBytes f response))) := by
  have hdescribes := Model.describes_of_build h
  obtain ⟨hrecord, -⟩ := exists_scriptScope hb hr M "" ""
  have hlimit : f.limit ≤ r.layout.size := ((hdescribes.consecutive hrecord).bounds hf).2
  refine ⟨?_, ?_, sameNumber_iff hinteger _⟩
  · intro pollRecordsName
    have hthere := add_size_le_length hlimit henough hbytes
    have hfit : recordLength o r < 4294967296 := by
      unfold recordLength at hthere ⊢
      omega
    rw [← fieldBytes_eq hlimit hbytes]
    exact keepsMember_deviceTable hdescribes ho hdecoding hrecord hfit hbuffer hmembers hf k pollRecordsName
  · intro headerName pollRecordsName
    have hfills : FillsDictionary (M.withBuffer response) (b.decoderSource headerName pollRecordsName) config r :=
      fillsDictionary_decoderSource hdescribes hb hr henough hresponse headerName pollRecordsName
    have hstores := hfills.storesValue hf
    rw [storedValue_withBuffer, fieldBytes, Nat.zero_add] at hstores
    exact hstores

/-- A signed field of two bytes: the member and what is stored are both -205. -/
theorem decoders_agree_signed :
    let d : DeviceType :=
      { key := "Probe", typeName := "PROBE", responseSchema := [{ name := "t", typeCode := ">h" }], declaredBytes := 2 }
    let f : PlacedField := ⟨{ name := "t", typeCode := ">h" }, .int16 .big, 0⟩
    ∃ m b r, (Model.build [d]).outcome = .ok m ∧ (Bindings.ofModel m {}).outcome = .ok b ∧ r ∈ b.decoders ∧ r.layout.fields = [f] ∧
      recordCount (plainMachine [0, 1, 255, 51]) {} r 5 100 = 1 ∧
      KeepsMember (plainMachine [0, 1, 255, 51]) (pollRecords m {} ++ deviceTable m {} "records.h") {} r f 0 (.int ⟨true, 16⟩ (-205)) ∧
      StoresValue (plainMachine [255, 51]) (b.decoderSource "decoders.h" "records.h") {} r f (.int .int (-205)) ∧
      (Value.int ⟨true, 16⟩ (-205) : Value Unit).SameNumber (.int .int (-205)) := by
  intro d f
  obtain ⟨m, b, r, hm, hb, -, hr, -, hlayout⟩ := exists_single_decoder (d := d) (by decide) (by decide) {}
  have hfields : r.layout.fields = [f] := by rw [hlayout]; rfl
  have hsize : r.layout.size = 2 := by rw [hlayout]; rfl
  have hlength : recordLength {} r = 4 := by rw [recordLength, hsize]; rfl
  have hmembers : ((structMembers {} r).map Prod.snd).Nodup := by
    rw [structMembers, hfields]
    decide
  have hf : f ∈ r.layout.fields := by
    rw [hfields]
    exact List.mem_singleton_self f
  have henough : r.layout.size ≤ ([255, 51] : List UInt8).length := by
    rw [hsize]
    decide
  have hbytes : bytesAt (plainMachine [0, 1, 255, 51]) (0 * recordLength {} r + UInt32.toNat 2) r.layout.size = [255, 51].take r.layout.size := by
    rw [hlength, hsize]
    rfl
  obtain ⟨hkeeps, hstores, hsame⟩ :=
    decoders_agree_iff hm rfl rfl hb hr hmembers hf rfl (plainMachine [0, 1, 255, 51]) (by decide) henough (by decide) hbytes
  have hkept : memberNumber (plainMachine [0, 1, 255, 51]) f (responseBytes f [255, 51]) = .int ⟨true, 16⟩ (-205) := by
    simp only [f]
    rfl
  have hstored : storedValue (plainMachine [0, 1, 255, 51]) f (responseBytes f [255, 51]) = .int .int (-205) := by
    simp only [f]
    rfl
  rw [hkept] at hkeeps hsame
  rw [hstored] at hstores hsame
  refine ⟨m, b, r, hm, hb, hr, hfields, ?_, hkeeps "records.h", hstores "decoders.h" "records.h", hsame.2 (by decide)⟩
  have hstruct : structSize (plainMachine [0, 1, 255, 51]) r = 8 := rfl
  rw [recordCount, hlength, hstruct]
  decide

/-- Run on one poll result, the native decoder of a device with one field makes one record, and its member gets the number of the field. -/
theorem exists_run_single_field {devices : List DeviceType} {m : Model} (h : m.Describes devices) {r : Record} (hr : r ∈ m.records)
    {f : PlacedField} (hfields : r.layout.fields = [f]) (hmembers : ((structMembers {} r).map Prod.snd).Nodup) {buffer : List UInt8}
    (hlength : recordLength {} r = buffer.length) (hbuffer : buffer.length < 4294967296) :
    ∃ mem', runFunction (plainMachine buffer) (pollRecords m {} ++ deviceTable m {} "records.h") ("decodePollResp_" ++ r.identifier)
        [.bytes 0, .int .uint32 buffer.length, .room, .int .uint32 100, .int .uint16 5, .state] ⟨fun _ => 0, []⟩ = some (.int .uint32 1, mem') ∧
      ∀ v, .write ("poll_" ++ r.identifier) 0 (memberName f) v ∈ mem'.trace ↔
        v = memberNumber (plainMachine buffer) f (fieldBytes (plainMachine buffer) 2 f) := by
  have hpos : 0 < recordLength {} r := Nat.lt_of_lt_of_le (by decide) (Nat.le_add_right (Options.timestampBytes {}).toNat r.layout.size)
  have hcount : recordCount (plainMachine buffer) {} r (UInt16.toNat 5) (UInt32.toNat 100) = 1 := by
    have hstruct : structSize (plainMachine buffer) r = 8 := rfl
    have hbytes : (plainMachine buffer).buffer.length = recordLength {} r := hlength.symm
    rw [recordCount, hstruct, hbytes, Nat.div_self hpos]
    decide
  have hkeeps := keepsMember_deviceTable (M := plainMachine buffer) h (o := {}) rfl rfl hr (hlength ▸ hbuffer) hbuffer hmembers
    (hfields ▸ List.mem_singleton_self f) 0 "records.h"
  obtain ⟨mem', written, hrun, htrace, hwritten⟩ := hkeeps 100 5 ⟨fun _ => 0, []⟩ (by rw [hcount]; decide)
  rw [hcount] at hrun
  refine ⟨mem', hrun, fun v => ?_⟩
  rw [Nat.zero_mul, Nat.zero_add] at hwritten
  rw [htrace, List.nil_append]
  exact hwritten v

/-- An unsigned field of four bytes that is not scaled: the native decoder keeps 2147483648 in the member, the script decoder stores its
negation, which the cast to `int` makes of it. -/
theorem decoders_disagree :
    let d : DeviceType := { key := "A", typeName := "A", responseSchema := [{ name := "x", typeCode := "<I" }], declaredBytes := 4 }
    ∃ m b mem' es, (Model.build [d]).outcome = .ok m ∧ (Bindings.ofModel m {}).outcome = .ok b ∧
      runFunction (plainMachine [0, 1, 0, 0, 0, 128]) (pollRecords m {} ++ deviceTable m {} "records.h") "decodePollResp_A"
          [.bytes 0, .int .uint32 6, .room, .int .uint32 100, .int .uint16 5, .state] ⟨fun _ => 0, []⟩ =
        some (.int .uint32 1, mem') ∧
      (∀ v, .write "poll_A" 0 "x" v ∈ mem'.trace ↔ v = .int .uint32 2147483648) ∧
      runFunction (plainMachine [0, 0, 0, 128]) (b.decoderSource "decoders.h" "records.h") "mp_decode_A"
          [.bytes 0, .int .uint32 4, .int .uint64 7] ⟨fun _ => 0, []⟩ = some (.foreign "dict", (⟨fun _ => 0, []⟩ : Memory Unit).log es) ∧
      (es.filterMap Event.stored?).map (fun s => (s.key, s.object)) =
        [ (.foreign "MP_QSTR_timestamp", .int .uint64 7), (.foreign "MP_QSTR_type", .text "A"), (.foreign "MP_QSTR_name", .text "A"),
          (.foreign "MP_QSTR_x", .int .int (-2147483648)) ] ∧
      ¬ (Value.int .uint32 2147483648 : Value Unit).SameNumber (.int .int (-2147483648)) := by
  intro d
  obtain ⟨m, b, r, hm, hb, hrecord, hr, hdevice, hlayout⟩ := exists_single_decoder (d := d) (by decide) (by decide) {}
  have hdescribes := Model.describes_of_build hm
  have hfields : r.layout.fields = [⟨{ name := "x", typeCode := "<I" }, .uint32 .little, 0⟩] := by rw [hlayout]; rfl
  have hsize : r.layout.size = 4 := by rw [hlayout]; rfl
  have hlength : recordLength {} r = 6 := by rw [recordLength, hsize]; rfl
  have hname : r.identifier = "A" := by
    rw [Record.identifier, hdevice]
    decide
  have hidentifier : "mp_decode_" ++ typeIdentifier r = "mp_decode_A" := by
    rw [typeIdentifier, hdevice]
    decide
  have hmembers : ((structMembers {} r).map Prod.snd).Nodup := by
    rw [structMembers, hfields]
    decide
  have hcount : recordCount (plainMachine [0, 1, 0, 0, 0, 128]) {} r (UInt16.toNat 5) (UInt32.toNat 100) = 1 := by
    have hstruct : structSize (plainMachine [0, 1, 0, 0, 0, 128]) r = 8 := rfl
    rw [recordCount, hlength, hstruct]
    decide
  have hkeeps := keepsMember_deviceTable (M := plainMachine [0, 1, 0, 0, 0, 128]) hdescribes (o := {}) rfl rfl hrecord (by rw [hlength]; decide)
    (by decide) hmembers (by rw [hfields]; exact List.mem_cons_self) 0 "records.h"
  obtain ⟨mem', written, hrun, htrace, hwritten⟩ := hkeeps 100 5 ⟨fun _ => 0, []⟩ (by rw [hcount]; decide)
  obtain ⟨es, hrun', hentries⟩ := fillsDictionary_decoderSource (M := plainMachine [0, 0, 0, 128]) hdescribes hb hr (by rw [hsize]; decide)
    (by decide) "decoders.h" "records.h" 7 ⟨fun _ => 0, []⟩
  have hexact : decoderEntries (plainMachine [0, 0, 0, 128]) {} r 7 =
      [("timestamp", .int .uint64 7), ("type", .text "A"), ("name", .text "A"), ("x", .int .int (-2147483648))] := by
    simp only [decoderEntries, recordTexts, metadata, hdevice, hfields]
    rfl
  have hvariables : variableNames r = ["dict", "result", "pBuf", "bufLen", "timestampUs", "x_raw", "x_value"] := by
    simp only [variableNames, hfields]
    decide
  rw [hexact, hvariables] at hentries
  rw [hcount, hname] at hrun
  rw [hidentifier] at hrun'
  refine ⟨m, b, mem', es, hm, hb, hrun, fun v => ?_, hrun', ?_, by simp [Value.SameNumber]⟩
  · rw [hname, hlength] at hwritten
    rw [htrace, List.nil_append]
    exact hwritten v
  · rw [eq_storesOf hentries (by decide)]
    rfl

end Artifact

end DeviceCatalog
