import DeviceCatalog.CSource.Division
import DeviceCatalog.Proofs.Dispatch
import DeviceCatalog.Proofs.IntegerScaling
import DeviceCatalog.Proofs.LookupTables
import DeviceCatalog.Proofs.SingleCatalog

/-!
# Divisions by zero in the decoders

The divisors in the emitted decoders are the resolution of the timestamps, which is a constant of the file, and the divisors of the fields that
are scaled, as literals (`divisors_deviceTable`, `divisors_decoderSource`). Nothing on the way from a catalog to a decoder looks at a divisor, so
a decoder divides by a literal for zero exactly when an attribute that has a place says so (`zero_division_iff`).
-/

namespace DeviceCatalog

open CSource

variable {α : Type} {M : Machine α} {scope : Scope α} {ls : List (Local α)}

/-! ## Literals for zero -/

namespace Binary64

theorem whole?_of_isZero {x : Binary64} (h : x.isZero = true) : x.whole? = some 0 := by
  obtain ⟨hexponent, hfraction⟩ := (isZero_iff x).1 h
  obtain ⟨m, e, hkind, hm⟩ := exists_kind_finite (x := x) (by omega)
  refine whole?_eq_some_iff.2 ⟨by omega, 0, ?_, by split <;> rfl⟩
  rw [magnitude, hkind, hm.2 ⟨hexponent, hfraction⟩]
  exact Nat.zero_mul _

end Binary64

/-- An attribute whose divisor is zero is scaled. -/
theorem Attribute.isScaled_of_isZero {a : Attribute} (h : a.divisor.isZero = true) : a.isScaled = true := by
  have hne : a.divisor ≠ .one := by
    intro hone
    rw [hone] at h
    exact absurd h (by decide)
  rw [isScaled, decide_eq_true hne, Bool.true_or]

namespace Artifact

/-- The literal of a divisor is one for zero when the divisor is zero. -/
theorem isZeroLiteral_scaleLiteral (k : OutputKind) (x : Binary64) : (scaleLiteral k x).isZeroLiteral = x.isZero := by
  cases k with
  | float => rfl
  | int =>
    rw [scaleLiteral, Expr.number]
    cases hwhole : x.whole? with
    | none => rfl
    | some n =>
      dsimp only
      split
      · rw [Bool.eq_iff_iff, Binary64.isZero_iff_of_whole hwhole]
        exact beq_iff_eq
      · rfl

/-! ## Divisors of the parts -/

theorem divisors_append (xs ys : List Item) : divisors (xs ++ ys) = divisors xs ++ divisors ys := List.flatMap_append

/-- Parts that have their divisors have them one behind the other. -/
theorem divisors_flatMap {β : Type} {f : β → List Item} {g : β → List Expr} {xs : List β} (h : ∀ x ∈ xs, divisors (f x) = g x) :
    divisors (xs.flatMap f) = xs.flatMap g := by
  induction xs with
  | nil => rfl
  | cons x xs ih =>
    rw [List.flatMap_cons, List.flatMap_cons, divisors_append, h x List.mem_cons_self, ih fun y hy => h y (List.mem_cons_of_mem x hy)]

/-- Where no item of a list has divisors, there are none. -/
theorem divisors_flatMap_eq_nil {β : Type} {f : β → List Item} {xs : List β} (h : ∀ x ∈ xs, divisors (f x) = []) :
    divisors (xs.flatMap f) = [] := by
  rw [divisors_flatMap h]
  exact List.flatMap_eq_nil_iff.2 fun _ _ => rfl

/-- Items that are no functions divide by nothing. -/
theorem divisors_eq_nil {items : List Item} (h : ∀ item ∈ items, item.function? = none) : divisors items = [] := by
  refine List.flatMap_eq_nil_iff.2 fun item hitem => ?_
  have hnone := h item hitem
  cases item with
  | function => cases hnone
  | _ => rfl

theorem divisors_of_isData {items : List Item} (h : ∀ item ∈ items, item.IsData) : divisors items = [] := by
  refine divisors_eq_nil fun item hitem => ?_
  have hdata := h item hitem
  cases item with
  | function => exact hdata.elim
  | _ => rfl

theorem divisors_scaleLiteral (k : OutputKind) (x : Binary64) : (scaleLiteral k x).divisors = [] := by
  cases k with
  | float => rfl
  | int =>
    rw [scaleLiteral, Expr.number]
    split
    · split <;> rfl
    · rfl

/-- The divisor of a field, as it is printed, if the field is scaled. -/
def fieldDivisors (f : PlacedField) : List Expr :=
  if f.attr.isScaled then [scaleLiteral f.attr.outputKind f.attr.divisor] else []

/-- A scaled value divides by the divisor of its field, if the field has one. -/
theorem divisors_scaledValue (f : PlacedField) {raw : Expr} (h : raw.divisors = []) : (scaledValue f.attr raw).divisors = fieldDivisors f := by
  have hquotient : (Expr.group (.binary .div raw (scaleLiteral f.attr.outputKind f.attr.divisor))).divisors =
      [scaleLiteral f.attr.outputKind f.attr.divisor] := by
    simp only [Expr.divisors, h, divisors_scaleLiteral, List.nil_append, if_true]
  have hmoved : ∀ op, op ≠ .div → (Expr.binary op (.group (.binary .div raw (scaleLiteral f.attr.outputKind f.attr.divisor)))
      (scaleLiteral f.attr.outputKind f.attr.offset.abs)).divisors = [scaleLiteral f.attr.outputKind f.attr.divisor] := by
    intro op hop
    rw [Expr.divisors, hquotient, divisors_scaleLiteral, if_neg hop]
    rfl
  unfold scaledValue fieldDivisors
  split
  · dsimp only
    split
    · exact hmoved .add nofun
    · split
      · exact hmoved .sub nofun
      · exact hquotient
  · split <;> exact h

/-- There is a zero among some divisors when one of the items has one. -/
theorem exists_zero_flatMap_iff {β : Type} {g : β → List Expr} {xs : List β} :
    (∃ e ∈ xs.flatMap g, e.isZeroLiteral = true) ↔ ∃ x ∈ xs, ∃ e ∈ g x, e.isZeroLiteral = true := by
  simp only [List.mem_flatMap]
  exact ⟨fun ⟨e, ⟨x, hx, he⟩, hzero⟩ => ⟨x, hx, e, he, hzero⟩, fun ⟨x, hx, e, he, hzero⟩ => ⟨e, ⟨x, hx, he⟩, hzero⟩⟩

/-- A field with a divisor that is zero brings a literal for zero, and no other field does. -/
theorem exists_zero_fieldDivisors_iff (f : PlacedField) :
    (∃ e ∈ fieldDivisors f, e.isZeroLiteral = true) ↔ f.attr.divisor.isZero = true := by
  unfold fieldDivisors
  split
  · simp [isZeroLiteral_scaleLiteral]
  · rename_i hscaled
    refine iff_of_false (by simp) fun hzero => hscaled (Attribute.isScaled_of_isZero hzero)

/-- Composing bytes divides by nothing: they are shifted and joined. -/
theorem divisors_composeBytes (width : Nat) (base : Option String) (order : ByteOrder) : (composeBytes width base order).divisors = [] := by
  have hbyte : ∀ i, (byteAt base i).divisors = [] := by
    intro i
    unfold byteAt
    cases base with
    | none => rfl
    | some b => cases i <;> rfl
  have hshifted : ∀ i bits, (shiftedByte (byteAt base i) bits).divisors = [] := by
    intro i bits
    unfold shiftedByte
    split
    · exact hbyte i
    · simp only [Expr.divisors, hbyte]
      rfl
  -- The joined terms are a fold, so the induction keeps an accumulator that divides by nothing.
  have hfold : ∀ (ts : List Expr) (t : Expr), t.divisors = [] → (∀ u ∈ ts, u.divisors = []) →
      (ts.foldl (Expr.binary .bitOr) t).divisors = [] := by
    intro ts
    induction ts with
    | nil => exact fun t ht _ => ht
    | cons u ts ih =>
      intro t ht hts
      obtain ⟨hu, hts⟩ := List.forall_mem_cons.1 hts
      refine ih _ ?_ hts
      simp only [Expr.divisors, ht, hu]
      rfl
  unfold composeBytes
  split
  · rfl
  · rename_i t ts hterms
    have hall : ∀ u ∈ t :: ts, u.divisors = [] := by
      rw [← hterms]
      intro u hu
      obtain ⟨i, -, rfl⟩ := List.mem_map.1 hu
      exact hshifted i _
    obtain ⟨ht, hts⟩ := List.forall_mem_cons.1 hall
    exact hfold ts t ht hts

theorem divisors_helpers (start : String) : divisors (helpers start) = [] := by
  have hhelper : ∀ t, divisors [helper start t, .blank] = [] := by
    intro t
    rcases t with _ | _ | order | order | order | order | order <;> (try cases order) <;> rfl
  exact divisors_flatMap_eq_nil fun t _ => hhelper t

/-! ## Divisors of the files -/

/-- The divisor of the timestamp of a poll result. -/
def timestampDivisor : Expr := .var "DECODE_STRUCT_TIMESTAMP_RESOLUTION_US"

theorem divisors_timestampItems (o : Options) : divisors (timestampItems o) = [] := by
  have hbytes := divisors_composeBytes o.timestampBytes.toNat none .big
  simp [timestampItems, divisors, Block.divisors, Stmt.divisors, Expr.divisors, stateMember, hbytes]

/-- The poll records header has no functions. -/
theorem divisors_pollRecords (m : Model) (o : Options) : divisors (pollRecords m o) = [] := by
  have hstructs : divisors (m.records.flatMap (structItems o)) = [] := divisors_flatMap_eq_nil fun _ _ => rfl
  have hfront : divisors ([.pragmaOnce, .includeSystem "stdint.h", .blank, generatedNote, .blank] ++ timestampConstants o) = [] := rfl
  rw [pollRecords, divisors_append, hfront, List.nil_append]
  split
  · exact hstructs
  · rfl

/-- Assigning a member divides as its value does. -/
theorem divisors_fieldAssignment (f : PlacedField) : (fieldAssignment f).divisors = fieldDivisors f := by
  have hvalue : (scaledValue f.attr (.call (nativeHelper ++ f.type.extractor) [.var "pBuf", .decimal f.offset])).divisors = fieldDivisors f :=
    divisors_scaledValue f rfl
  unfold fieldAssignment
  dsimp only
  rw [Stmt.divisors]
  split <;> exact hvalue

/-- A native decoder divides its timestamp, and then its fields. -/
theorem divisors_decoderItems (o : Options) (r : Record) :
    divisors (decoderItems o r) = timestampDivisor :: r.layout.fields.flatMap fieldDivisors := by
  have hfields : (r.layout.fields.map fieldAssignment).flatMap Stmt.divisors = r.layout.fields.flatMap fieldDivisors := by
    rw [List.flatMap_map]
    exact congrArg (List.flatMap · _) (funext divisors_fieldAssignment)
  have hpointer : (if r.layout.fields.isEmpty then []
      else [Stmt.define (.pointer (.const .uint8)) "pBuf" (.binary .add (.var "pPollBuf") (.var "POLL_RESULT_TIMESTAMP_SIZE"))]).flatMap
        Stmt.divisors = [] := by
    split <;> rfl
  have hstep : (decoderStep o r).flatMap Stmt.divisors = timestampDivisor :: r.layout.fields.flatMap fieldDivisors := by
    unfold decoderStep
    rw [List.flatMap_append, List.flatMap_append, List.flatMap_append, hpointer, hfields, List.append_nil]
    exact List.append_nil _
  show ((decoderBody o r).flatMap Block.divisors ++ _) = _
  rw [decoderBody, ← hstep]
  simp [Block.divisors, Stmt.divisors, Expr.divisors, decoderCondition]

/-- The divisors in the device type table. -/
theorem divisors_deviceTable (m : Model) (o : Options) (pollRecordsName : String) :
    divisors (deviceTable m o pollRecordsName) =
      if o.decoding then m.records.flatMap fun r => timestampDivisor :: r.layout.fields.flatMap fieldDivisors else [] := by
  have hhead : divisors (tableHead o pollRecordsName) = [] := divisors_eq_nil (by
    unfold tableHead
    split <;> simp [Item.function?])
  have htables : divisors ([.table (recordTable m o), .blank] ++ indexItems m.index ++ scanItems m.scan) = [] := by
    rw [divisors_append, divisors_append, divisors_of_isData (isData_indexItems m.index), divisors_of_isData (isData_scanItems m.scan)]
    rfl
  have hdecoders : divisors (nativeDecoders m o) = m.records.flatMap fun r => timestampDivisor :: r.layout.fields.flatMap fieldDivisors := by
    rw [nativeDecoders, divisors_append, divisors_append, divisors_helpers, divisors_timestampItems]
    exact divisors_flatMap fun r _ => divisors_decoderItems o r
  have hsplit : deviceTable m o pollRecordsName = tableHead o pollRecordsName ++ ((if o.decoding then nativeDecoders m o else []) ++
      ([.table (recordTable m o), .blank] ++ indexItems m.index ++ scanItems m.scan)) := by
    simp only [deviceTable, List.append_assoc]
  rw [hsplit, divisors_append, divisors_append, hhead, htables, List.nil_append, List.append_nil]
  split
  · exact hdecoders
  · rfl

theorem divisors_store (o : ScriptOptions) (k : StoreKind) (name : String) (value : Expr) : (store o k name value).divisors = value.divisors :=
  List.append_nil value.divisors

/-- A script decoder divides its fields. -/
theorem divisors_fieldBlocks (o : ScriptOptions) (f : PlacedField) : (fieldBlocks o f).flatMap Block.divisors = fieldDivisors f := by
  have hsimple : ∀ ss : List Stmt, (ss.map Block.simple).flatMap Block.divisors = ss.flatMap Stmt.divisors := fun ss => by
    rw [List.flatMap_map]
    rfl
  have hstores : (fieldStores o f).flatMap Stmt.divisors = fieldDivisors f := by
    unfold fieldStores
    dsimp only
    split
    · rw [List.flatMap_cons, List.flatMap_singleton, divisors_store, Stmt.divisors, divisors_scaledValue f rfl]
      exact List.append_nil _
    · rename_i hscaled
      rw [List.flatMap_singleton, divisors_store, fieldDivisors, if_neg hscaled]
      rfl
  have hextras : (fieldExtras o f).flatMap Stmt.divisors = [] := by
    unfold fieldExtras
    rw [List.flatMap_append, List.append_eq_nil_iff]
    constructor
    · rcases f.attr.unit? with _ | u
      · rfl
      · dsimp only
        split <;> rfl
    · split
      · split <;> rfl
      · rfl
  rw [fieldBlocks_eq, List.flatMap_append, List.flatMap_append, List.flatMap_cons, hsimple, hsimple, hstores, hextras]
  exact List.append_nil _

/-- A decoder divides by the divisors of its fields. -/
theorem divisors_scriptDecoderItems (o : ScriptOptions) (r : Record) :
    divisors (scriptDecoderItems o r) = r.layout.fields.flatMap fieldDivisors := by
  have htexts : ((textStores o r).map Block.simple).flatMap Block.divisors = [] := by
    rw [textStores_eq, List.map_map]
    refine List.flatMap_eq_nil_iff.2 fun b hb => ?_
    obtain ⟨x, -, rfl⟩ := List.mem_map.1 hb
    rfl
  have hfields : (r.layout.fields.flatMap (fieldBlocks o)).flatMap Block.divisors = r.layout.fields.flatMap fieldDivisors := by
    rw [List.flatMap_assoc]
    exact congrArg (List.flatMap · _) (funext (divisors_fieldBlocks o))
  show ((scriptDecoderBody o r).flatMap Block.divisors ++ _) = _
  rw [scriptDecoderBody, List.flatMap_append, List.flatMap_append, List.flatMap_append, List.flatMap_append, htexts, hfields]
  simp [Block.divisors, Stmt.divisors, Expr.divisors, Expr.divisorsOfAll, nothing]

theorem divisors_dispatchItems (decoders : List Record) : divisors (dispatchItems decoders) = [] := by
  have hbranches : (decoders.map dispatchBranch).flatMap (fun branch => branch.1.divisors ++ branch.2.flatMap Stmt.divisors) = [] := by
    refine List.flatMap_eq_nil_iff.2 fun branch hbranch => ?_
    obtain ⟨r, -, rfl⟩ := List.mem_map.1 hbranch
    rfl
  show ((dispatchBody decoders).flatMap Block.divisors ++ []) = []
  rw [dispatchBody, List.append_nil]
  simp [Block.divisors, Stmt.divisors, Expr.divisors, nothing, hbranches]

/-- The symbol table and the declarations have no functions. -/
theorem divisors_symbolTable (b : Bindings) : divisors b.symbolTable = [] := by
  have hsymbols : divisors (b.symbols.map Item.symbol) = [] := by
    refine divisors_eq_nil fun item hitem => ?_
    obtain ⟨name, -, rfl⟩ := List.mem_map.1 hitem
    rfl
  rw [Bindings.symbolTable, divisors_append, hsymbols]
  rfl

theorem divisors_decoderHeader (b : Bindings) : divisors b.decoderHeader = [] := by
  have hdecoders : divisors (b.decoders.flatMap fun r => [decoderComment r, .prototype (scriptDecoderSignature r), .blank]) = [] :=
    divisors_flatMap_eq_nil fun _ _ => rfl
  rw [Bindings.decoderHeader, divisors_append, divisors_append, divisors_append, hdecoders]
  rfl

/-- The divisors in the sources of the script decoders. -/
theorem divisors_decoderSource (b : Bindings) (headerName pollRecordsName : String) :
    divisors (b.decoderSource headerName pollRecordsName) = b.decoders.flatMap fun r => r.layout.fields.flatMap fieldDivisors := by
  have hfront : divisors [ .includeLocal headerName, .includeLocal pollRecordsName, .includeLocal "py/runtime.h", .includeLocal "py/objstr.h",
      .includeSystem "string.h", .blank, generatedNote, .blank ] = [] := rfl
  have hdictionary : divisors (dictionaryItems b.options) = [] := rfl
  have hdecoders : divisors (b.decoders.flatMap (scriptDecoderItems b.options)) =
      b.decoders.flatMap fun r => r.layout.fields.flatMap fieldDivisors :=
    divisors_flatMap fun r _ => divisors_scriptDecoderItems b.options r
  rw [Bindings.decoderSource, divisors_append, divisors_append, divisors_append, divisors_append, hfront, divisors_helpers, hdictionary,
    hdecoders, divisors_dispatchItems, List.append_nil]
  rfl

/-! ## What a division by zero gives -/

theorem wrap_zero (t : IntType) : t.wrap 0 = 0 := by
  unfold IntType.wrap
  split
  · exact Int.zero_bmod
  · exact Int.zero_emod _

/-- Nothing is known of what is computed from an unknown number. -/
theorem operate_unknown (M : Machine α) (op : Operator) {v : Value α} (hv : v.IsNumber) : M.operate op .unknown v = .unknown := by
  rcases hv with ⟨t, n, rfl⟩ | ⟨f, x, rfl⟩ | rfl <;> rfl

/-- An integer field with a divisor that is zero has no known value. -/
theorem scaled_of_isZero {a : Attribute} (hkind : a.outputKind = .int) (hzero : a.divisor.isZero = true) (t : IntType) (x : Int) :
    scaled M a (.int t x) = .unknown := by
  have hdiv : M.operate .div (.int t x) (literalValue M .int a.divisor) = .unknown := by
    rw [literalValue_of_whole (Binary64.whole?_of_isZero hzero) (by decide), Machine.operate_integers, Value.ofIntegers]
    exact if_pos (wrap_zero _)
  have hdistance := isNumber_literalValue M .int a.offset.abs
  rw [scaled, if_pos (Attribute.isScaled_of_isZero hzero), hkind]
  dsimp only
  rw [hdiv, operate_unknown M .add hdistance, operate_unknown M .sub hdistance]
  split
  · rfl
  · split <;> rfl

/-- So has the member that it is kept in. -/
theorem memberNumber_of_isZero {f : PlacedField} (hinteger : f.type.isInteger = true) (hkind : f.attr.outputKind = .int)
    (hzero : f.attr.divisor.isZero = true) (M : Machine α) (bs : List UInt8) : memberNumber M f bs = .unknown := by
  have hscaled := Attribute.isScaled_of_isZero hzero
  have htype : f.valueType = .int32 := by rw [PlacedField.valueType, hkind, hscaled]; rfl
  rw [memberNumber, assignedValue, if_pos hscaled, htype, fieldValue, if_pos hinteger, scaled_of_isZero hkind hzero]
  rfl

/-! ## The files of a model -/

/-- Some attribute that has a place in the poll response has a divisor that is zero. -/
def HasZeroDivisor (d : DeviceType) : Prop :=
  ∃ a ∈ d.responseSchema, a.HasPlace ∧ a.divisor.isZero = true

/-- A record has a zero among the divisors of its fields when its device type has a zero divisor in its schema. -/
theorem exists_zero_divisor_iff {devices : List DeviceType} {m : Model} (h : m.Describes devices) {r : Record} (hr : r ∈ m.records) :
    (∃ e ∈ r.layout.fields.flatMap fieldDivisors, e.isZeroLiteral = true) ↔ HasZeroDivisor r.device := by
  have hfields : r.layout.fields.map PlacedField.attr = r.device.responseSchema.filter fun a => a.HasPlace := by
    rw [h.layouts r hr]
    exact PollLayout.map_attr_fields_place _ _ _
  simp only [exists_zero_flatMap_iff, exists_zero_fieldDivisors_iff]
  constructor
  · rintro ⟨f, hf, hz⟩
    have hmem : f.attr ∈ r.device.responseSchema.filter fun a => a.HasPlace := hfields ▸ List.mem_map_of_mem hf
    obtain ⟨hschema, hplace⟩ := List.mem_filter.1 hmem
    exact ⟨f.attr, hschema, of_decide_eq_true hplace, hz⟩
  · rintro ⟨a, hschema, hplace, hz⟩
    have hmem : a ∈ r.layout.fields.map PlacedField.attr := by
      rw [hfields]
      exact List.mem_filter.2 ⟨hschema, decide_eq_true hplace⟩
    obtain ⟨f, hf, rfl⟩ := List.mem_map.1 hmem
    exact ⟨f, hf, hz⟩

/-- A decoder divides by a literal for zero exactly when an attribute with a place has a divisor that is zero: with decoding in the native files
when some device type has one, and in the files of the script bindings when that of a decoder has one. Such a field is scaled, and if it is
stored and wanted as an integer its value is not known, whatever it is read from. -/
theorem zero_division_iff {devices : List DeviceType} {m : Model} (h : (Model.build devices).outcome = .ok m) (M : Machine α) :
    (∀ (o : Options) (pollRecordsName : String), DividesByZero (pollRecords m o ++ deviceTable m o pollRecordsName) ↔
      o.decoding = true ∧ ∃ d ∈ devices, HasZeroDivisor d) ∧
    (∀ (config : ScriptOptions) (b : Bindings) (headerName pollRecordsName : String), (Bindings.ofModel m config).outcome = .ok b →
      (DividesByZero (b.symbolTable ++ b.decoderHeader ++ b.decoderSource headerName pollRecordsName) ↔
        ∃ r ∈ b.decoders, HasZeroDivisor r.device)) ∧
    (∀ r ∈ m.records, ∀ f ∈ r.layout.fields, f.attr.divisor.isZero = true → f.attr.isScaled = true ∧
      (f.type.isInteger = true → f.attr.outputKind = .int → ∀ (scope : Scope α) (ls : List (Local α)) (raw : Expr) (x : Int)
        (mem mem' : Memory α), raw.eval M scope ls mem = some (.int (storedInt f.type) x, mem') →
        (scaledValue f.attr raw).eval M scope ls mem = some (.unknown, mem'))) := by
  have hdescribes := Model.describes_of_build h
  refine ⟨fun o pollRecordsName => ?_, fun config b headerName pollRecordsName hb => ?_, fun r hr f hf hzero => ?_⟩
  · rw [DividesByZero, divisors_append, divisors_pollRecords, List.nil_append, divisors_deviceTable]
    split
    · rename_i hdecoding
      have htimestamp : ∀ r : Record, (∃ e ∈ timestampDivisor :: r.layout.fields.flatMap fieldDivisors, e.isZeroLiteral = true) ↔
          ∃ e ∈ r.layout.fields.flatMap fieldDivisors, e.isZeroLiteral = true := fun r => by simp [timestampDivisor, Expr.isZeroLiteral]
      rw [and_iff_right hdecoding, ← hdescribes.deviceTypes, exists_zero_flatMap_iff]
      simp only [List.mem_map, exists_exists_and_eq_and]
      exact exists_congr fun r => and_congr_right fun hr => (htimestamp r).trans (exists_zero_divisor_iff hdescribes hr)
    · rename_i hdecoding
      exact iff_of_false (by simp) fun hzero => hdecoding hzero.1
  · have hheader : divisors (b.symbolTable ++ b.decoderHeader) = [] := by
      rw [divisors_append, divisors_symbolTable, divisors_decoderHeader]
      rfl
    have hmem : ∀ r ∈ b.decoders, r ∈ m.records := by
      rw [eq_of_outcome_ofModel hb]
      exact fun r hr => ((nodup_assignDecoders [] m.records).2 r hr).1
    rw [DividesByZero, divisors_append, hheader, List.nil_append, divisors_decoderSource, exists_zero_flatMap_iff]
    exact exists_congr fun r => and_congr_right fun hr => exists_zero_divisor_iff hdescribes (hmem r hr)
  · refine ⟨Attribute.isScaled_of_isZero hzero, fun hinteger hkind scope ls raw x mem mem' hraw => ?_⟩
    rw [← scaled_of_isZero hkind hzero (storedInt f.type) x]
    exact eval_scaledValue f.attr (Value.isNumber_int _ _) hraw

/-- A field of one byte with the divisor 10: neither the native decoder nor the one of the script bindings divides by zero. -/
theorem zero_division_scaled_byte :
    let d : DeviceType :=
      { key := "A", typeName := "A", declaredBytes := 1, responseSchema := [{ name := "x", typeCode := "B", divisor := ⟨0x4024000000000000⟩ }] }
    ∃ m b, (Model.build [d]).outcome = .ok m ∧ (Bindings.ofModel m {}).outcome = .ok b ∧
      ¬ DividesByZero (pollRecords m {} ++ deviceTable m {} "records.h") ∧
      ¬ DividesByZero (b.symbolTable ++ b.decoderHeader ++ b.decoderSource "decoders.h" "records.h") := by
  intro d
  obtain ⟨m, r, hm, hrecords, hdevice, -⟩ := Model.exists_build_singleton (d := d) (by decide)
  obtain ⟨b, hb, hdecoders⟩ := exists_bindings_singleton hrecords (by rw [hdevice]; decide) {}
  obtain ⟨hnative, hscript, -⟩ := zero_division_iff hm (plainMachine [])
  have hnone : ¬ HasZeroDivisor d := by
    rintro ⟨a, ha, -, hzero⟩
    rw [List.mem_singleton.1 ha] at hzero
    exact absurd hzero (by decide)
  refine ⟨m, b, hm, hb, fun hzero => ?_, fun hzero => ?_⟩
  · obtain ⟨-, e, he, hzero⟩ := (hnative {} "records.h").1 hzero
    exact hnone (List.mem_singleton.1 he ▸ hzero)
  · obtain ⟨s, hs, hzero⟩ := (hscript {} b "decoders.h" "records.h" hb).1 hzero
    rw [hdecoders, List.mem_singleton] at hs
    exact hnone (hdevice ▸ hs ▸ hzero)

set_option maxRecDepth 2000 in
/-- A catalog with the divisor 0 is read, makes a model and is given to both decoders, which divide by it. -/
theorem zero_divisor_reaches_decoders :
    let text := "\x7b\"devTypes\":\x7b\"A\":\x7b\"deviceType\":\"A\",\"devInfoJson\":\x7b\"resp\":\x7b\"b\":1,\"a\":[\x7b\"n\":\"x\",\"t\":\"B\",\"d\":0\x7d]\x7d\x7d\x7d\x7d\x7d"
    let response : Json := .object [("b", .number (.integer 1)),
      ("a", .array [.object [("n", .string "x"), ("t", .string "B"), ("d", .number (.integer 0))]])]
    let d : DeviceType :=
      { key := "A", typeName := "A", declaredBytes := 1, responseSchema := [{ name := "x", typeCode := "B", divisor := ⟨0⟩ }],
        deviceInfo := .object [("resp", response)] }
    (Catalog.parse text).outcome = .ok [d] ∧
      ∃ m b mem', (Model.build [d]).outcome = .ok m ∧ (Bindings.ofModel m {}).outcome = .ok b ∧
        DividesByZero (deviceTable m {} "records.h") ∧ DividesByZero (b.decoderSource "decoders.h" "records.h") ∧
        runFunction (plainMachine [0, 1, 10]) (pollRecords m {} ++ deviceTable m {} "records.h") "decodePollResp_A"
            [.bytes 0, .int .uint32 3, .room, .int .uint32 100, .int .uint16 5, .state] ⟨fun _ => 0, []⟩ = some (.int .uint32 1, mem') ∧
        ∀ v, .write "poll_A" 0 "x" v ∈ mem'.trace ↔ v = .unknown := by
  intro text response d
  have hroot : Json.parse text =
      .ok (.object [("devTypes", .object [("A", .object [("deviceType", .string "A"), ("devInfoJson", .object [("resp", response)])])])]) := by
    decide +kernel
  have hread : (Catalog.parse text).outcome = .ok [d] := by
    unfold Catalog.parse Catalog.ofText
    rw [hroot]
    rfl
  obtain ⟨m, r, hm, hrecords, hdevice, hlayout⟩ := Model.exists_build_singleton (d := d) (by decide)
  obtain ⟨b, hb, hdecoders⟩ := exists_bindings_singleton hrecords (by rw [hdevice]; decide) {}
  have hr : r ∈ m.records := hrecords ▸ List.mem_singleton_self r
  have hfields : r.layout.fields = [⟨{ name := "x", typeCode := "B", divisor := ⟨0⟩ }, .uint8, 0⟩] := by rw [hlayout]; rfl
  have hzero : ∃ e ∈ r.layout.fields.flatMap fieldDivisors, e.isZeroLiteral = true :=
    exists_zero_flatMap_iff.2 ⟨_, hfields ▸ List.mem_singleton_self _, (exists_zero_fieldDivisors_iff _).2 rfl⟩
  have hlength : recordLength {} r = ([0, 1, 10] : List UInt8).length := by rw [recordLength, hlayout]; rfl
  have hname : r.identifier = "A" := by
    rw [Record.identifier, hdevice]
    decide
  have hmembers : ((structMembers {} r).map Prod.snd).Nodup := by
    rw [structMembers, hfields]
    decide
  obtain ⟨mem', hrun, hwritten⟩ := exists_run_single_field (Model.describes_of_build hm) hr hfields hmembers hlength (by decide)
  rw [hname, memberNumber_of_isZero rfl rfl rfl] at hwritten
  rw [hname] at hrun
  refine ⟨hread, m, b, mem', hm, hb, ?_, ?_, hrun, hwritten⟩
  · obtain ⟨e, he, hz⟩ := hzero
    refine ⟨e, ?_, hz⟩
    rw [divisors_deviceTable, hrecords]
    exact List.mem_flatMap.2 ⟨r, List.mem_singleton_self r, List.mem_cons_of_mem _ he⟩
  · rw [DividesByZero, divisors_decoderSource, hdecoders]
    exact exists_zero_flatMap_iff.2 ⟨r, List.mem_singleton_self r, hzero⟩

end Artifact

end DeviceCatalog
