import DeviceCatalog.Proofs.Dictionary
import DeviceCatalog.Proofs.Extraction

/-!
# What a script decoder does

Parts of a body say which bytes they read and which entries they store, and keep the buffer and the dictionary in sight (`Runs`); put one
behind the other they do so one behind the other. The fields read every byte of the poll response once, and the dictionary gets the
timestamp, the texts of the record and what is known of its fields (`meaning_scriptDecoder_enough`); a buffer that is too short is not read
at all (`meaning_scriptDecoder_short`).
-/

namespace DeviceCatalog.Artifact

open CSource

variable {α : Type} {M : Machine α} {scope : Scope α} {ls : List (Local α)} {o : ScriptOptions} {hidden : List String}

/-! ## Parts of a body -/

/-- What a script decoder relies on: the helpers, and the functions that make and fill dictionaries. -/
structure ScriptScope (M : Machine α) (scope : Scope α) (o : ScriptOptions) : Prop where
  fields : ∀ t, GivesField M (scope.call M (scriptHelper ++ FieldType.extractor t)) t
  stores : ∀ k : StoreKind, StoresObject M (scope.call M k.function) k
  create : CreatesDictionary M (scope.call M createSignature.name) o
  constants : scope.constants = []

/-- The variables of a decoder that is filling its dictionary. -/
structure InDecoder (M : Machine α) (scope : Scope α) (hidden : List String) (ls : List (Local α)) : Prop where
  buffer : scope.variable ls "pBuf" = .bytes 0
  result : scope.variable ls "result" = newDictionary M
  names : ∀ l ∈ ls, l.name ∈ hidden

theorem variable_of_ne {name other : String} (h : other ≠ name) (type : CType) (v : Value α) :
    scope.variable (⟨other, type, v⟩ :: ls) name = scope.variable ls name :=
  variable_append [⟨other, type, v⟩] (List.forall_mem_singleton.2 h)

theorem variable_self (name : String) (type : CType) (v : Value α) : scope.variable (⟨name, type, v⟩ :: ls) name = v := by
  simp [Scope.variable]

/-- A variable more hides the symbol that has its name. -/
theorem InDecoder.define (h : InDecoder M scope hidden ls) {name : String} (hbuffer : name ≠ "pBuf") (hresult : name ≠ "result")
    (hname : name ∈ hidden) (type : CType) (v : Value α) : InDecoder M scope hidden (⟨name, type, v⟩ :: ls) where
  buffer := (variable_of_ne hbuffer type v).trans h.buffer
  result := (variable_of_ne hresult type v).trans h.result
  names := List.forall_mem_cons.2 ⟨hname, h.names⟩

/-- A part of a body that goes on to its end, reads some bytes of the buffer and puts some entries into the dictionary, in these orders. -/
def Runs (M : Machine α) (scope : Scope α) (o : ScriptOptions) (hidden : List String) (blocks : List Block) (positions : List Nat)
    (entries : List (String × Value α)) : Prop :=
  ∀ ls mem, InDecoder M scope hidden ls → ∃ ls' es stores, runAll (Block.exec M scope) blocks ⟨ls, mem⟩ = some (⟨ls', mem.log es⟩, none) ∧
    ReadsStores es positions stores ∧ List.Forall₂ (StoresEntry M o hidden) stores entries ∧ InDecoder M scope hidden ls'

theorem Runs.nil : Runs M scope o hidden [] [] [] := fun ls mem hls =>
  ⟨ls, [], [], by rw [runAll, Memory.log_nil], .nil, .nil, hls⟩

/-- Blocks one behind the other read their bytes and store their entries one after the other. -/
theorem Runs.append {bs bs' : List Block} {ps ps' : List Nat} {entries entries' : List (String × Value α)}
    (h : Runs M scope o hidden bs ps entries) (h' : Runs M scope o hidden bs' ps' entries') :
    Runs M scope o hidden (bs ++ bs') (ps ++ ps') (entries ++ entries') := by
  intro ls mem hls
  obtain ⟨ls₁, es, stores, hrun, hes, hstores, hls₁⟩ := h ls mem hls
  obtain ⟨ls₂, es', stores', hrun', hes', hstores', hls₂⟩ := h' ls₁ (mem.log es) hls₁
  rw [Memory.log_log] at hrun'
  exact ⟨ls₂, es ++ es', stores ++ stores', (runAll_append hrun).trans hrun', hes.append hes', List.rel_append hstores hstores', hls₂⟩

/-- Parts that read nothing read nothing together. -/
theorem Runs.append_of_silent {bs bs' : List Block} {entries entries' : List (String × Value α)} (h : Runs M scope o hidden bs [] entries)
    (h' : Runs M scope o hidden bs' [] entries') : Runs M scope o hidden (bs ++ bs') [] (entries ++ entries') :=
  h.append h'

theorem Runs.cons {b : Block} {bs : List Block} {ps ps' : List Nat} {entries entries' : List (String × Value α)}
    (h : Runs M scope o hidden [b] ps entries) (h' : Runs M scope o hidden bs ps' entries') :
    Runs M scope o hidden (b :: bs) (ps ++ ps') (entries ++ entries') :=
  h.append h'

theorem runs_blank : Runs M scope o hidden [.blank] [] [] := fun ls mem hls =>
  ⟨ls, [], [], by rw [Memory.log_nil]; rfl, .nil, .nil, hls⟩

/-- A value is put into the dictionary. -/
theorem ScriptScope.exec_store (h : ScriptScope M scope o) (hls : InDecoder M scope hidden ls) (kind : StoreKind) (name : String)
    {value : Expr} {v : Value α} (hvalue : Yields M scope ls value v) :
    ∃ es s, (∀ mem, (store o kind name value).exec M scope ⟨ls, mem⟩ = some (⟨ls, mem.log es⟩, none)) ∧ ReadsStores es [] [s] ∧
      StoresEntry M o hidden s (name, kind.made M (M.convert kind.valueType v)) := by
  obtain ⟨es, hrun, hes⟩ := h.stores kind (newDictionary M) (scope.variable ls (o.symbol name)) v
  have hsymbol : Yields M scope ls (.var (o.symbol name)) (scope.variable ls (o.symbol name)) := yields_var rfl
  obtain ⟨events, harguments, hevents⟩ := (yields_var hls.result).cons (hsymbol.cons (hvalue.cons yieldsAll_nil))
  refine ⟨events ++ es, _, fun mem => exec_run (harguments.call hrun mem), hevents.append hes, convert_newDictionary M, rfl, fun hfree => ?_⟩
  have hforeign : scope.variable ls (o.symbol name) = .foreign (o.symbol name) :=
    variable_eq_foreign h.constants fun l hl heq => hfree (heq ▸ hls.names l hl)
  rw [hforeign]
  rfl

/-- A store statement stores the object made of its value, under its name. -/
theorem runs_store (h : ScriptScope M scope o) (kind : StoreKind) (name : String) {value : Expr} {v : Value α}
    (hvalue : ∀ ls, Yields M scope ls value v) :
    Runs M scope o hidden [.simple (store o kind name value)] [] [(name, kind.made M (M.convert kind.valueType v))] := by
  intro ls mem hls
  obtain ⟨es, s, hrun, hes, hs⟩ := h.exec_store hls kind name (hvalue ls)
  exact ⟨ls, es, [s], runAll_simple (hrun mem), hes, .cons hs .nil, hls⟩

/-! ## Texts -/

/-- The texts that a decoder stores, each under its name. -/
def recordTexts (o : ScriptOptions) (r : Record) : List (String × String) :=
  [("type", r.device.typeName), ("name", r.device.displayName.getD r.device.typeName)] ++ if o.includeMetadata then metadata r else []

/-- The entry of a text. -/
def textEntry (M : Machine α) (x : String × String) : String × Value α :=
  (x.1, StoreKind.str.made M (.text x.2))

/-- The texts are stored one after the other, each under its name. -/
theorem textStores_eq (o : ScriptOptions) (r : Record) :
    textStores o r = (recordTexts o r).map fun x => store o .str x.1 (.string x.2) := by
  rw [textStores, recordTexts, List.map_append]
  split <;> rfl

theorem runs_textStore (h : ScriptScope M scope o) (name text : String) :
    Runs M scope o hidden [.simple (store o .str name (.string text))] [] [textEntry M (name, text)] :=
  runs_store h .str name fun _ => yields_string text

/-- Storing texts stores their entries in order. -/
theorem runs_textStores (h : ScriptScope M scope o) (texts : List (String × String)) :
    Runs M scope o hidden ((texts.map fun x => store o .str x.1 (.string x.2)).map Block.simple) [] (texts.map (textEntry M)) := by
  induction texts with
  | nil => exact Runs.nil
  | cons x texts ih => exact (runs_textStore h x.1 x.2).cons ih

/-! ## Fields -/

/-- The variable with the raw value of a field. -/
def rawName (f : PlacedField) : String := CSource.name f.name ++ "_raw"

/-- The variable with the scaled value of a field. -/
def valueName (f : PlacedField) : String := CSource.name f.name ++ "_value"

theorem append_ne {start stop name : String} (h : stop.toList.getLast? ≠ none) (hname : name.toList.getLast? ≠ stop.toList.getLast?) :
    start ++ stop ≠ name := by
  rintro rfl
  obtain ⟨c, hc⟩ := Option.ne_none_iff_exists'.1 h
  exact hname (by simp [List.getLast?_append, hc])

/-- The variables of a field are not those that a decoder starts with. -/
theorem rawName_ne (f : PlacedField) {name : String} (h : name.toList.getLast? ≠ some 'w') : rawName f ≠ name :=
  append_ne (by decide) h

theorem valueName_ne (f : PlacedField) {name : String} (h : name.toList.getLast? ≠ some 'e') : valueName f ≠ name :=
  append_ne (by decide) h

/-- The statement that reads a field. -/
def fieldRead (f : PlacedField) : Stmt :=
  .define f.type.cType (rawName f) (.call (scriptHelper ++ f.type.extractor) [.var "pBuf", .decimal f.offset])

/-- The statements that scale and store a field. -/
def fieldStores (o : ScriptOptions) (f : PlacedField) : List Stmt :=
  let kind := StoreKind.ofOutput f.attr.outputKind
  if f.attr.isScaled then
    [.define kind.valueType (valueName f) (scaledValue f.attr (.var (rawName f))), store o kind f.name (.var (valueName f))]
  else [store o kind f.name (.cast kind.valueType (.var (rawName f)))]

/-- The statements that store the unit and the range of a field. -/
def fieldExtras (o : ScriptOptions) (f : PlacedField) : List Stmt :=
  (match f.attr.unit? with
  | some u => if o.includeUnits then [store o .str (unitName f) (.string u)] else []
  | none => []) ++
    match f.attr.range with
    | some (low, high) =>
      if o.includeRanges then [store o .float (minName f) (.single low), store o .float (maxName f) (.single high)] else []
    | none => []

/-- The blocks of a field: it is read, its value is stored, then what goes with it, and a blank line stands behind. -/
theorem fieldBlocks_eq (o : ScriptOptions) (f : PlacedField) :
    fieldBlocks o f =
      .simple (fieldRead f) :: (fieldStores o f).map Block.simple ++ ((fieldExtras o f).map Block.simple ++ [.blank]) := by
  simp only [fieldBlocks, fieldExtras, List.map_append, List.append_assoc, List.cons_append, List.map_cons]
  rfl

/-- The raw value of a field in its variable. -/
def rawValue (M : Machine α) (f : PlacedField) (bs : List UInt8) : Value α :=
  M.convert f.type.cType (fieldValue M f.type bs)

/-- The number that is stored for a field: it is converted for the variable with the scaled value, or by a cast, and once more for the function
that stores it. -/
def storedValue (M : Machine α) (f : PlacedField) (bs : List UInt8) : Value α :=
  let type := (StoreKind.ofOutput f.attr.outputKind).valueType
  M.convert type (M.convert type (if f.attr.isScaled then scaled M f.attr (rawValue M f bs) else rawValue M f bs))

/-- The entry of a field whose poll response starts the buffer. -/
def valueEntry (M : Machine α) (f : PlacedField) : String × Value α :=
  (f.name, (StoreKind.ofOutput f.attr.outputKind).made M (storedValue M f (fieldBytes M 0 f)))

/-- The object of the end of a range. -/
def boundObject (M : Machine α) (x : Binary64) : Value α :=
  StoreKind.float.made M (M.convert .float (.real .single (M.literal .single x)))

/-- The entries of the unit and the range of a field. -/
def extraEntries (M : Machine α) (o : ScriptOptions) (f : PlacedField) : List (String × Value α) :=
  (match f.attr.unit? with
  | some u => if o.includeUnits then [textEntry M (unitName f, u)] else []
  | none => []) ++
    match f.attr.range with
    | some (low, high) => if o.includeRanges then [(minName f, boundObject M low), (maxName f, boundObject M high)] else []
    | none => []

/-- The entries of a field. -/
def fieldEntries (M : Machine α) (o : ScriptOptions) (f : PlacedField) : List (String × Value α) :=
  valueEntry M f :: extraEntries M o f

section Fields

variable (h : ScriptScope M scope o)

include h

/-- What goes with a field is stored as its unit and the ends of its range. -/
theorem runs_fieldExtras (f : PlacedField) : Runs M scope o hidden ((fieldExtras o f).map Block.simple) [] (extraEntries M o f) := by
  unfold fieldExtras extraEntries
  rw [List.map_append]
  refine Runs.append_of_silent ?_ ?_
  · split
    · split
      · exact runs_textStore h _ _
      · exact Runs.nil
    · exact Runs.nil
  · split
    · split
      · exact (runs_store h .float _ fun _ => yields_single _).cons (runs_store h .float _ fun _ => yields_single _)
      · exact Runs.nil
    · exact Runs.nil

/-- Once a field is read, it is scaled and stored. -/
theorem ScriptScope.runAll_fieldStores {f : PlacedField} (hls : InDecoder M scope hidden ls) (hname : valueName f ∈ hidden)
    (hraw : scope.variable ls (rawName f) = rawValue M f (fieldBytes M 0 f)) (mem : Memory α) :
    ∃ ls' es s, runAll (Block.exec M scope) ((fieldStores o f).map Block.simple) ⟨ls, mem⟩ = some (⟨ls', mem.log es⟩, none) ∧
      ReadsStores es [] [s] ∧ StoresEntry M o hidden s (valueEntry M f) ∧ InDecoder M scope hidden ls' := by
  obtain ⟨t, ht⟩ := exists_number?_cType f.type
  have hnumber : (rawValue M f (fieldBytes M 0 f)).IsNumber := Machine.isNumber_convert ht _
  unfold fieldStores valueEntry storedValue
  dsimp only
  split
  · have hvariable : (Expr.var (rawName f)).eval M scope ls mem = some (rawValue M f (fieldBytes M 0 f), mem) := eval_var hraw
    have hscaled := eval_scaledValue f.attr hnumber hvariable
    have hdefine := exec_define (StoreKind.ofOutput f.attr.outputKind).valueType (valueName f) hscaled
    have hls' := hls.define (valueName_ne f (by decide)) (valueName_ne f (by decide)) hname
      (StoreKind.ofOutput f.attr.outputKind).valueType
      (M.convert (StoreKind.ofOutput f.attr.outputKind).valueType (scaled M f.attr (rawValue M f (fieldBytes M 0 f))))
    obtain ⟨es, s, hstore, hes, hs⟩ := h.exec_store hls' (StoreKind.ofOutput f.attr.outputKind) f.name
      (yields_var (variable_self (valueName f) _ _))
    exact ⟨_, es, s, (runAll_simple hdefine).trans (runAll_simple (hstore mem)), hes, hs, hls'⟩
  · obtain ⟨es, s, hstore, hes, hs⟩ := h.exec_store hls (StoreKind.ofOutput f.attr.outputKind) f.name ((yields_var hraw).cast _)
    exact ⟨ls, es, s, runAll_simple (hstore mem), hes, hs, hls⟩

/-- What is done for a field reads the bytes of the field and stores its entries. -/
theorem runs_fieldBlocks {f : PlacedField} (hraw : rawName f ∈ hidden) (hvalue : valueName f ∈ hidden) (hfit : f.limit ≤ 4294967296)
    (hin : f.limit ≤ M.buffer.length) :
    Runs M scope o hidden (fieldBlocks o f) (List.range' f.offset f.type.width) (fieldEntries M o f) := by
  have hread : Runs M scope o hidden (.simple (fieldRead f) :: (fieldStores o f).map Block.simple) (List.range' f.offset f.type.width)
      [valueEntry M f] := by
    intro ls mem hls
    unfold PlacedField.limit at hfit hin
    have hread := exec_define f.type.cType (rawName f)
      (eval_fieldCall (M := M) (h.fields f.type) hls.buffer hfit (by omega) mem)
    have hls' := hls.define (rawName_ne f (by decide)) (rawName_ne f (by decide)) hraw f.type.cType (rawValue M f (fieldBytes M 0 f))
    obtain ⟨ls₁, es, s, hstores, hes, hs, hls₁⟩ := h.runAll_fieldStores hls' hvalue (variable_self (rawName f) _ _)
      (mem.log (readsFrom (0 + f.offset) f.type.width))
    rw [Memory.log_log] at hstores
    have hevents := (readsStores_readsFrom (0 + f.offset) f.type.width).append hes
    rw [List.append_nil, List.nil_append, Nat.zero_add] at hevents
    exact ⟨ls₁, _, [s], (runAll_simple hread).trans hstores, by rwa [Nat.zero_add], .cons hs .nil, hls₁⟩
  have hall := hread.append ((runs_fieldExtras h f).append runs_blank)
  rwa [← fieldBlocks_eq, List.append_nil, List.append_nil, List.append_nil] at hall

/-- Fields that stand end to end are read one behind the other. -/
theorem runs_fields {fs : List PlacedField} {start stop : Nat} (hchain : PlacedField.Consecutive start stop fs)
    (hnames : ∀ f ∈ fs, rawName f ∈ hidden ∧ valueName f ∈ hidden) (hfit : stop ≤ 4294967296) (hin : stop ≤ M.buffer.length) :
    Runs M scope o hidden (fs.flatMap (fieldBlocks o)) (List.range' start (stop - start)) (fs.flatMap (fieldEntries M o)) := by
  induction fs generalizing start with
  | nil =>
    obtain rfl : start = stop := hchain
    rw [Nat.sub_self]
    exact Runs.nil
  | cons f fs ih =>
    have hbytes := hchain.range'_append 0
    have hlimit := (hchain.bounds List.mem_cons_self).2
    obtain ⟨hraw, hvalue⟩ := hnames f List.mem_cons_self
    have hall := (runs_fieldBlocks h hraw hvalue (f := f) (by omega) (by omega)).append
      (ih hchain.2 fun g hg => hnames g (List.mem_cons_of_mem f hg))
    simp only [Nat.zero_add] at hbytes
    rwa [hbytes] at hall

end Fields

/-! ## Decoders -/

/-- The variables that a script decoder starts with. -/
def scriptLocals (M : Machine α) (timestamp : UInt64) : List (Local α) :=
  [ ⟨"pBuf", .pointer (.const .uint8), .bytes 0⟩, ⟨"bufLen", .uint32, .int .uint32 M.buffer.length⟩,
    ⟨"timestampUs", .uint64, .int .uint64 timestamp.toNat⟩ ]

/-- A decoder is entered with the buffer, its length and the timestamp. -/
theorem locals_scriptDecoderSignature (r : Record) (hbuffer : M.buffer.length < 4294967296) (timestamp : UInt64) :
    (scriptDecoderSignature r).locals M [.bytes 0, .int .uint32 M.buffer.length, .int .uint64 timestamp.toNat] =
      scriptLocals M timestamp := by
  have hlength : M.convert .uint32 (.int .uint32 M.buffer.length) = .int .uint32 M.buffer.length := Machine.convert_uint32 _ hbuffer
  have hbytes : M.convert (.pointer (.const .uint8)) (.bytes 0) = .bytes 0 := rfl
  have htimestamp : M.convert .uint64 (.int .uint64 timestamp.toNat) = .int .uint64 timestamp.toNat := Machine.convert_toNat timestamp
  simp [Signature.locals, scriptDecoderSignature, decoderParams, bufferParam, scriptLocals, hlength, hbytes, htimestamp]

section Decoder

variable {r : Record}

/-- The guard in front of a decoder. -/
theorem test_guard (scope : Scope α) (hfit : r.layout.size < 4294967296) (hbuffer : M.buffer.length < 4294967296) (timestamp : UInt64)
    (mem : Memory α) :
    Frame.test M scope ⟨scriptLocals M timestamp, mem⟩ (.binary .less (.var "bufLen") (.decimal r.layout.size)) =
      some (decide (M.buffer.length < r.layout.size), ⟨scriptLocals M timestamp, mem⟩) := by
  have hlength : (Expr.var "bufLen").eval M scope (scriptLocals M timestamp) mem = some (.int .uint32 M.buffer.length, mem) := eval_var rfl
  have hsize : (Expr.decimal r.layout.size).eval M scope (scriptLocals M timestamp) mem = some (.ofDecimal r.layout.size, mem) :=
    eval_decimal _
  exact test_eq (eval_binary (by decide) hlength hsize (Machine.apply_less_ofDecimal hbuffer hfit)) (Value.truth?_ofBool _)

/-- The names of the variables of a decoder, and of the function that makes its dictionary. -/
def variableNames (r : Record) : List String :=
  ["dict", "result", "pBuf", "bufLen", "timestampUs"] ++ r.layout.fields.flatMap fun f => [rawName f, valueName f]

/-- The entries that a decoder puts into its dictionary. -/
def decoderEntries (M : Machine α) (o : ScriptOptions) (r : Record) (timestamp : UInt64) : List (String × Value α) :=
  timestampEntry M timestamp :: (recordTexts o r).map (textEntry M) ++ r.layout.fields.flatMap (fieldEntries M o)

theorem mem_variableNames {f : PlacedField} (hf : f ∈ r.layout.fields) : rawName f ∈ variableNames r ∧ valueName f ∈ variableNames r := by
  have hmem : ∀ name ∈ [rawName f, valueName f], name ∈ variableNames r := fun name hname =>
    List.mem_append_right _ (List.mem_flatMap.2 ⟨f, hf, hname⟩)
  exact ⟨hmem _ (by simp), hmem _ (by simp)⟩

/-- The dictionary is made, with the timestamp. -/
theorem runAll_result (h : ScriptScope M scope o) (r : Record) (timestamp : UInt64) :
    ∃ ls es s, (∀ mem, (Stmt.define objectType "result" (.call createSignature.name [.var "timestampUs"])).exec M scope
        ⟨scriptLocals M timestamp, mem⟩ = some (⟨ls, mem.log es⟩, none)) ∧ ReadsStores es [] [s] ∧
      StoresEntry M o (variableNames r) s (timestampEntry M timestamp) ∧ InDecoder M scope (variableNames r) ls := by
  obtain ⟨es, s, hrun, hes, hs⟩ := h.create timestamp
  have htime : Yields M scope (scriptLocals M timestamp) (.var "timestampUs") (.int .uint64 timestamp.toNat) := yields_var rfl
  obtain ⟨events, harguments, hevents⟩ := htime.cons yieldsAll_nil
  have hstart : createNames ⊆ variableNames r := by simp [createNames, variableNames]
  have hnames : ∀ l ∈ scriptLocals M timestamp, l.name ∈ variableNames r := by simp [scriptLocals, variableNames]
  have hresult : "result" ∈ variableNames r := by simp [variableNames]
  refine ⟨_, events ++ es, s, fun mem => exec_define objectType "result" (harguments.call hrun mem), hevents.append hes, hs.mono hstart,
    rfl, ?_, List.forall_mem_cons.2 ⟨hresult, hnames⟩⟩
  exact (variable_self "result" _ _).trans (convert_newDictionary M)

/-- A buffer that is long enough is read from its start on, as far as the poll response goes, and what it says is put into the dictionary. -/
theorem meaning_scriptDecoder_enough (h : ScriptScope M scope o) (hchain : PlacedField.Consecutive 0 r.layout.size r.layout.fields)
    (hfit : r.layout.size < 4294967296) (hbuffer : M.buffer.length < 4294967296) (henough : r.layout.size ≤ M.buffer.length)
    (timestamp : UInt64) (mem : Memory α) :
    ∃ es stores, meaning M scope (scriptDecoderSignature r) (scriptDecoderBody o r)
        [.bytes 0, .int .uint32 M.buffer.length, .int .uint64 timestamp.toNat] mem = some (newDictionary M, mem.log es) ∧
      ReadsStores es (List.range r.layout.size) stores ∧
      List.Forall₂ (StoresEntry M o (variableNames r)) stores (decoderEntries M o r timestamp) := by
  have htest := test_guard scope hfit hbuffer timestamp mem
  rw [decide_eq_false (Nat.not_lt.2 henough)] at htest
  have hguard : (Block.choose [(.binary .less (.var "bufLen") (.decimal r.layout.size), [nothing])]).exec M scope
      ⟨scriptLocals M timestamp, mem⟩ = some (⟨scriptLocals M timestamp, mem⟩, none) := runFirst_cons htest
  obtain ⟨ls, first, s, hresult, hfirst, hs, hls⟩ := runAll_result h r timestamp
  have hfields := runs_fields h hchain (fun f hf => mem_variableNames hf) (Nat.le_of_lt hfit) henough
  have hbody := ((runs_textStores h (recordTexts o r)).append runs_blank).append hfields
  simp only [← textStores_eq, List.append_nil, List.nil_append, Nat.sub_zero, ← List.range_eq_range'] at hbody
  obtain ⟨ls', es, stores, hrun, hes, hstores, hls'⟩ := hbody ls (mem.log first) hls
  rw [Memory.log_log] at hrun
  have hwhole : runAll (Block.exec M scope) (scriptDecoderBody o r)
      ⟨(scriptDecoderSignature r).locals M [.bytes 0, .int .uint32 M.buffer.length, .int .uint64 timestamp.toNat], mem⟩ =
        some (⟨ls', mem.log (first ++ es)⟩, some (newDictionary M)) := by
    rw [locals_scriptDecoderSignature r hbuffer]
    -- Guard, blank line, new dictionary, stores and return, one after the other.
    refine (runAll_cons hguard).trans ?_
    refine (runAll_cons rfl).trans ?_
    refine (runAll_simple (hresult mem)).trans ?_
    refine (runAll_append hrun).trans ?_
    exact runAll_ret (eval_var hls'.result)
  refine ⟨first ++ es, s :: stores, ?_, hfirst.append hes, .cons hs hstores⟩
  rw [meaning_eq rfl hwhole]
  exact congrArg (fun v => some (v, mem.log (first ++ es))) (convert_newDictionary M)

/-- A buffer that is too short for a poll response is not read. -/
theorem meaning_scriptDecoder_short (scope : Scope α) (o : ScriptOptions) (hfit : r.layout.size < 4294967296)
    (hbuffer : M.buffer.length < 4294967296) (hshort : M.buffer.length < r.layout.size) (timestamp : UInt64) (mem : Memory α) :
    ∃ v, meaning M scope (scriptDecoderSignature r) (scriptDecoderBody o r)
      [.bytes 0, .int .uint32 M.buffer.length, .int .uint64 timestamp.toNat] mem = some (v, mem) := by
  have htest := test_guard scope hfit hbuffer timestamp mem
  rw [decide_eq_true hshort] at htest
  have hreturn : runInside M scope [nothing] ⟨scriptLocals M timestamp, mem⟩ =
      some (⟨scriptLocals M timestamp, mem⟩, some (scope.variable (scriptLocals M timestamp) "mp_const_none")) :=
    runInside_ret (eval_var rfl)
  have hguard : (Block.choose [(.binary .less (.var "bufLen") (.decimal r.layout.size), [nothing])]).exec M scope
      ⟨(scriptDecoderSignature r).locals M [.bytes 0, .int .uint32 M.buffer.length, .int .uint64 timestamp.toNat], mem⟩ =
        some (⟨scriptLocals M timestamp, mem⟩, some (scope.variable (scriptLocals M timestamp) "mp_const_none")) := by
    rw [locals_scriptDecoderSignature r hbuffer]
    exact (runFirst_cons htest).trans hreturn
  exact ⟨_, meaning_eq rfl (runAll_cons_ret hguard)⟩

/-- A script decoder reads all bytes of a poll response once, in order, or nothing if the buffer is too short for one. -/
theorem meaning_scriptDecoder (h : ScriptScope M scope o) (hchain : PlacedField.Consecutive 0 r.layout.size r.layout.fields)
    (hfit : r.layout.size < 4294967296) (hbuffer : M.buffer.length < 4294967296) (timestamp : UInt64) (mem : Memory α) :
    ∃ v es, meaning M scope (scriptDecoderSignature r) (scriptDecoderBody o r)
        [.bytes 0, .int .uint32 M.buffer.length, .int .uint64 timestamp.toNat] mem = some (v, mem.log es) ∧
      es.filterMap Event.read? = if r.layout.size ≤ M.buffer.length then List.range r.layout.size else [] := by
  by_cases henough : r.layout.size ≤ M.buffer.length
  · obtain ⟨es, stores, hrun, hes, -⟩ := meaning_scriptDecoder_enough h hchain hfit hbuffer henough timestamp mem
    exact ⟨_, es, hrun, by rw [hes.reads, if_pos henough]⟩
  · obtain ⟨v, hrun⟩ := meaning_scriptDecoder_short scope o hfit hbuffer (Nat.not_le.1 henough) timestamp mem
    exact ⟨v, [], by rw [hrun, Memory.log_nil], by rw [if_neg henough]; rfl⟩

end Decoder

end DeviceCatalog.Artifact
