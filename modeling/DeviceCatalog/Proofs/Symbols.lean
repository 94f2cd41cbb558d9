import DeviceCatalog.CSource.Call
import DeviceCatalog.Proofs.Identifiers
import DeviceCatalog.Proofs.ScriptFile

/-!
# Symbols of the script bindings

The symbols are the identifiers of all names in use, in rising order of their bytes. The keys of the decoder sources are the arguments that
are passed where a symbol is wanted; each of them is the stem of the options with a symbol behind it, or the stem alone for an empty name.
-/

namespace DeviceCatalog.Artifact

open CSource

/-! ## Rising lists -/

/-- A list with a name put in holds that name and what it held. -/
theorem mem_insertRising {s t : String} {ts : List String} : t ∈ insertRising s ts ↔ t = s ∨ t ∈ ts := by
  induction ts with
  | nil => simp [insertRising]
  | cons u us ih =>
    rw [insertRising]
    split
    · exact List.mem_cons
    · split
      · rename_i heq
        rw [heq, List.mem_cons]
        tauto
      · rw [List.mem_cons, ih, List.mem_cons]
        tauto

/-- A name put in keeps the list strictly rising. -/
theorem pairwise_insertRising {s : String} {ts : List String} (h : ts.Pairwise (· < ·)) : (insertRising s ts).Pairwise (· < ·) := by
  induction ts with
  | nil => exact List.pairwise_singleton _ _
  | cons u us ih =>
    obtain ⟨hu, hus⟩ := List.pairwise_cons.1 h
    rw [insertRising]
    split
    · rename_i hlt
      refine List.pairwise_cons.2 ⟨fun t ht => ?_, h⟩
      rcases List.mem_cons.1 ht with rfl | ht
      · exact hlt
      · exact String.lt_trans hlt (hu t ht)
    · rename_i hlt
      split
      · exact h
      · rename_i hne
        refine List.pairwise_cons.2 ⟨fun t ht => ?_, ih hus⟩
        rcases mem_insertRising.1 ht with rfl | ht
        · exact String.not_le.1 fun hle => hne (String.le_antisymm hle (String.not_lt.1 hlt))
        · exact hu t ht

/-- A rising list has the texts that it was made of. -/
theorem mem_rising {xs : List String} {t : String} : t ∈ rising xs ↔ t ∈ xs := by
  unfold rising
  induction xs with
  | nil => exact Iff.rfl
  | cons x xs ih => rw [List.foldr_cons, mem_insertRising, ih, List.mem_cons]

theorem pairwise_rising (xs : List String) : (rising xs).Pairwise (· < ·) := by
  unfold rising
  induction xs with
  | nil => exact .nil
  | cons x xs ih => exact pairwise_insertRising ih

/-! ## Keys -/

/-- The type of a symbol. -/
def symbolType : CType := .named "qstr"

/-- The place of the argument that is a symbol, if a function takes one: the first one when it makes an object of a symbol, and the one that
its head says when it stores a value. -/
def symbolPlace? (function : String) : Option Nat :=
  if function = "MP_OBJ_NEW_QSTR" then some 0
  else (StoreKind.all.find? fun k => k.function == function).bind fun k =>
    k.signature.params.flatten.findIdx? fun p => p.type == symbolType

/-- The symbol that is passed to a function. -/
def key? (c : Call) : Option Expr :=
  (symbolPlace? c.1).bind fun i => c.2[i]?

/-- The symbol is a parameter, which is passed on. -/
def isPassedOn (s : Signature) : Expr → Bool
  | .var x => s.params.flatten.any fun p => p.type == symbolType && p.name == x
  | _ => false

/-- The symbols that are passed in a body. -/
def bodyKeys (body : List Block) : List Expr := (body.flatMap Block.calls).filterMap key?

/-- The symbols that the functions of a file name themselves. -/
def keys (items : List Item) : List Expr :=
  items.flatMap fun item =>
    match item with
    | .function _ s body => (bodyKeys body).filter fun e => !isPassedOn s e
    | _ => []

/-- The names under which a decoder stores a field. -/
def fieldKeys (o : ScriptOptions) (f : PlacedField) : List String :=
  [f.name] ++ (if o.includeUnits ∧ f.attr.unit?.isSome then [unitName f] else []) ++
    (if o.includeRanges ∧ f.attr.range.isSome then [minName f, maxName f] else [])

/-- The names under which a decoder stores what it knows. -/
def decoderKeys (o : ScriptOptions) (r : Record) : List String :=
  ["type", "name"] ++ (if o.includeMetadata then (metadata r).map Prod.fst else []) ++ r.layout.fields.flatMap (fieldKeys o)

/-- The names under which the decoders of some bindings store anything. -/
def Bindings.keyNames (b : Bindings) : List String :=
  "timestamp" :: b.decoders.flatMap (decoderKeys b.options)

/-- The functions that store an entry take the key as their second argument. -/
theorem symbolPlace?_function (k : StoreKind) : symbolPlace? k.function = some 1 := by
  cases k <;> rfl

/-- A function that makes no object of a symbol and stores no value takes no symbol. -/
theorem symbolPlace?_eq_none {f : String} (hf : f ≠ "MP_OBJ_NEW_QSTR") (hk : ∀ k : StoreKind, f ≠ k.function) : symbolPlace? f = none := by
  have hfind : (StoreKind.all.find? fun k => k.function == f) = none := by
    rw [List.find?_eq_none]
    intro k _ heq
    exact hk k (eq_of_beq heq).symm
  rw [symbolPlace?, if_neg hf, hfind]
  rfl

theorem symbolPlace?_helper (t : FieldType) : symbolPlace? (scriptHelper ++ t.extractor) = none := by
  have hall : ∀ t ∈ FieldType.all, symbolPlace? (scriptHelper ++ t.extractor) = none := by decide
  exact hall t t.mem_all

theorem symbolPlace?_scriptDecoderName (r : Record) : symbolPlace? (scriptDecoderName r) = none := by
  refine symbolPlace?_eq_none ?_ fun k => scriptDecoderName_ne ?_
  · intro h
    have hstart := congrArg (fun s : String => s.toList.take 2) h
    rw [scriptDecoderName, String.toList_append, List.take_append_of_le_length (by decide)] at hstart
    exact absurd hstart (by decide)
  · cases k <;> decide

theorem keys_append (xs ys : List Item) : keys (xs ++ ys) = keys xs ++ keys ys := List.flatMap_append

theorem bodyKeys_append (xs ys : List Block) : bodyKeys (xs ++ ys) = bodyKeys xs ++ bodyKeys ys := by
  rw [bodyKeys, List.flatMap_append, List.filterMap_append, bodyKeys, bodyKeys]

theorem bodyKeys_cons (b : Block) (body : List Block) : bodyKeys (b :: body) = b.calls.filterMap key? ++ bodyKeys body := by
  rw [bodyKeys, List.flatMap_cons, List.filterMap_append, bodyKeys]

/-- A store names the symbol that it stores under. -/
theorem keys_store (o : ScriptOptions) (k : StoreKind) (name : String) {value : Expr} (hvalue : value.calls = []) :
    (store o k name value).calls.filterMap key? = [.var (o.symbol name)] := by
  have hkey : key? (k.function, [.var "result", .var (o.symbol name), value]) = some (.var (o.symbol name)) := by
    rw [key?, symbolPlace?_function]
    rfl
  simp only [store, Stmt.calls, Expr.calls, Expr.callsOfAll, hvalue, List.append_nil, List.filterMap_cons_some hkey, List.filterMap_nil]

/-- A statement that stores an entry has its key, and none in its value. -/
theorem bodyKeys_store (o : ScriptOptions) (k : StoreKind) (name : String) {value : Expr} (hvalue : value.calls = []) (body : List Block) :
    bodyKeys (.simple (store o k name value) :: body) = .var (o.symbol name) :: bodyKeys body := by
  rw [bodyKeys_cons, Block.calls, keys_store o k name hvalue, List.singleton_append]

theorem bodyKeys_skip {s : Stmt} (h : s.calls.filterMap key? = []) (body : List Block) : bodyKeys (.simple s :: body) = bodyKeys body := by
  rw [bodyKeys_cons, Block.calls, h, List.nil_append]

theorem calls_scaleLiteral (kind : OutputKind) (x : Binary64) : (scaleLiteral kind x).calls = [] := by
  cases kind with
  | float => rfl
  | int =>
    show (Expr.number x).calls = []
    unfold Expr.number
    split
    · split <;> rfl
    · rfl

theorem calls_scaledValue (a : Attribute) (name : String) : (scaledValue a (.var name)).calls = [] := by
  unfold scaledValue
  split
  · simp only
    split
    · simp only [Expr.calls, calls_scaleLiteral, List.append_nil]
    · split <;> simp only [Expr.calls, calls_scaleLiteral, List.append_nil]
  · split <;> rfl

/-! ## Keys of the decoder sources -/

/-- Storing the value of a field takes the key of the field. -/
theorem bodyKeys_fieldStores (o : ScriptOptions) (f : PlacedField) :
    bodyKeys ((fieldStores o f).map Block.simple) = [.var (o.symbol f.name)] := by
  unfold fieldStores
  simp only
  split
  · rw [List.map_cons, bodyKeys_skip (by rw [Stmt.calls, calls_scaledValue]; rfl), List.map_singleton, bodyKeys_store o _ _ rfl]
    rfl
  · rw [List.map_singleton, bodyKeys_store o _ _ rfl]
    rfl

/-- What is stored besides the value of a field has keys of its own: for the unit and for the ends of the range. -/
theorem bodyKeys_fieldExtras (o : ScriptOptions) (f : PlacedField) :
    bodyKeys ((fieldExtras o f).map Block.simple) =
      ((if o.includeUnits ∧ f.attr.unit?.isSome then [unitName f] else []) ++
        (if o.includeRanges ∧ f.attr.range.isSome then [minName f, maxName f] else [])).map fun n => .var (o.symbol n) := by
  unfold fieldExtras
  rw [List.map_append, bodyKeys_append, List.map_append]
  congr 1
  · cases f.attr.unit? with
    | none => simp [bodyKeys]
    | some u =>
      cases o.includeUnits with
      | false => simp [bodyKeys]
      | true =>
        have hunit : (Expr.string u).calls = [] := rfl
        simp only [if_true, List.map_singleton, Option.isSome_some, and_self, bodyKeys_store o .str (unitName f) hunit]
        rfl
  · cases f.attr.range with
    | none => simp [bodyKeys]
    | some bounds =>
      cases o.includeRanges with
      | false => simp [bodyKeys]
      | true =>
        have hlow : (Expr.single bounds.1).calls = [] := rfl
        have hhigh : (Expr.single bounds.2).calls = [] := rfl
        simp only [if_true, List.map_cons, List.map_nil, Option.isSome_some, and_self, bodyKeys_store o .float (minName f) hlow,
          bodyKeys_store o .float (maxName f) hhigh]
        rfl

/-- The keys that the blocks of a field take are those of the field, in order. -/
theorem bodyKeys_fieldBlocks (o : ScriptOptions) (f : PlacedField) :
    bodyKeys (fieldBlocks o f) = (fieldKeys o f).map fun n => .var (o.symbol n) := by
  have hread : (fieldRead f).calls.filterMap key? = [] := by
    have hkey : key? (scriptHelper ++ f.type.extractor, [.var "pBuf", .decimal f.offset]) = none := by
      rw [key?, symbolPlace?_helper]
      rfl
    simp only [fieldRead, Stmt.calls, Expr.calls, Expr.callsOfAll, List.append_nil, List.filterMap_cons_none hkey, List.filterMap_nil]
  have hblank : bodyKeys [.blank] = [] := rfl
  rw [fieldBlocks_eq, List.cons_append, bodyKeys_skip hread, bodyKeys_append, bodyKeys_append, bodyKeys_fieldStores, bodyKeys_fieldExtras,
    hblank, List.append_nil]
  simp only [fieldKeys, List.append_assoc, List.map_append, List.map_singleton]

/-- The texts that are stored have the keys of type and name, and those of the metadata if it is included. -/
theorem bodyKeys_textStores (o : ScriptOptions) (r : Record) :
    bodyKeys ((textStores o r).map Block.simple) =
      (["type", "name"] ++ (if o.includeMetadata then (metadata r).map Prod.fst else [])).map fun n => .var (o.symbol n) := by
  have htype : (Expr.string r.device.typeName).calls = [] := rfl
  have hname : (Expr.string (r.device.displayName.getD r.device.typeName)).calls = [] := rfl
  have hmetadata : ∀ members : List (String × String),
      bodyKeys ((members.map fun x => store o .str x.1 (.string x.2)).map Block.simple) =
        (members.map Prod.fst).map fun n => .var (o.symbol n) := by
    intro members
    induction members with
    | nil => rfl
    | cons x members ih =>
      obtain ⟨key, text⟩ := x
      have htext : (Expr.string text).calls = [] := rfl
      rw [List.map_cons, List.map_cons, bodyKeys_store o .str key htext, ih]
      rfl
  unfold textStores
  rw [List.cons_append, List.cons_append, List.nil_append, List.map_cons, List.map_cons, bodyKeys_store o .str "type" htype,
    bodyKeys_store o .str "name" hname]
  cases o.includeMetadata with
  | false => rfl
  | true => exact congrArg (fun es => Expr.var (o.symbol "type") :: .var (o.symbol "name") :: es) (hmetadata (metadata r))

/-- The keys that the body of a decoder takes are those of its record, in order. -/
theorem bodyKeys_scriptDecoderBody (o : ScriptOptions) (r : Record) :
    bodyKeys (scriptDecoderBody o r) = (decoderKeys o r).map fun n => .var (o.symbol n) := by
  have hstart : bodyKeys
      [ .choose [(.binary .less (.var "bufLen") (.decimal r.layout.size), [nothing])], .blank,
        .simple (.define objectType "result" (.call createSignature.name [.var "timestampUs"])) ] = [] := rfl
  have hblank : bodyKeys [.blank] = [] := rfl
  have hend : bodyKeys [.simple (.ret (.var "result"))] = [] := rfl
  have hfields : ∀ fs : List PlacedField, bodyKeys (fs.flatMap (fieldBlocks o)) = (fs.flatMap (fieldKeys o)).map fun n => .var (o.symbol n) := by
    intro fs
    induction fs with
    | nil => rfl
    | cons f fs ih => rw [List.flatMap_cons, bodyKeys_append, bodyKeys_fieldBlocks, ih, List.flatMap_cons, List.map_append]
  unfold scriptDecoderBody decoderKeys
  rw [bodyKeys_append, bodyKeys_append, bodyKeys_append, bodyKeys_append, hstart, hblank, hend, bodyKeys_textStores, hfields,
    List.nil_append, List.append_nil, List.append_nil, ← List.map_append]

/-- Nothing is passed on in a decoder. -/
theorem isPassedOn_scriptDecoderSignature (r : Record) (e : Expr) : isPassedOn (scriptDecoderSignature r) e = false := by
  cases e <;> rfl

theorem keys_scriptDecoderItems (o : ScriptOptions) (r : Record) :
    keys (scriptDecoderItems o r) = (decoderKeys o r).map fun n => .var (o.symbol n) := by
  have hkeys : keys (scriptDecoderItems o r) =
      (bodyKeys (scriptDecoderBody o r)).filter (fun e => !isPassedOn (scriptDecoderSignature r) e) ++ [] := rfl
  rw [hkeys, List.append_nil, bodyKeys_scriptDecoderBody]
  exact List.filter_eq_self.2 fun e _ => by rw [isPassedOn_scriptDecoderSignature]; rfl

theorem keys_helpers : keys (helpers scriptHelper) = [] := by
  have hhelper : ∀ t, keys [helper scriptHelper t, .blank] = [] := by
    intro t
    rcases t with _ | _ | order | order | order | order | order <;> (try cases order) <;> rfl
  unfold helpers
  induction FieldType.all with
  | nil => rfl
  | cons t ts ih => rw [List.flatMap_cons, keys_append, hhelper, ih, List.append_nil]

/-- The function that makes a dictionary takes the key of the timestamp. -/
theorem keys_dictionaryItems (o : ScriptOptions) : keys (dictionaryItems o) = [.var (o.symbol "timestamp")] := by
  have hstores : keys (StoreKind.all.flatMap fun k => [.function .sameLine k.signature [.simple (storeObject "key_qstr" k.object)], .blank]) = [] :=
    rfl
  rw [dictionaryItems, keys_append, hstores, List.append_nil]
  rfl

theorem keys_dispatchItems (decoders : List Record) : keys (dispatchItems decoders) = [] := by
  have hbranch : ∀ r, ((dispatchBranch r).1.calls ++ (dispatchBranch r).2.flatMap Stmt.calls).filterMap key? = [] := by
    intro r
    have hcompare : key? ("strcmp", [.var "deviceType", .string r.device.typeName]) = none := rfl
    have hdecode : key? (scriptDecoderName r, [.var "pBuf", .var "bufLen", .var "timestampUs"]) = none := by
      rw [key?, symbolPlace?_scriptDecoderName]
      rfl
    simp only [dispatchBranch, Expr.calls, Expr.callsOfAll, Stmt.calls, List.flatMap_cons, List.flatMap_nil, List.append_nil, List.nil_append,
      List.filterMap_cons_none hcompare, List.filterMap_cons_none hdecode, List.cons_append, List.filterMap_nil]
  have hbranches : bodyKeys [.choose (decoders.map dispatchBranch)] = [] := by
    rw [bodyKeys_cons, Block.calls, List.flatMap_map]
    induction decoders with
    | nil => rfl
    | cons r decoders ih => rw [List.flatMap_cons, List.filterMap_append, hbranch, List.nil_append, ih]
  have hbody : bodyKeys
      ([ .choose [(.binary .either (.not (.var "deviceType")) (.not (.var "pBuf")), [nothing])], .blank ] ++
        ([.choose (decoders.map dispatchBranch)] ++ [.blank, .simple nothing])) = [] := by
    rw [bodyKeys_append, bodyKeys_append, hbranches]
    rfl
  have hkeys : keys (dispatchItems decoders) = (bodyKeys
      ([ .choose [(.binary .either (.not (.var "deviceType")) (.not (.var "pBuf")), [nothing])], .blank ] ++
        ([.choose (decoders.map dispatchBranch)] ++ [.blank, .simple nothing]))).filter (fun e => !isPassedOn dispatchSignature e) ++ [] := rfl
  rw [hkeys, hbody]
  rfl

/-- The keys of the decoder sources are the symbols of the names that the decoders store under. -/
theorem keys_decoderSource (b : Bindings) (headerName pollRecordsName : String) :
    keys (b.decoderSource headerName pollRecordsName) = b.keyNames.map fun n => .var (b.options.symbol n) := by
  have hfront : keys [ .includeLocal headerName, .includeLocal pollRecordsName, .includeLocal "py/runtime.h", .includeLocal "py/objstr.h",
      .includeSystem "string.h", .blank, generatedNote, .blank ] = [] := rfl
  have hdecoders : ∀ rs : List Record, keys (rs.flatMap (scriptDecoderItems b.options)) =
      (rs.flatMap (decoderKeys b.options)).map fun n => .var (b.options.symbol n) := by
    intro rs
    induction rs with
    | nil => rfl
    | cons r rs ih => rw [List.flatMap_cons, keys_append, keys_scriptDecoderItems, ih, List.flatMap_cons, List.map_append]
  unfold Bindings.decoderSource Bindings.keyNames
  rw [keys_append, keys_append, keys_append, keys_append, hfront, keys_helpers, keys_dictionaryItems, hdecoders, keys_dispatchItems,
    List.append_nil, List.nil_append, List.nil_append]
  rfl

/-! ## Every key is a symbol -/

/-- The symbols are the identifiers of the names in use, as far as they are not empty. -/
theorem mem_symbols {b : Bindings} {s : String} : s ∈ b.symbols ↔ s ≠ "" ∧ ∃ n ∈ b.names, CSource.name n = s := by
  rw [Bindings.symbols, mem_rising, List.mem_filter, List.mem_map, and_comm]
  simp

/-- The keys of a field are among its names. -/
theorem fieldKeys_subset (o : ScriptOptions) (f : PlacedField) : fieldKeys o f ⊆ fieldNames o f := by
  unfold fieldKeys fieldNames
  intro n hn
  simp only [List.mem_append] at hn ⊢
  tauto

/-- A key of a decoder is one that every dictionary has or one of its record. -/
theorem decoderKeys_subset (o : ScriptOptions) (r : Record) {n : String} (hn : n ∈ decoderKeys o r) :
    n ∈ standardNames ∨ n ∈ recordNames o r := by
  unfold decoderKeys at hn
  unfold recordNames
  simp only [List.mem_append] at hn ⊢
  rcases hn with (hn | hn) | hn
  · have hstandard : ∀ n ∈ ["type", "name"], n ∈ standardNames := by decide
    exact Or.inl (hstandard n hn)
  · exact Or.inr (Or.inl (Or.inr hn))
  · obtain ⟨f, hf, hn⟩ := List.mem_flatMap.1 hn
    exact Or.inr (Or.inr (List.mem_flatMap.2 ⟨f, hf, fieldKeys_subset o f hn⟩))

/-- Every name that a decoder stores under is a name of the bindings, when the decoders are those of some of the records. -/
theorem keyNames_subset {b : Bindings} (h : ∀ r ∈ b.decoders, r ∈ b.records) : b.keyNames ⊆ b.names := by
  intro n hn
  unfold Bindings.names
  simp only [List.mem_append]
  rcases List.mem_cons.1 hn with rfl | hn
  · exact Or.inl (Or.inl (by decide))
  · obtain ⟨r, hr, hn⟩ := List.mem_flatMap.1 hn
    rcases decoderKeys_subset b.options r hn with hn | hn
    · exact Or.inl (Or.inl hn)
    · exact Or.inr (List.mem_flatMap.2 ⟨r, h r hr, hn⟩)

/-- Below its comments the table has one line for each symbol. -/
theorem text_symbolTable (b : Bindings) :
    fileText b.symbolTable = "// Symbols of the " ++ b.options.moduleName ++ " module\n" ++ generatedNote.text ++ "\n" ++
      String.join (b.symbols.map fun s => "Q(" ++ s ++ ")\n") := by
  have hsymbol : Item.text ∘ Item.symbol = fun s => "Q(" ++ s ++ ")\n" := by
    funext s
    simp [Item.text, line, String.append_assoc]
  have hcomment : Item.text (.comment ("Symbols of the " ++ b.options.moduleName ++ " module")) =
      "// Symbols of the " ++ b.options.moduleName ++ " module\n" := by
    have hstart : "// " ++ "Symbols of the " = "// Symbols of the " := rfl
    have hend : " module" ++ "\n" = " module\n" := rfl
    rw [Item.text, line, ← String.append_assoc, ← String.append_assoc, hstart, String.append_assoc, hend]
  have hblank : Item.text .blank = "\n" := rfl
  unfold fileText Bindings.symbolTable
  rw [List.cons_append, List.cons_append, List.cons_append, List.nil_append, List.map_cons, List.map_cons, List.map_cons, List.map_map,
    hsymbol, String.join_cons, String.join_cons, String.join_cons, hcomment, hblank]
  simp only [String.append_assoc]

/-- Every symbol that the decoder sources name is the stem with a symbol of the table behind it, or the stem alone for an empty name. The
symbols are identifiers in strictly rising byte order, and below its comments the table has one line for each of them in this order. -/
theorem keys_are_symbols (m : Model) (o : ScriptOptions) :
    ∃ b, (Bindings.ofModel m o).outcome = .ok b ∧
      (∀ headerName pollRecordsName,
        keys (b.decoderSource headerName pollRecordsName) = b.keyNames.map (fun n => .var (o.symbol n)) ∧
          ∀ e ∈ keys (b.decoderSource headerName pollRecordsName), ∃ s, e = .var (o.symbolStem ++ s) ∧ (s = "" ∨ s ∈ b.symbols)) ∧
      b.symbols.Pairwise Text.BytesBelow ∧ (∀ s ∈ b.symbols, IsIdentifier s) ∧
      fileText b.symbolTable = "// Symbols of the " ++ o.moduleName ++ " module\n" ++ generatedNote.text ++ "\n" ++
        String.join (b.symbols.map fun s => "Q(" ++ s ++ ")\n") := by
  obtain ⟨b, hb⟩ : ∃ b, (Bindings.ofModel m o).outcome = .ok b := ⟨_, rfl⟩
  have hdecoders : ∀ r ∈ b.decoders, r ∈ b.records := by
    rw [eq_of_outcome_ofModel hb]
    exact fun r hr => ((nodup_assignDecoders [] m.records).2 r hr).1
  have hoptions : b.options = o := by rw [eq_of_outcome_ofModel hb]
  have hidentifier : ∀ s ∈ b.symbols, IsIdentifier s := by
    intro s hs
    obtain ⟨hne, n, -, rfl⟩ := mem_symbols.1 hs
    exact isIdentifier_name hne
  -- Symbols are ASCII, so their order as characters is their order as bytes.
  have hascii : ∀ s ∈ b.symbols, ∀ c ∈ s.toList, c.val ≤ 127 := by
    intro s hs c hc
    obtain ⟨-, n, -, rfl⟩ := mem_symbols.1 hs
    exact val_le_of_isNameChar (isNameChar_of_mem_name hc)
  refine ⟨b, hb, fun headerName pollRecordsName => ?_, ?_, hidentifier, ?_⟩
  · have hkeys := keys_decoderSource b headerName pollRecordsName
    rw [hoptions] at hkeys
    refine ⟨hkeys, fun e he => ?_⟩
    rw [hkeys] at he
    obtain ⟨n, hn, rfl⟩ := List.mem_map.1 he
    refine ⟨CSource.name n, rfl, ?_⟩
    by_cases hempty : CSource.name n = ""
    · exact Or.inl hempty
    · exact Or.inr (mem_symbols.2 ⟨hempty, n, keyNames_subset hdecoders hn, rfl⟩)
  · exact (pairwise_rising _).imp_of_mem fun hs ht hlt => Text.bytesBelow_of_lt hlt (hascii _ hs) (hascii _ ht)
  · rw [text_symbolTable, hoptions]

end DeviceCatalog.Artifact
