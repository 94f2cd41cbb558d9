import DeviceCatalog.Artifact.Extraction
import DeviceCatalog.Artifact.PollRecords
import DeviceCatalog.Artifact.Scaling

/-!
# Script bindings

What a scripting runtime needs to see decoded values: a table of the symbols in use, the declarations of the decoders, and their
sources. Every type name has one decoder, that of the first record whose type name makes its identifier; a record whose identifier
is taken is reported. A decoder builds a dictionary whose keys are symbols, and a dispatch function finds the decoder of a type name.
-/

namespace DeviceCatalog.Artifact

open CSource

/-- The identifier that a record's type name makes. -/
def typeIdentifier (r : Record) : String := CSource.name r.device.typeName

/-- Splits records with a type name into those that get a decoder and those whose identifier is taken; `taken` holds the identifiers
of the records before. -/
def assignDecoders (taken : List String) : List Record → List Record × List Record
  | [] => ([], [])
  | r :: rest =>
    if r.device.typeName.isEmpty then assignDecoders taken rest
    else if taken.contains (typeIdentifier r) then
      let (chosen, skipped) := assignDecoders taken rest
      (chosen, r :: skipped)
    else
      let (chosen, skipped) := assignDecoders (typeIdentifier r :: taken) rest
      (r :: chosen, skipped)

/-- The records of a model, those of them with a decoder, and the options. -/
structure Bindings where
  records : List Record
  decoders : List Record
  options : ScriptOptions

/-- The bindings of a model; every record whose identifier is taken is reported. -/
def Bindings.ofModel (m : Model) (o : ScriptOptions) : Logged Failure Bindings := do
  let (decoders, skipped) := assignDecoders [] m.records
  Logged.notes (skipped.map fun r => .decoderTaken r.device.key r.device.typeName)
  pure ⟨m.records, decoders, o⟩

/-- The texts of a device info, except its name, that decoders store with the values. -/
def metadata (r : Record) : List (String × String) :=
  r.device.deviceInfo.members.filterMap fun (key, value) =>
    if key = "resp" ∨ key = "name" then none
    else (value.string?.filter fun text => !text.isEmpty).map fun text => (key, text)

/-- The name under which the unit of a field is stored. -/
def unitName (f : PlacedField) : String := f.name ++ "_unit"

/-- The name under which the lower end of a field's range is stored. -/
def minName (f : PlacedField) : String := f.name ++ "_min"

/-- The name under which the upper end of a field's range is stored. -/
def maxName (f : PlacedField) : String := f.name ++ "_max"

/-! ## Symbols -/

/-- The names that every module has. -/
def standardNames : List String :=
  ["device", "on_data", "on_status", "get_data", "list", "timestamp", "type", "name", "online"]

/-- The names that a field brings. -/
def fieldNames (o : ScriptOptions) (f : PlacedField) : List String :=
  [f.name] ++ (if o.includeMetadata then [f.attr.outputKind.word] else []) ++
    (if o.includeUnits ∧ f.attr.unit?.isSome then [unitName f] else []) ++
    (if o.includeRanges ∧ f.attr.range.isSome then [minName f, maxName f] else [])

/-- The names that a record brings. -/
def recordNames (o : ScriptOptions) (r : Record) : List String :=
  (if r.device.typeName.isEmpty then [] else [r.device.typeName]) ++
    (match r.device.scanPriority with
    | some (.named word) => [word]
    | _ => []) ++
    (if o.includeMetadata then (metadata r).map Prod.fst else []) ++ r.layout.fields.flatMap (fieldNames o)

/-- Every name that the bindings refer to. -/
def Bindings.names (b : Bindings) : List String :=
  standardNames ++ [b.options.moduleName] ++ b.records.flatMap (recordNames b.options)

/-- A text put into a rising list of texts, unless it is there. -/
def insertRising (s : String) : List String → List String
  | [] => [s]
  | t :: ts => if s < t then s :: t :: ts else if s = t then t :: ts else t :: insertRising s ts

/-- The texts in rising order, each once. -/
def rising (xs : List String) : List String :=
  xs.foldr insertRising []

/-- The identifiers of the names, in rising order, each once and none empty. -/
def Bindings.symbols (b : Bindings) : List String :=
  rising ((b.names.map CSource.name).filter fun s => !s.isEmpty)

/-- The symbol table. -/
def Bindings.symbolTable (b : Bindings) : List Item :=
  [.comment ("Symbols of the " ++ b.options.moduleName ++ " module"), generatedNote, .blank] ++
    b.symbols.map Item.symbol

/-! ## Declarations -/

/-- The type of an object of the runtime. -/
def objectType : CType := .named "mp_obj_t"

/-- The parameters of every decoder. -/
def decoderParams : List Param :=
  [bufferParam, ⟨.uint32, "bufLen"⟩, ⟨.uint64, "timestampUs"⟩]

/-- The function that decodes for scripts. -/
def scriptDecoderName (r : Record) : String := "mp_decode_" ++ typeIdentifier r

/-- The head of a decoder. -/
def scriptDecoderSignature (r : Record) : Signature where
  result := objectType
  name := scriptDecoderName r
  params := [decoderParams]

/-- The head of the dispatch function. -/
def dispatchSignature : Signature where
  result := objectType
  name := "mp_decode_device_data"
  params := [⟨.pointer (.const (.named "char")), "deviceType"⟩ :: decoderParams]

/-- The head of the function that makes a dictionary with a timestamp. -/
def createSignature : Signature where
  result := objectType
  name := "mp_create_device_dict_with_timestamp"
  params := [[⟨.uint64, "timestampUs"⟩]]

/-- The kinds of values that a dictionary stores. -/
inductive StoreKind where
  | float
  | int
  | str

/-- Every kind, in the order in which the functions are emitted. -/
def StoreKind.all : List StoreKind := [.float, .int, .str]

/-- The function that stores a value of a kind. -/
def StoreKind.function : StoreKind → String
  | .float => "mp_dict_store_float"
  | .int => "mp_dict_store_int"
  | .str => "mp_dict_store_str"

/-- The C type of the values of a kind. -/
def StoreKind.valueType : StoreKind → CType
  | .float => .float
  | .int => .int
  | .str => .pointer (.const (.named "char"))

/-- The object made of a value of a kind. -/
def StoreKind.object : StoreKind → Expr
  | .float => .call "mp_obj_new_float" [.var "value"]
  | .int => .call "mp_obj_new_int" [.var "value"]
  | .str => .call "mp_obj_new_str" [.var "value", .call "strlen" [.var "value"]]

/-- The kind in which a field is stored. -/
def StoreKind.ofOutput : OutputKind → StoreKind
  | .int => .int
  | .float => .float

/-- The head of the function that stores a value of a kind. -/
def StoreKind.signature (k : StoreKind) : Signature where
  result := .named "void"
  name := k.function
  params := [[⟨objectType, "dict"⟩, ⟨.named "qstr", "key_qstr"⟩, ⟨k.valueType, "value"⟩]]

/-- The comment in front of a decoder. -/
def decoderComment (r : Record) : Item := .comment ("Decoder for " ++ r.device.typeName)

/-- The comment in front of the dispatch function. -/
def dispatchComment : Item := .comment "Device decoder lookup"

/-- The declarations of the decoders and of the functions that they use. -/
def Bindings.decoderHeader (b : Bindings) : List Item :=
  [.pragmaOnce, .includeLocal "py/obj.h", .blank, generatedNote, .blank] ++
    (b.decoders.flatMap fun r => [decoderComment r, .prototype (scriptDecoderSignature r), .blank]) ++
    [ dispatchComment, .prototype dispatchSignature, .blank, .comment "Utility functions",
      .prototype createSignature ] ++
    StoreKind.all.map fun k => .prototype k.signature

/-! ## Sources -/

/-- What the names of the script helpers start with. -/
def scriptHelper : String := "mp_get_"

/-- The answer of a decoder that has nothing to say. -/
def nothing : Stmt := .ret (.var "mp_const_none")

/-- A value stored in the result of a decoder under a symbol. -/
def store (o : ScriptOptions) (kind : StoreKind) (name : String) (value : Expr) : Stmt :=
  .run (.call kind.function [.var "result", .var (o.symbol name), value])

/-- An object stored in a dictionary under a symbol. -/
def storeObject (symbol : String) (value : Expr) : Stmt :=
  .run (.call "mp_obj_dict_store" [.var "dict", .call "MP_OBJ_NEW_QSTR" [.var symbol], value])

/-- The functions that make and fill dictionaries. -/
def dictionaryItems (o : ScriptOptions) : List Item :=
  [ .function .sameLine createSignature
      [ .simple (.define objectType "dict" (.call "mp_obj_new_dict" [.decimal 8])),
        .simple (storeObject (o.symbol "timestamp") (.call "mp_obj_new_int_from_ull" [.var "timestampUs"])),
        .simple (.ret (.var "dict")) ],
    .blank ] ++
    StoreKind.all.flatMap fun k =>
      [.function .sameLine k.signature [.simple (storeObject "key_qstr" k.object)], .blank]

/-- What a decoder does for a field: read it, scale it, store it, and store its unit and its range when they are wanted. -/
def fieldBlocks (o : ScriptOptions) (f : PlacedField) : List Block :=
  let ident := CSource.name f.name
  let raw := Expr.var (ident ++ "_raw")
  let kind := StoreKind.ofOutput f.attr.outputKind
  let read := Stmt.define f.type.cType (ident ++ "_raw")
    (.call (scriptHelper ++ f.type.extractor) [.var "pBuf", .decimal f.offset])
  let value :=
    if f.attr.isScaled then
      [ .define kind.valueType (ident ++ "_value") (scaledValue f.attr raw),
        store o kind f.name (.var (ident ++ "_value")) ]
    else [store o kind f.name (.cast kind.valueType raw)]
  let unit :=
    match f.attr.unit? with
    | some u => if o.includeUnits then [store o .str (unitName f) (.string u)] else []
    | none => []
  let range :=
    match f.attr.range with
    | some (low, high) =>
      if o.includeRanges then
        [store o .float (minName f) (.single low), store o .float (maxName f) (.single high)]
      else []
    | none => []
  (read :: value ++ unit ++ range).map Block.simple ++ [.blank]

/-- The texts that a decoder stores: the type, the name and the metadata. -/
def textStores (o : ScriptOptions) (r : Record) : List Stmt :=
  [ store o .str "type" (.string r.device.typeName),
    store o .str "name" (.string (r.device.displayName.getD r.device.typeName)) ] ++
    (if o.includeMetadata then (metadata r).map fun (key, text) => store o .str key (.string text) else [])

/-- The body of a decoder. A buffer that is too short gives nothing. -/
def scriptDecoderBody (o : ScriptOptions) (r : Record) : List Block :=
  [ .choose [(.binary .less (.var "bufLen") (.decimal r.layout.size), [nothing])],
    .blank,
    .simple (.define objectType "result" (.call createSignature.name [.var "timestampUs"])) ] ++
    (textStores o r).map Block.simple ++ [.blank] ++ r.layout.fields.flatMap (fieldBlocks o) ++
    [.simple (.ret (.var "result"))]

/-- A decoder with its comment and the blank line behind it. -/
def scriptDecoderItems (o : ScriptOptions) (r : Record) : List Item :=
  [decoderComment r, .function .sameLine (scriptDecoderSignature r) (scriptDecoderBody o r), .blank]

/-- The branch of the dispatch function that finds a decoder. -/
def dispatchBranch (r : Record) : Expr × List Stmt :=
  (.binary .equal (.call "strcmp" [.var "deviceType", .string r.device.typeName]) (.decimal 0),
    [.ret (.call (scriptDecoderName r) [.var "pBuf", .var "bufLen", .var "timestampUs"])])

/-- The dispatch function: the first branch whose type name is the wanted one. -/
def dispatchItems (decoders : List Record) : List Item :=
  [ dispatchComment,
    .function .sameLine dispatchSignature
      [ .choose [(.binary .either (.not (.var "deviceType")) (.not (.var "pBuf")), [nothing])],
        .blank,
        .choose (decoders.map dispatchBranch),
        .blank,
        .simple nothing ] ]

/-- The sources of the decoders. -/
def Bindings.decoderSource (b : Bindings) (headerName pollRecordsName : String) : List Item :=
  [ .includeLocal headerName, .includeLocal pollRecordsName, .includeLocal "py/runtime.h",
    .includeLocal "py/objstr.h", .includeSystem "string.h", .blank, generatedNote, .blank ] ++
    helpers scriptHelper ++ dictionaryItems b.options ++ b.decoders.flatMap (scriptDecoderItems b.options) ++
    dispatchItems b.decoders

end DeviceCatalog.Artifact
