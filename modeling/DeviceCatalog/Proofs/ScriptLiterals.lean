import DeviceCatalog.Proofs.Dispatch
import DeviceCatalog.Proofs.StringLiterals

/-!
# String literals of the script bindings

The texts of a catalog that the sources of the script decoders hold as string literals: the texts of a record and the units of its fields in
its decoder, the type names in the dispatch function. None of them ends its literal or its line, so the code around a literal does not depend
on the text inside (`literals_close_in_place`). A decoder also holds the stem of the symbols, which is not from a catalog and stands as it is.
-/

namespace DeviceCatalog.Artifact

open CSource

variable {o : ScriptOptions}

/-! ## Texts of a decoder -/

/-- The texts that a decoder stores for a field: its unit, if units are wanted. -/
def unitTexts (o : ScriptOptions) (f : PlacedField) : List (String × String) :=
  match f.attr.unit? with
  | some u => if o.includeUnits then [(unitName f, u)] else []
  | none => []

/-- The texts that a decoder stores, each under its name, in the order of its statements. -/
def storedTexts (o : ScriptOptions) (r : Record) : List (String × String) :=
  recordTexts o r ++ r.layout.fields.flatMap (unitTexts o)

/-- Every text of a decoder is stored by a statement of its own. -/
theorem store_mem_scriptDecoderBody {r : Record} {x : String × String} (h : x ∈ storedTexts o r) :
    .simple (store o .str x.1 (.string x.2)) ∈ scriptDecoderBody o r := by
  unfold scriptDecoderBody
  rcases List.mem_append.1 h with htext | hunit
  · have hstore : store o .str x.1 (.string x.2) ∈ textStores o r := by
      rw [textStores_eq]
      exact List.mem_map_of_mem htext
    simp only [List.mem_append]
    exact Or.inl (Or.inl (Or.inl (Or.inr (List.mem_map_of_mem hstore))))
  · obtain ⟨f, hf, hx⟩ := List.mem_flatMap.1 hunit
    have hstore : store o .str x.1 (.string x.2) ∈ fieldExtras o f := by
      cases hu : f.attr.unit? with
      | none => simp [unitTexts, hu] at hx
      | some u =>
        by_cases hwanted : o.includeUnits = true
        · simp only [unitTexts, hu, hwanted, if_true, List.mem_singleton] at hx
          simp [fieldExtras, hu, hwanted, hx]
        · simp [unitTexts, hu, hwanted] at hx
    have hblock : .simple (store o .str x.1 (.string x.2)) ∈ fieldBlocks o f := by
      rw [fieldBlocks_eq]
      exact List.mem_append_right _ (List.mem_append_left _ (List.mem_map_of_mem hstore))
    simp only [List.mem_append]
    exact Or.inl (Or.inr (List.mem_flatMap.2 ⟨f, hf, hblock⟩))

/-! ## Quiet bodies -/

theorem quiet_symbol (h : Quiet o.symbolStem) (name : String) : Quiet (o.symbol name) :=
  quiet_append_iff.2 ⟨h, quiet_name name⟩

theorem quiet_fieldType (t : FieldType) : Quiet t.cType.text ∧ Quiet t.extractor := by
  have hall : ∀ t ∈ FieldType.all, Quiet t.cType.text ∧ Quiet t.extractor := by decide
  exact hall t (FieldType.mem_all t)

theorem quiet_rawName (f : PlacedField) : Quiet (rawName f) :=
  quiet_append_iff.2 ⟨quiet_name f.name, by decide⟩

theorem quiet_valueName (f : PlacedField) : Quiet (valueName f) :=
  quiet_append_iff.2 ⟨quiet_name f.name, by decide⟩

/-- The literal of a scale is quiet and holds no text. -/
theorem isQuiet_scaleLiteral (k : OutputKind) (x : Binary64) : (scaleLiteral k x).IsQuiet ∧ (scaleLiteral k x).strings = [] := by
  cases k with
  | float => exact ⟨trivial, rfl⟩
  | int =>
    rw [scaleLiteral, Expr.number]
    split
    · split <;> exact ⟨trivial, rfl⟩
    · exact ⟨trivial, rfl⟩

/-- Scaling brings no texts. -/
theorem isQuiet_scaledValue (a : Attribute) {raw : Expr} (h : raw.IsQuiet) (hraw : raw.strings = []) :
    (scaledValue a raw).IsQuiet ∧ (scaledValue a raw).strings = [] := by
  obtain ⟨hdivisor, hdivisorTexts⟩ := isQuiet_scaleLiteral a.outputKind a.divisor
  obtain ⟨hdistance, hdistanceTexts⟩ := isQuiet_scaleLiteral a.outputKind a.offset.abs
  unfold scaledValue
  split
  · dsimp only
    split
    · exact ⟨⟨⟨h, hdivisor⟩, hdistance⟩, by simp [Expr.strings, hraw, hdivisorTexts, hdistanceTexts]⟩
    · split
      · exact ⟨⟨⟨h, hdivisor⟩, hdistance⟩, by simp [Expr.strings, hraw, hdivisorTexts, hdistanceTexts]⟩
      · exact ⟨⟨h, hdivisor⟩, by simp [Expr.strings, hraw, hdivisorTexts]⟩
  · split
    · have hfloat : Quiet CType.float.text := by decide
      exact ⟨⟨hfloat, h⟩, hraw⟩
    · exact ⟨h, hraw⟩

theorem isQuiet_store (h : Quiet o.symbolStem) (k : StoreKind) (name : String) {value : Expr} (hvalue : value.IsQuiet) :
    (store o k name value).IsQuiet := by
  have hfunction : Quiet k.function := by cases k <;> decide
  have hresult : Quiet "result" := by decide
  exact ⟨hfunction, hresult, quiet_symbol h name, hvalue, trivial⟩

/-- A store statement has the texts of its value. -/
theorem quietWith_store (h : Quiet o.symbolStem) (k : StoreKind) (name : String) (value : Expr) (hvalue : value.IsQuiet) :
    QuietWith [.simple (store o k name value)] value.strings := by
  have hstore := quietWith_simple (isQuiet_store h k name hvalue)
  rwa [show (store o k name value).strings = value.strings from List.append_nil _] at hstore

/-- Storing texts takes these texts as literals, in order. -/
theorem quietWith_textStores (h : Quiet o.symbolStem) (texts : List (String × String)) :
    QuietWith ((texts.map fun x => store o .str x.1 (.string x.2)).map Block.simple) (texts.map Prod.snd) := by
  induction texts with
  | nil => exact ⟨nofun, rfl⟩
  | cons x texts ih => exact (quietWith_store h .str x.1 (.string x.2) trivial).append ih

theorem quietWith_fieldRead (f : PlacedField) : QuietWith [.simple (fieldRead f)] [] := by
  obtain ⟨htype, hextractor⟩ := quiet_fieldType f.type
  have hhelper : Quiet (scriptHelper ++ f.type.extractor) := quiet_append_iff.2 ⟨by decide, hextractor⟩
  have hbuffer : Quiet "pBuf" := by decide
  exact quietWith_simple ⟨htype, quiet_rawName f, hhelper, hbuffer, trivial, trivial⟩

theorem quietWith_fieldStores (h : Quiet o.symbolStem) (f : PlacedField) : QuietWith ((fieldStores o f).map Block.simple) [] := by
  have htype : Quiet (StoreKind.ofOutput f.attr.outputKind).valueType.text := by
    cases f.attr.outputKind <;> decide
  have hraw : (Expr.var (rawName f)).IsQuiet := quiet_rawName f
  unfold fieldStores
  dsimp only
  split
  · obtain ⟨hscaled, hnone⟩ := isQuiet_scaledValue f.attr hraw rfl
    have hdefine := quietWith_simple (s := .define _ (valueName f) _) ⟨htype, quiet_valueName f, hscaled⟩
    rw [Stmt.strings, hnone] at hdefine
    exact hdefine.append (quietWith_store h _ f.name (.var (valueName f)) (quiet_valueName f))
  · exact quietWith_store h _ f.name (.cast _ _) ⟨htype, hraw⟩

/-- What goes with a field takes the text of its unit as a literal, if that is stored. -/
theorem quietWith_fieldExtras (h : Quiet o.symbolStem) (f : PlacedField) :
    QuietWith ((fieldExtras o f).map Block.simple) ((unitTexts o f).map Prod.snd) := by
  have hnone : QuietWith ([] : List Block) [] := ⟨nofun, rfl⟩
  have hrange : ∀ low high, QuietWith ([store o .float (minName f) (.single low), store o .float (maxName f) (.single high)].map Block.simple) [] :=
    fun low high => (quietWith_store h .float (minName f) (.single low) trivial).append
      (quietWith_store h .float (maxName f) (.single high) trivial)
  unfold fieldExtras unitTexts
  rw [List.map_append, ← List.append_nil (List.map Prod.snd _)]
  refine QuietWith.append ?_ ?_
  · rcases f.attr.unit? with _ | u
    · exact hnone
    · dsimp only
      split
      · exact quietWith_store h .str (unitName f) (.string u) trivial
      · exact hnone
  · split
    · split
      · exact hrange _ _
      · exact hnone
    · exact hnone

/-- What is done for a field has quiet names, and its only text is the unit. -/
theorem quietWith_fieldBlocks (h : Quiet o.symbolStem) (f : PlacedField) : QuietWith (fieldBlocks o f) ((unitTexts o f).map Prod.snd) := by
  have hall := (quietWith_fieldRead f).append ((quietWith_fieldStores h f).append ((quietWith_fieldExtras h f).append quietWith_blank))
  rw [List.append_nil, List.nil_append, List.nil_append] at hall
  rw [fieldBlocks_eq]
  exact hall

/-- A decoder has quiet names, and its texts are those that it stores. -/
theorem quietWith_scriptDecoderBody (h : Quiet o.symbolStem) (r : Record) :
    QuietWith (scriptDecoderBody o r) ((storedTexts o r).map Prod.snd) := by
  have hguard : QuietWith [.choose [(.binary .less (.var "bufLen") (.decimal r.layout.size), [nothing])]] [] := by
    have hlength : Quiet "bufLen" := by decide
    have hnothing : Quiet "mp_const_none" := by decide
    refine ⟨List.forall_mem_singleton.2 (List.forall_mem_singleton.2 ⟨⟨hlength, trivial⟩, ?_⟩), rfl⟩
    exact List.forall_mem_singleton.2 hnothing
  have hresult : QuietWith [.simple (.define objectType "result" (.call createSignature.name [.var "timestampUs"]))] [] := by
    have htype : Quiet objectType.text := by decide
    have hname : Quiet "result" := by decide
    have hcreate : Quiet createSignature.name := by decide
    have htime : Quiet "timestampUs" := by decide
    exact quietWith_simple ⟨htype, hname, hcreate, htime, trivial⟩
  have hend : QuietWith [.simple (.ret (.var "result"))] [] := by
    have hname : Quiet "result" := by decide
    exact quietWith_simple (s := .ret (.var "result")) hname
  have htexts := quietWith_textStores h (recordTexts o r)
  have hfields : QuietWith (r.layout.fields.flatMap (fieldBlocks o)) (r.layout.fields.flatMap fun f => (unitTexts o f).map Prod.snd) :=
    QuietWith.flatMap fun f _ => quietWith_fieldBlocks h f
  have hall := (((((hguard.append quietWith_blank).append hresult).append htexts).append quietWith_blank).append hfields).append hend
  rw [List.append_nil, List.append_nil, ← List.map_flatMap, ← textStores_eq] at hall
  rw [storedTexts, List.map_append]
  exact hall

/-- The dispatch function has quiet names, and its texts are the type names of the decoders. -/
theorem quietWith_dispatchBody (decoders : List Record) :
    QuietWith (dispatchBody decoders) (decoders.map fun r => r.device.typeName) := by
  have hnothing : nothing.IsQuiet := by
    have hname : Quiet "mp_const_none" := by decide
    exact hname
  have hguard : QuietWith [.choose [(.binary .either (.not (.var "deviceType")) (.not (.var "pBuf")), [nothing])]] [] := by
    have htype : Quiet "deviceType" := by decide
    have hbuffer : Quiet "pBuf" := by decide
    refine ⟨List.forall_mem_singleton.2 (List.forall_mem_singleton.2 ⟨⟨htype, hbuffer⟩, ?_⟩), rfl⟩
    exact List.forall_mem_singleton.2 hnothing
  have hbranches : QuietWith [.choose (decoders.map dispatchBranch)] (decoders.map fun r => r.device.typeName) := by
    have hcompare : Quiet "strcmp" := by decide
    have htype : Quiet "deviceType" := by decide
    have hbuffer : Quiet "pBuf" := by decide
    have hlength : Quiet "bufLen" := by decide
    have htime : Quiet "timestampUs" := by decide
    refine ⟨List.forall_mem_singleton.2 fun branch hbranch => ?_, ?_⟩
    · obtain ⟨r, -, rfl⟩ := List.mem_map.1 hbranch
      have hdecoder : Quiet (scriptDecoderName r) := quiet_append_iff.2 ⟨by decide, quiet_name _⟩
      exact ⟨⟨⟨hcompare, htype, trivial, trivial⟩, trivial⟩, List.forall_mem_singleton.2 ⟨hdecoder, hbuffer, hlength, htime, trivial⟩⟩
    · rw [List.flatMap_singleton, Block.strings, List.flatMap_map, List.map_eq_flatMap]
      rfl
  have hall := (((hguard.append quietWith_blank).append hbranches).append quietWith_blank).append (quietWith_simple hnothing)
  rw [List.append_nil, List.nil_append] at hall
  rwa [show nothing.strings = [] from rfl, List.append_nil] at hall

/-! ## Heads -/

theorem quiet_scriptDecoderSignature (r : Record) : Quiet (scriptDecoderSignature r).text := by
  have hname : Quiet ("mp_decode_" ++ typeIdentifier r) := quiet_append_iff.2 ⟨by decide, quiet_name _⟩
  have hstart : Quiet (String.join [] ++ objectType.text ++ " ") := by decide
  have hend : Quiet (String.intercalate (",\n" ++ indented 3 "") [String.intercalate ", " (decoderParams.map Param.text)]) := by decide
  exact quiet_append_iff.2 ⟨quiet_append_iff.2 ⟨quiet_append_iff.2 ⟨quiet_append_iff.2 ⟨hstart, hname⟩, by decide⟩, hend⟩, by decide⟩

/-! ## Literals in their lines -/

/-- A line that is printed with a text holds it as a literal between the same characters whatever the text is; read from its opening quote on,
the literal gives the text and leaves what is meant to stand behind it, and only what stands around it can end the line. -/
structure HoldsLiteral (printed : String → String) (before after : List Char) : Prop where
  shape : ∀ text, (printed text).toList = before ++ (stringLiteral text.toList ++ after)
  reads : ∀ text, readLiteral? ((printed text).toList.drop before.length) = some (text.toList, after)
  unbroken : ∀ text, Unbroken (printed text).toList ↔ Unbroken before ∧ Unbroken after

/-- A line that is printed as a literal between two fixed texts holds that literal. -/
theorem holdsLiteral_of_shape {printed : String → String} {before after : List Char}
    (h : ∀ text, (printed text).toList = before ++ (stringLiteral text.toList ++ after)) : HoldsLiteral printed before after where
  shape := h
  reads := by
    intro text
    rw [h, List.drop_left]
    exact readLiteral?_stringLiteral _ _
  unbroken := by
    intro text
    rw [h, unbroken_append_iff, unbroken_append_iff, and_iff_right (unbroken_stringLiteral _)]

/-- The line that stores a text under a name. -/
def storeLine (o : ScriptOptions) (name text : String) : String :=
  indented 1 (store o .str name (.string text)).text

/-- The line of the dispatch function that compares the wanted type name with the one of a decoder. -/
def compareLine (keyword typeName : String) : String :=
  indented 1 (keyword ++ " (" ++ (Expr.binary .equal (.call "strcmp" [.var "deviceType", .string typeName]) (.decimal 0)).text ++ ")" ++ " \x7b")

/-- The line that stores a text holds its literal behind the symbol. -/
theorem holdsLiteral_storeLine (o : ScriptOptions) (name : String) :
    HoldsLiteral (storeLine o name) ("    mp_dict_store_str(result, " ++ o.symbol name ++ ", ").toList ");".toList := by
  refine holdsLiteral_of_shape fun text => ?_
  have hspaces : String.ofList (List.replicate (4 * 1) ' ') = "    " := rfl
  have harguments : String.intercalate ", " (Expr.texts [.var "result", .var (o.symbol name), .string text]) =
      "result, " ++ o.symbol name ++ ", " ++ String.ofList (stringLiteral text.toList) := by
    simp only [Expr.texts, Expr.text, String.intercalate_cons_cons, String.intercalate_singleton]
    rw [← String.append_assoc, ← String.append_assoc]
    rfl
  rw [storeLine, indented, hspaces, store, Stmt.text, Expr.text, harguments]
  simp only [StoreKind.function, String.toList_append, String.toList_ofList, List.append_assoc]
  rfl

/-- The line that compares the type holds its literal behind the name of the argument. -/
theorem holdsLiteral_compareLine (keyword : String) :
    HoldsLiteral (compareLine keyword) ("    " ++ keyword ++ " (strcmp(deviceType, ").toList ") == 0) \x7b".toList := by
  refine holdsLiteral_of_shape fun text => ?_
  have hspaces : String.ofList (List.replicate (4 * 1) ' ') = "    " := rfl
  have harguments : String.intercalate ", " (Expr.texts [.var "deviceType", .string text]) =
      "deviceType, " ++ String.ofList (stringLiteral text.toList) := by
    simp only [Expr.texts, Expr.text, String.intercalate_cons_cons, String.intercalate_singleton]
    rfl
  have hzero : Text.signedDecimal 0 = "0" := by decide
  rw [compareLine, indented, hspaces, Expr.text, Expr.text, Expr.text, harguments, hzero]
  simp only [Operator.text, String.toList_append, String.toList_ofList, List.append_assoc]
  rfl

/-- Every text that a decoder stores is on a line of its own. -/
theorem storeLine_mem {r : Record} {x : String × String} (h : x ∈ storedTexts o r) :
    storeLine o x.1 x.2 ∈ functionLines .sameLine (scriptDecoderSignature r) (scriptDecoderBody o r) := by
  refine List.mem_append_left _ (List.mem_append_right _ (List.mem_flatMap.2 ⟨_, store_mem_scriptDecoderBody h, ?_⟩))
  exact List.mem_singleton_self _

/-- Every type name is compared on a line of its own. -/
theorem exists_compareLine_mem {decoders : List Record} {r : Record} (h : r ∈ decoders) :
    ∃ keyword, (keyword = "if" ∨ keyword = "else if") ∧
      compareLine keyword r.device.typeName ∈ functionLines .sameLine dispatchSignature (dispatchBody decoders) := by
  have hbranches : ∀ first : String, ∃ keyword, (keyword = first ∨ keyword = "else if") ∧
      compareLine keyword r.device.typeName ∈ branchLines .sameLine 1 first (decoders.map dispatchBranch) := by
    induction decoders with
    | nil => cases h
    | cons s decoders ih =>
      intro first
      rcases List.mem_cons.1 h with rfl | hlater
      · exact ⟨first, Or.inl rfl, List.mem_append_left _ (List.mem_append_left _ (List.mem_append_left _ (List.mem_singleton_self _)))⟩
      · obtain ⟨keyword, hkeyword, hmem⟩ := ih hlater "else if"
        exact ⟨keyword, Or.inr (hkeyword.elim id id), List.mem_append_right _ hmem⟩
  obtain ⟨keyword, hkeyword, hmem⟩ := hbranches "if"
  have hblock : .choose (decoders.map dispatchBranch) ∈ dispatchBody decoders := by simp [dispatchBody]
  exact ⟨keyword, hkeyword, List.mem_append_left _ (List.mem_append_right _ (List.mem_flatMap.2 ⟨_, hblock, hmem⟩))⟩

/-! ## The sources of the decoders -/

/-- How a source holds the texts that the decoder of a record stores. -/
structure DecoderLiterals (source : List Item) (o : ScriptOptions) (r : Record) : Prop where
  /-- The source holds the decoder. -/
  emitted : .function .sameLine (scriptDecoderSignature r) (scriptDecoderBody o r) ∈ source
  /-- Every stored text is on a line of its own. -/
  lines : ∀ x ∈ storedTexts o r, storeLine o x.1 x.2 ∈ functionLines .sameLine (scriptDecoderSignature r) (scriptDecoderBody o r)
  /-- Read as a whole, the decoder has the texts that it stores as its literals, as long as the stem of the symbols brings no literals
  and no lines of its own. -/
  texts : Quiet o.symbolStem →
    PrintsTexts .sameLine (scriptDecoderSignature r) (scriptDecoderBody o r) ((storedTexts o r).map Prod.snd)

/-- How a source holds the type names that the dispatch function compares. -/
structure DispatchLiterals (source : List Item) (decoders : List Record) : Prop where
  /-- The source holds the dispatch function. -/
  emitted : .function .sameLine dispatchSignature (dispatchBody decoders) ∈ source
  /-- Every type name is compared on a line of its own. -/
  lines : ∀ r ∈ decoders, ∃ keyword, (keyword = "if" ∨ keyword = "else if") ∧
    compareLine keyword r.device.typeName ∈ functionLines .sameLine dispatchSignature (dispatchBody decoders)
  /-- Read as a whole, the dispatch function has the type names as its literals. -/
  texts : PrintsTexts .sameLine dispatchSignature (dispatchBody decoders) (decoders.map fun r => r.device.typeName)

/-- What a source of the decoders makes of the texts that come from the catalog. -/
structure LiteralsInPlace (b : Bindings) (source : List Item) : Prop where
  /-- A literal reads as its text from its opening quote to its closing one, whatever stands behind it. -/
  closes : ∀ text rest, readLiteral? (stringLiteral text ++ rest) = some (text, rest)
  /-- A literal stays on its line. -/
  unbroken : ∀ text, Unbroken (stringLiteral text)
  /-- Different texts have different literals. -/
  injective : Function.Injective stringLiteral
  /-- A line that stores a text holds one literal. -/
  store : ∀ name,
    HoldsLiteral (storeLine b.options name) ("    mp_dict_store_str(result, " ++ b.options.symbol name ++ ", ").toList ");".toList
  /-- A line that compares a type name holds one literal. -/
  compare : ∀ keyword, HoldsLiteral (compareLine keyword) ("    " ++ keyword ++ " (strcmp(deviceType, ").toList ") == 0) \x7b".toList
  decoder : ∀ r ∈ b.decoders, DecoderLiterals source b.options r
  dispatch : DispatchLiterals source b.decoders

/-- Every text that the sources of the decoders hold is one literal on a line of its own, between characters that do not depend on it, and
the literal ends at its closing quote. -/
theorem literals_close_in_place (b : Bindings) (headerName pollRecordsName : String) :
    LiteralsInPlace b (b.decoderSource headerName pollRecordsName) where
  closes := readLiteral?_stringLiteral
  unbroken := unbroken_stringLiteral
  injective := stringLiteral_injective
  store := holdsLiteral_storeLine b.options
  compare := holdsLiteral_compareLine
  decoder := by
    intro r hr
    refine ⟨?_, fun x hx => storeLine_mem hx, fun hstem => ?_⟩
    · refine List.mem_append_left _ (List.mem_append_right _ (List.mem_flatMap.2 ⟨r, hr, ?_⟩))
      exact List.mem_cons_of_mem _ List.mem_cons_self
    · exact printsTexts_of_quiet .sameLine (quiet_scriptDecoderSignature r) (quietWith_scriptDecoderBody hstem r)
  dispatch := by
    have hquiet : Quiet dispatchSignature.text := by decide +kernel
    refine ⟨?_, fun r hr => exists_compareLine_mem hr, printsTexts_of_quiet .sameLine hquiet (quietWith_dispatchBody b.decoders)⟩
    exact List.mem_append_right _ (List.mem_cons_of_mem _ List.mem_cons_self)

/-- A quote and a line end inside a type name and a backslash at its end. -/
theorem literals_close_in_place_quote :
    ∃ m b r, (Model.build [{ key := "A", typeName := "a\"\n\\" }]).outcome = .ok m ∧ (Bindings.ofModel m {}).outcome = .ok b ∧
      b.decoders = [r] ∧ r.device.typeName = "a\"\n\\" ∧
      literalsOfLines? (sourceLines (Item.function .sameLine (scriptDecoderSignature r) (scriptDecoderBody {} r)).text) =
        some ["a\"\n\\", "a\"\n\\"] ∧
      literalsOfLines? (sourceLines (Item.function .sameLine dispatchSignature (dispatchBody [r])).text) = some ["a\"\n\\"] := by
  obtain ⟨m, r, hm, hrecords, hdevice, hlayout⟩ := Model.exists_build_singleton (d := { key := "A", typeName := "a\"\n\\" }) (by decide)
  obtain ⟨b, hb, hdecoders⟩ := exists_bindings_singleton hrecords (by rw [hdevice]; decide) {}
  have hoptions : b.options = {} := by rw [eq_of_outcome_ofModel hb]
  have hplace := literals_close_in_place b "decoders.h" "records.h"
  have htexts := (hplace.decoder r (hdecoders ▸ List.mem_singleton_self r)).texts
  rw [hoptions] at htexts
  have hread := (htexts (by decide)).literals
  have hcompare := hplace.dispatch.texts.literals
  rw [hdecoders, List.map_singleton, hdevice] at hcompare
  have hstored : (storedTexts {} r).map Prod.snd = ["a\"\n\\", "a\"\n\\"] := by
    rw [storedTexts, recordTexts, metadata, hdevice, hlayout]
    rfl
  rw [hstored] at hread
  exact ⟨m, b, r, hm, hb, hdecoders, by rw [hdevice], hread, hcompare⟩

end DeviceCatalog.Artifact
