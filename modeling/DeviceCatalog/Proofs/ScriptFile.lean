import DeviceCatalog.Model
import DeviceCatalog.Proofs.ScriptDecoder

/-!
# The file of the script decoders

The helpers and the dictionary functions in front of the decoders are what a decoder relies on (`scriptScope_scriptBefore`). Two decoders
have different identifiers, although two records may share one (`nodup_assignDecoders`), so every decoder is found under its name
(`runFunction_scriptDecoder`).
-/

namespace DeviceCatalog.Artifact

open CSource

variable {α : Type} {M : Machine α}

/-! ## The decoders of a model -/

/-- The records with a decoder are among the records, their identifiers are not taken, and no two of them have the same one. -/
theorem nodup_assignDecoders (taken : List String) (rs : List Record) :
    ((assignDecoders taken rs).1.map typeIdentifier).Nodup ∧
      ∀ r ∈ (assignDecoders taken rs).1, r ∈ rs ∧ typeIdentifier r ∉ taken := by
  induction rs generalizing taken with
  | nil => exact ⟨List.nodup_nil, nofun⟩
  | cons r rs ih =>
    have hlater : ∀ {r' : Record}, r' ∈ (assignDecoders taken rs).1 → r' ∈ r :: rs ∧ typeIdentifier r' ∉ taken := fun hr' =>
      ⟨List.mem_cons_of_mem _ ((ih taken).2 _ hr').1, ((ih taken).2 _ hr').2⟩
    unfold assignDecoders
    split
    · exact ⟨(ih taken).1, fun r' hr' => hlater hr'⟩
    · split
      · exact ⟨(ih taken).1, fun r' hr' => hlater hr'⟩
      · rename_i hfree
        obtain ⟨hnodup, hmem⟩ := ih (typeIdentifier r :: taken)
        refine ⟨?_, fun r' hr' => ?_⟩
        · rw [List.map_cons, List.nodup_cons]
          refine ⟨fun hr => ?_, hnodup⟩
          obtain ⟨r', hr', hsame⟩ := List.mem_map.1 hr
          exact (hmem r' hr').2 (hsame ▸ List.mem_cons_self)
        · rcases List.mem_cons.1 hr' with rfl | hr'
          · exact ⟨List.mem_cons_self, fun htaken => hfree (List.contains_iff_mem.2 htaken)⟩
          · exact ⟨List.mem_cons_of_mem _ (hmem r' hr').1, fun htaken => (hmem r' hr').2 (List.mem_cons_of_mem _ htaken)⟩

/-- A record behind others of a list without repetitions, with those in front of it. -/
theorem exists_split {β : Type} {f : Record → β} {rs : List Record} (h : (rs.map f).Nodup) {r : Record} (hr : r ∈ rs) :
    ∃ earlier later, rs = earlier ++ r :: later ∧ f r ∉ earlier.map f := by
  obtain ⟨earlier, later, rfl⟩ := List.append_of_mem hr
  rw [List.map_append, List.map_cons] at h
  exact ⟨earlier, later, rfl, fun hmem => List.disjoint_of_nodup_append h hmem List.mem_cons_self⟩

/-- The bindings are made of the records, those that have a decoder and the options. -/
theorem eq_of_outcome_ofModel {m : Model} {o : ScriptOptions} {b : Bindings} (h : (Bindings.ofModel m o).outcome = .ok b) :
    b = ⟨m.records, (assignDecoders [] m.records).1, o⟩ := by
  simp only [Bindings.ofModel, Logged.outcome_bind, Logged.outcome_notes, Logged.outcome_pure] at h
  exact (Except.ok.inj h).symm

/-- No two decoders have the same identifier. -/
theorem nodup_decoders {m : Model} {o : ScriptOptions} {b : Bindings} (h : (Bindings.ofModel m o).outcome = .ok b) :
    (b.decoders.map typeIdentifier).Nodup := by
  rw [eq_of_outcome_ofModel h]
  exact (nodup_assignDecoders [] m.records).1

/-! ## Functions -/

/-- What stands in front of the helpers. -/
def scriptFront (headerName pollRecordsName : String) : List Item :=
  [ .includeLocal headerName, .includeLocal pollRecordsName, .includeLocal "py/runtime.h", .includeLocal "py/objstr.h",
    .includeSystem "string.h", .blank, generatedNote, .blank ]

/-- What stands in front of the dictionary functions. -/
def scriptStart (headerName pollRecordsName : String) : List Item :=
  scriptFront headerName pollRecordsName ++ helpers scriptHelper

/-- What stands in front of a decoder, the decoders before it among it. -/
def scriptBefore (o : ScriptOptions) (headerName pollRecordsName : String) (earlier : List Record) : List Item :=
  scriptStart headerName pollRecordsName ++ (dictionaryItems o ++ earlier.flatMap (scriptDecoderItems o))

/-- The names of the dictionary functions. -/
def dictionaryFunctions : List String :=
  createSignature.name :: StoreKind.all.map StoreKind.function

section Functions

variable {o : ScriptOptions} {headerName pollRecordsName : String} {earlier later : List Record} {r : Record}

theorem functions_scriptStart : (scriptStart headerName pollRecordsName).filterMap Item.function? =
    FieldType.all.map fun t => scriptHelper ++ t.extractor := by
  have hhelpers : (helpers scriptHelper).filterMap Item.function? = FieldType.all.map fun t => scriptHelper ++ t.extractor :=
    functions_someHelpers scriptHelper FieldType.all
  rw [scriptStart, List.filterMap_append, hhelpers]
  rfl

/-- The functions in front of a decoder: the helpers, those for dictionaries and the decoders before it. -/
theorem functions_scriptBefore : (scriptBefore o headerName pollRecordsName earlier).filterMap Item.function? =
    FieldType.all.map (fun t => scriptHelper ++ t.extractor) ++ (dictionaryFunctions ++ earlier.map scriptDecoderName) := by
  have hdecoders : (earlier.flatMap (scriptDecoderItems o)).filterMap Item.function? = earlier.map scriptDecoderName := by
    induction earlier with
    | nil => rfl
    | cons r earlier ih =>
      rw [List.flatMap_cons, List.filterMap_append, ih]
      rfl
  rw [scriptBefore, List.filterMap_append, List.filterMap_append, functions_scriptStart, hdecoders]
  rfl

theorem constant?_scriptStart : ∀ item ∈ scriptStart headerName pollRecordsName, item.constant? = none := by
  have hfront : ∀ item ∈ scriptFront headerName pollRecordsName, item.constant? = none := by simp [scriptFront, generatedNote, Item.constant?]
  have hhelpers : ∀ item ∈ helpers scriptHelper, item.constant? = none := by
    intro item hitem
    obtain ⟨t, -, ht⟩ := List.mem_flatMap.1 hitem
    simp only [List.mem_cons, List.not_mem_nil, or_false] at ht
    rcases ht with rfl | rfl <;> rfl
  intro item hitem
  rcases List.mem_append.1 hitem with hitem | hitem
  · exact hfront item hitem
  · exact hhelpers item hitem

/-- The sources of the decoders define no constants. -/
theorem constant?_scriptBefore : ∀ item ∈ scriptBefore o headerName pollRecordsName earlier, item.constant? = none := by
  have hdictionary : ∀ item ∈ dictionaryItems o, item.constant? = none := by simp [dictionaryItems, StoreKind.all, Item.constant?]
  have hdecoders : ∀ item ∈ earlier.flatMap (scriptDecoderItems o), item.constant? = none := by
    intro item hitem
    obtain ⟨r, -, hr⟩ := List.mem_flatMap.1 hitem
    simp only [scriptDecoderItems, List.mem_cons, List.not_mem_nil, or_false] at hr
    rcases hr with rfl | rfl | rfl <;> rfl
  intro item hitem
  simp only [scriptBefore, List.mem_append] at hitem
  rcases hitem with hitem | hitem | hitem
  · exact constant?_scriptStart item hitem
  · exact hdictionary item hitem
  · exact hdecoders item hitem

/-- In front of a dictionary function no function of the runtime is defined. -/
theorem lookup_runtimeFunction {before after : List Item} (hitems : dictionaryItems o = before ++ after) {f : String}
    (hf : f ∈ runtimeFunctions) : (Scope.ofItems M (scriptStart headerName pollRecordsName ++ before)).functions.lookup f = none := by
  have hclosed : ∀ f ∈ runtimeFunctions, f ∉ (FieldType.all.map fun t => scriptHelper ++ t.extractor) ∧ f ∉ dictionaryFunctions := by
    decide
  have hnames : dictionaryFunctions = before.filterMap Item.function? ++ after.filterMap Item.function? := by
    rw [← List.filterMap_append, ← hitems]
    rfl
  refine Scope.lookup_function_eq_none ?_
  rw [List.filterMap_append, functions_scriptStart, List.mem_append]
  rintro (hname | hname)
  · exact (hclosed f hf).1 hname
  · exact (hclosed f hf).2 (hnames ▸ List.mem_append_left _ hname)

/-- A dictionary function is found under its name. -/
theorem call_dictionaryFunction {before after : List Item} {style : Braces} {s : Signature} {body : List Block} {names : List String}
    (hitems : dictionaryItems o = before ++ .function style s body :: after) (hnames : before.filterMap Item.function? = names)
    (hnew : s.name ∉ (FieldType.all.map fun t => scriptHelper ++ t.extractor) ++ names) :
    (Scope.ofItems M (scriptBefore o headerName pollRecordsName earlier)).call M s.name =
      meaning M (Scope.ofItems M (scriptStart headerName pollRecordsName ++ before)) s body := by
  have hsplit : scriptBefore o headerName pollRecordsName earlier =
      (scriptStart headerName pollRecordsName ++ before) ++ .function style s body :: (after ++ earlier.flatMap (scriptDecoderItems o)) := by
    rw [scriptBefore, hitems]
    simp only [List.append_assoc, List.cons_append]
  have hname : s.name ∉ (scriptStart headerName pollRecordsName ++ before).filterMap Item.function? := by
    rwa [List.filterMap_append, functions_scriptStart, hnames]
  have hlookup : (Scope.ofItems M (scriptBefore o headerName pollRecordsName earlier)).functions.lookup s.name =
      some (meaning M (Scope.ofItems M (scriptStart headerName pollRecordsName ++ before)) s body) := by
    rw [hsplit]
    exact Scope.lookup_function hname
  funext vs mem
  rw [Scope.call, hlookup]

/-- A decoder calls a function that makes a dictionary. -/
theorem createsDictionary_scriptBefore :
    CreatesDictionary M ((Scope.ofItems M (scriptBefore o headerName pollRecordsName earlier)).call M createSignature.name) o := by
  have hitems : dictionaryItems o = [] ++ .function .sameLine createSignature (createBody o) :: (dictionaryItems o).tail := rfl
  have hconstants : ∀ item ∈ scriptStart headerName pollRecordsName ++ [], item.constant? = none := by
    rw [List.append_nil]
    exact constant?_scriptStart
  rw [call_dictionaryFunction hitems rfl (by decide)]
  exact createsDictionary_meaning (fun f hf => lookup_runtimeFunction hitems hf) (Scope.constants_ofItems hconstants) o

/-- The functions that fill dictionaries stand behind the one that makes them, each under a new name. -/
theorem exists_storeFunction (o : ScriptOptions) (k : StoreKind) :
    ∃ before after count, dictionaryItems o = before ++ .function .sameLine k.signature (storeBody k) :: after ∧
      before.filterMap Item.function? = dictionaryFunctions.take count ∧
      k.signature.name ∉ (FieldType.all.map fun t => scriptHelper ++ t.extractor) ++ dictionaryFunctions.take count := by
  cases k with
  | float => exact ⟨(dictionaryItems o).take 2, (dictionaryItems o).drop 3, 1, rfl, rfl, by decide⟩
  | int => exact ⟨(dictionaryItems o).take 4, (dictionaryItems o).drop 5, 2, rfl, rfl, by decide⟩
  | str => exact ⟨(dictionaryItems o).take 6, (dictionaryItems o).drop 7, 3, rfl, rfl, by decide⟩

/-- A decoder calls functions that store entries. -/
theorem storesObject_scriptBefore (k : StoreKind) :
    StoresObject M ((Scope.ofItems M (scriptBefore o headerName pollRecordsName earlier)).call M k.function) k := by
  obtain ⟨before, after, count, hitems, hnames, hnew⟩ := exists_storeFunction o k
  have hcall : (Scope.ofItems M (scriptBefore o headerName pollRecordsName earlier)).call M k.function =
      meaning M (Scope.ofItems M (scriptStart headerName pollRecordsName ++ before)) k.signature (storeBody k) :=
    call_dictionaryFunction hitems hnames hnew
  rw [hcall]
  exact storesObject_meaning (fun f hf => lookup_runtimeFunction hitems hf) k

/-! ## Decoders -/

/-- What stands in front of a decoder is what it relies on. -/
theorem scriptScope_scriptBefore : ScriptScope M (Scope.ofItems M (scriptBefore o headerName pollRecordsName earlier)) o where
  fields := givesField_helpers fun _ => List.not_mem_nil
  stores := storesObject_scriptBefore
  create := createsDictionary_scriptBefore
  constants := Scope.constants_ofItems constant?_scriptBefore

/-- The names of the decoders are not those of the functions that they use. -/
theorem scriptDecoderName_ne {name : String} (h : name ∈ (FieldType.all.map fun t => scriptHelper ++ t.extractor) ++ dictionaryFunctions) :
    scriptDecoderName r ≠ name := by
  have hothers : ∀ name ∈ (FieldType.all.map fun t => scriptHelper ++ t.extractor) ++ dictionaryFunctions,
      name.toList.take 6 ≠ "mp_dec".toList := by decide
  rintro rfl
  have hstart := hothers _ h
  rw [scriptDecoderName, String.toList_append, List.take_append_of_le_length (by decide)] at hstart
  exact hstart (by decide)

/-- No function in front of a decoder has its name, if no decoder before it has its identifier. -/
theorem scriptDecoderName_notMem (h : typeIdentifier r ∉ earlier.map typeIdentifier) :
    scriptDecoderName r ∉ (scriptBefore o headerName pollRecordsName earlier).filterMap Item.function? := by
  rw [functions_scriptBefore, ← List.append_assoc, List.mem_append]
  rintro (hname | hname)
  · exact scriptDecoderName_ne hname rfl
  · obtain ⟨r', hr', hsame⟩ := List.mem_map.1 hname
    exact h (List.mem_map.2 ⟨r', hr', (String.append_right_inj _).1 hsame⟩)

/-- A decoder is found under its name behind the decoders, whatever else stands there. -/
theorem lookup_scriptDecoder (h : typeIdentifier r ∉ earlier.map typeIdentifier) (rest : List Item) :
    (Scope.ofItems M (scriptBefore o headerName pollRecordsName (earlier ++ r :: later) ++ rest)).functions.lookup (scriptDecoderName r) =
      some (meaning M (Scope.ofItems M (scriptBefore o headerName pollRecordsName earlier)) (scriptDecoderSignature r)
        (scriptDecoderBody o r)) := by
  have hsplit : scriptBefore o headerName pollRecordsName (earlier ++ r :: later) ++ rest =
      (scriptBefore o headerName pollRecordsName earlier ++ [decoderComment r]) ++
        .function .sameLine (scriptDecoderSignature r) (scriptDecoderBody o r) ::
          (.blank :: later.flatMap (scriptDecoderItems o) ++ rest) := by
    have hitems : (earlier ++ r :: later).flatMap (scriptDecoderItems o) = earlier.flatMap (scriptDecoderItems o) ++
        decoderComment r :: .function .sameLine (scriptDecoderSignature r) (scriptDecoderBody o r) ::
          .blank :: later.flatMap (scriptDecoderItems o) := by
      rw [List.flatMap_append, List.flatMap_cons]
      rfl
    simp only [hitems, scriptBefore, List.append_assoc, List.cons_append, List.nil_append]
  have hname : (scriptDecoderSignature r).name ∉
      (scriptBefore o headerName pollRecordsName earlier ++ [decoderComment r]).filterMap Item.function? := by
    rw [List.filterMap_append, List.mem_append]
    rintro (hname | hname)
    · exact scriptDecoderName_notMem h hname
    · cases hname
  have hcomment : Scope.ofItems M (scriptBefore o headerName pollRecordsName earlier ++ [decoderComment r]) =
      Scope.ofItems M (scriptBefore o headerName pollRecordsName earlier) := Scope.ofItems_comment _ _
  rw [hsplit, ← hcomment]
  exact Scope.lookup_function hname

/-- The sources are the functions that the dispatch function uses, and the dispatch function. -/
theorem decoderSource_eq_append (b : Bindings) (headerName pollRecordsName : String) :
    b.decoderSource headerName pollRecordsName =
      scriptBefore b.options headerName pollRecordsName b.decoders ++ dispatchItems b.decoders := by
  simp only [Bindings.decoderSource, scriptBefore, scriptStart, scriptFront, List.append_assoc]

/-- A decoder is found under its name in the sources. -/
theorem runFunction_scriptDecoder {b : Bindings} (hdecoders : b.decoders = earlier ++ r :: later)
    (h : typeIdentifier r ∉ earlier.map typeIdentifier) :
    runFunction M (b.decoderSource headerName pollRecordsName) (scriptDecoderName r) =
      meaning M (Scope.ofItems M (scriptBefore b.options headerName pollRecordsName earlier)) (scriptDecoderSignature r)
        (scriptDecoderBody b.options r) := by
  rw [decoderSource_eq_append, hdecoders]
  exact runFunction_eq (lookup_scriptDecoder h _)

end Functions

end DeviceCatalog.Artifact
