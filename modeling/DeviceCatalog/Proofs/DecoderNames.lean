import DeviceCatalog.CSource.Call
import DeviceCatalog.Proofs.DecoderBounds
import DeviceCatalog.Proofs.DecoderLookup

/-!
# The decoders in header, sources and dispatch function

The header declares, the sources define and the dispatch function calls one function for each chosen record, in the order of the records
(`decodersAgree`). The order of the branches decides nothing for a type name that one decoder at most answers to
(`reached?_perm_iff`), as it is for every type name when none of the decoders has one with a NUL.
-/

namespace DeviceCatalog.Artifact

open CSource

variable {α : Type}

/-! ## The three texts -/

/-- The calls of the dispatch function on the way to a decoder: the comparison with its type name, and the decoder. -/
def branchCalls (r : Record) : List Call :=
  [("strcmp", [.var "deviceType", .string r.device.typeName]), ("mp_decode_" ++ typeIdentifier r, [.var "pBuf", .var "bufLen", .var "timestampUs"])]

/-- The dispatch calls what its branches call. -/
theorem calls_dispatchBody (decoders : List Record) : (dispatchBody decoders).flatMap Block.calls = decoders.flatMap branchCalls := by
  have hbranch : ∀ r : Record, (dispatchBranch r).1.calls ++ (dispatchBranch r).2.flatMap Stmt.calls = branchCalls r := fun _ => rfl
  have hchain : (Block.choose (decoders.map dispatchBranch)).calls = decoders.flatMap branchCalls := by
    rw [Block.calls, List.flatMap_map]
    exact congrArg decoders.flatMap (funext hbranch)
  rw [dispatchBody, List.flatMap_cons, List.flatMap_cons, List.flatMap_cons, hchain]
  exact List.append_nil _

/-- The header, the sources and the dispatch function have the same decoders in the same order. -/
structure DecodersAgree (b : Bindings) (headerName pollRecordsName : String) : Prop where
  /-- No two decoders have the same name. -/
  names : (b.decoders.map fun r => "mp_decode_" ++ typeIdentifier r).Nodup
  /-- The header declares the decoders, then the dispatch function and the functions for dictionaries. -/
  declared : b.decoderHeader.filterMap Item.declares? = (b.decoders.map fun r => "mp_decode_" ++ typeIdentifier r) ++
    [ "mp_decode_device_data", "mp_create_device_dict_with_timestamp", "mp_dict_store_float", "mp_dict_store_int", "mp_dict_store_str" ]
  /-- The sources define them behind the helpers and the functions for dictionaries, and the dispatch function behind them. -/
  defined : (b.decoderSource headerName pollRecordsName).filterMap Item.function? =
    (FieldType.all.map fun t => "mp_get_" ++ t.extractor) ++
      [ "mp_create_device_dict_with_timestamp", "mp_dict_store_float", "mp_dict_store_int", "mp_dict_store_str" ] ++
      (b.decoders.map fun r => "mp_decode_" ++ typeIdentifier r) ++ ["mp_decode_device_data"]
  /-- The dispatch function calls each decoder once, behind the comparison with its type name. -/
  called : ∃ front body, b.decoderSource headerName pollRecordsName = front ++ [.function .sameLine dispatchSignature body] ∧
    body.flatMap Block.calls = b.decoders.flatMap branchCalls
  /-- The literal in a comparison reads as the type name of the decoder. -/
  literals : ∀ r ∈ b.decoders, ∀ rest, readLiteral? ((Expr.string r.device.typeName).text.toList ++ rest) = some (r.device.typeName.toList, rest)

/-- The header declares the decoders, the dispatch and the functions for dictionaries. -/
theorem declared_decoderHeader (b : Bindings) :
    b.decoderHeader.filterMap Item.declares? = b.decoders.map scriptDecoderName ++ dispatchSignature.name :: dictionaryFunctions := by
  have hdecoders : ∀ rs : List Record, (rs.flatMap fun r => [decoderComment r, .prototype (scriptDecoderSignature r), .blank]).filterMap
      Item.declares? = rs.map scriptDecoderName := by
    intro rs
    induction rs with
    | nil => rfl
    | cons r rs ih =>
      rw [List.flatMap_cons, List.filterMap_append, ih]
      rfl
  rw [Bindings.decoderHeader, List.filterMap_append, List.filterMap_append, List.filterMap_append, hdecoders, List.append_assoc]
  rfl

/-- The source defines the helpers, the functions for dictionaries, the decoders and the dispatch. -/
theorem defined_decoderSource (b : Bindings) (headerName pollRecordsName : String) :
    (b.decoderSource headerName pollRecordsName).filterMap Item.function? =
      FieldType.all.map (fun t => scriptHelper ++ t.extractor) ++ dictionaryFunctions ++ b.decoders.map scriptDecoderName ++
        [dispatchSignature.name] := by
  rw [decoderSource_eq_append, List.filterMap_append, functions_scriptBefore, ← List.append_assoc]
  rfl

/-- Decoders with different identifiers agree in the three texts. -/
theorem decodersAgree {b : Bindings} (h : (b.decoders.map typeIdentifier).Nodup) (headerName pollRecordsName : String) :
    DecodersAgree b headerName pollRecordsName where
  names := by
    have hnames : b.decoders.map (fun r => "mp_decode_" ++ typeIdentifier r) = (b.decoders.map typeIdentifier).map ("mp_decode_" ++ ·) := by
      rw [List.map_map]
      rfl
    rw [hnames]
    exact h.map fun s t hst => (String.append_right_inj _).1 hst
  declared := declared_decoderHeader b
  defined := defined_decoderSource b headerName pollRecordsName
  called := by
    refine ⟨scriptBefore b.options headerName pollRecordsName b.decoders ++ [dispatchComment], dispatchBody b.decoders, ?_,
      calls_dispatchBody b.decoders⟩
    rw [decoderSource_eq_append, List.append_assoc]
    rfl
  literals := by
    intro r _ rest
    rw [Expr.text, String.toList_ofList]
    exact readLiteral?_stringLiteral r.device.typeName.toList rest

/-! ## The order of the branches -/

/-- In another order the branches find the same decoders exactly when one of them at most answers. -/
theorem reached?_perm_iff {decoders : List Record} (h : decoders.Nodup) (q : String) :
    (∀ branches : List Record, branches.Perm decoders → reached? branches q = reached? decoders q) ↔
      (decoders.filter (answersTo q)).length ≤ 1 := by
  constructor
  · intro hsame
    by_contra hmany
    obtain ⟨first, second, rest, hanswers⟩ : ∃ first second rest, decoders.filter (answersTo q) = first :: second :: rest := by
      rcases hlist : decoders.filter (answersTo q) with _ | ⟨first, _ | ⟨second, rest⟩⟩
      · exact absurd (by rw [hlist]; exact Nat.zero_le 1) hmany
      · exact absurd (by rw [hlist]; exact Nat.le_refl 1) hmany
      · exact ⟨first, second, rest, rfl⟩
    have hnodup : (first :: second :: rest).Nodup := hanswers ▸ h.filter _
    have hsecond : second ∈ decoders.filter (answersTo q) := by
      rw [hanswers]
      exact List.mem_cons_of_mem _ List.mem_cons_self
    obtain ⟨hmem, hmatch⟩ := List.mem_filter.1 hsecond
    obtain ⟨before, after, hsplit⟩ := List.append_of_mem hmem
    -- the second decoder that answers, put in front, is found instead of the first
    have hperm : (second :: (before ++ after)).Perm decoders := by
      rw [hsplit]
      exact List.perm_middle.symm
    have hfound := hsame _ hperm
    rw [reached?, List.find?_cons_of_pos hmatch, reached?, ← List.head?_filter, hanswers] at hfound
    exact (List.nodup_cons.1 hnodup).1 (Option.some.inj hfound ▸ List.mem_cons_self)
  · intro hone branches hperm
    have hanswers : (branches.filter (answersTo q)).Perm (decoders.filter (answersTo q)) := hperm.filter _
    rw [reached?, reached?, ← List.head?_filter, ← List.head?_filter]
    rcases Nat.le_one_iff_eq_zero_or_eq_one.1 hone with hlength | hlength
    · rw [List.length_eq_zero_iff.1 hlength] at hanswers ⊢
      rw [List.perm_nil.1 hanswers]
    · obtain ⟨r, hr⟩ := List.length_eq_one_iff.1 hlength
      rw [hr] at hanswers ⊢
      rw [List.perm_singleton.1 hanswers]

/-- Of decoders with different identifiers one at most answers, unless a type name has a NUL. -/
theorem length_filter_answersTo_le {decoders : List Record} (h : (decoders.map typeIdentifier).Nodup)
    (hnul : ∀ r ∈ decoders, '\x00' ∉ r.device.typeName.toList) (q : String) : (decoders.filter (answersTo q)).length ≤ 1 := by
  have hsame : ∀ r ∈ decoders.filter (answersTo q), ∀ r' ∈ decoders.filter (answersTo q), r = r' := by
    intro r hr r' hr'
    obtain ⟨hmem, hanswers⟩ := List.mem_filter.1 hr
    obtain ⟨hmem', hanswers'⟩ := List.mem_filter.1 hr'
    have hq := of_decide_eq_true hanswers
    have hq' := of_decide_eq_true hanswers'
    rw [beforeNul_of_notMem (hnul r hmem)] at hq
    rw [beforeNul_of_notMem (hnul r' hmem')] at hq'
    have hname : r.device.typeName = r'.device.typeName := String.toList_injective (hq.symm.trans hq')
    exact List.inj_on_of_nodup_map h hmem hmem' (congrArg CSource.name hname)
  have hnodup : (decoders.filter (answersTo q)).Nodup := h.of_map.filter _
  generalize decoders.filter (answersTo q) = answering at hsame hnodup
  rcases answering with _ | ⟨first, _ | ⟨second, rest⟩⟩
  · exact Nat.zero_le 1
  · exact Nat.le_refl 1
  · have heq := hsame first List.mem_cons_self second (List.mem_cons_of_mem _ List.mem_cons_self)
    exact absurd (heq ▸ List.mem_cons_self) (List.nodup_cons.1 hnodup).1

/-- With a buffer that is long enough the dispatch function reads the poll response of the record that it finds. -/
theorem exists_dispatch_reads {devices : List DeviceType} {m : Model} (h : m.Describes devices) {o : ScriptOptions} {b : Bindings}
    (hb : (Bindings.ofModel m o).outcome = .ok b) {M : Machine α} (hM : M.ComparesTexts) (hbuffer : M.buffer.length < 4294967296)
    {branches : List Record} (hbranches : ∀ r ∈ branches, r ∈ b.decoders) {q : String} {r : Record} (hfound : reached? branches q = some r)
    (henough : r.layout.size ≤ M.buffer.length) (headerName pollRecordsName : String) (time : UInt64) (mem : Memory α) :
    ∃ v es, dispatch M b headerName pollRecordsName branches (.text q :: decoderArguments 0 M.buffer.length time) mem = some (v, mem.log es) ∧
      es.filterMap Event.read? = List.range r.layout.size := by
  have hmem : r ∈ b.decoders := hbranches r (List.mem_of_find?_eq_some hfound)
  have hbounds : ScriptDecoderBounds M (b.decoderSource headerName pollRecordsName) r :=
    scriptDecoderBounds_decoderSource h hb hmem (by omega) hbuffer headerName pollRecordsName
  obtain ⟨v, es, hrun, hreads, -⟩ := hbounds time (mem.log (comparisons q branches))
  rw [Memory.log_log] at hrun
  refine ⟨v, comparisons q branches ++ es, ?_, ?_⟩
  · rw [dispatch_eq hM hbuffer (nodup_decoders hb) hbranches mem, hfound]
    exact hrun
  · rw [List.filterMap_append, filterMap_read?_comparisons, hreads, if_pos henough, List.nil_append]

/-! ## The decoders of a model -/

/-- The bindings of a model have one decoder for every identifier of a type name, that of the first record that makes it, and one notice for
every later record. Header, sources and dispatch function agree on the decoders. Whatever the order of its branches, the dispatch function
does what the first decoder does that answers; the order decides nothing for a type name exactly when one decoder at most answers to it, and
that is so for every type name when none of the decoders has one with a NUL. -/
theorem bindings_agree_on_decoders {M : Machine α} (hM : M.ComparesTexts) (m : Model) (o : ScriptOptions) :
    ∃ b, Bindings.ofModel m o = ⟨(laterOfClass m.records).map fun r => .decoderTaken r.device.key r.device.typeName, .ok b⟩ ∧
      b.decoders = firstOfClass m.records ∧
      ∀ headerName pollRecordsName, DecodersAgree b headerName pollRecordsName ∧ ∀ q : String,
        (∀ branches : List Record, branches.Perm b.decoders → ∀ (position length : Nat) (time : UInt64) (mem : Memory α),
          length < 2 ^ 32 →
            dispatch M b headerName pollRecordsName branches (.text q :: decoderArguments position length time) mem =
              (reached? branches q).elim (some (.foreign "mp_const_none", mem.log (comparisons q branches))) fun r =>
                runFunction M (b.decoderSource headerName pollRecordsName) (scriptDecoderName r) (decoderArguments position length time)
                  (mem.log (comparisons q branches))) ∧
        ((∀ branches : List Record, branches.Perm b.decoders → reached? branches q = reached? b.decoders q) ↔
          (b.decoders.filter (answersTo q)).length ≤ 1) ∧
        ((∀ r ∈ b.decoders, '\x00' ∉ r.device.typeName.toList) → (b.decoders.filter (answersTo q)).length ≤ 1) := by
  have hnodup := nodup_firstOfClass m.records
  refine ⟨⟨m.records, firstOfClass m.records, o⟩, ofModel_eq m o, rfl, fun headerName pollRecordsName =>
    ⟨decodersAgree hnodup headerName pollRecordsName, fun q => ⟨fun branches hperm position length time mem hlength => ?_, ?_, fun hnul => ?_⟩⟩⟩
  · exact dispatch_eq hM hlength hnodup (fun r hr => hperm.mem_iff.1 hr) mem
  · exact reached?_perm_iff hnodup.of_map q
  · exact length_filter_answersTo_le hnodup hnul q

/-- A later record of a taken type name is reported. With its branches in the other order the dispatch function finds the same decoder, after
one comparison instead of two. -/
theorem bindings_agree_on_decoders_other_order :
    let devices : List DeviceType :=
      [{ key := "A", typeName := "LPS25" }, { key := "B", typeName := "VL6180" }, { key := "C", typeName := "VL6180" }]
    ∃ (m : Model) (b : Bindings) (first second : Record), (Model.build devices).outcome = .ok m ∧
      Bindings.ofModel m {} = ⟨[.decoderTaken "C" "VL6180"], .ok b⟩ ∧ b.decoders = [first, second] ∧
      DecodersAgree b "decoders.h" "records.h" ∧
      reached? [second, first] "VL6180" = some second ∧ reached? [first, second] "VL6180" = some second ∧
      dispatch (textMachine [1, 2]) b "decoders.h" "records.h" [second, first] (.text "VL6180" :: decoderArguments 0 2 7) ⟨fun _ => 0, []⟩ =
        runFunction (textMachine [1, 2]) (b.decoderSource "decoders.h" "records.h") "mp_decode_VL6180" (decoderArguments 0 2 7)
          ⟨fun _ => 0, [.called "strcmp" [.text "VL6180", .text "VL6180"]]⟩ := by
  intro devices
  obtain ⟨m, hm, hdevices⟩ : ∃ m, (Model.build devices).outcome = .ok m ∧ m.records.map Record.device = devices :=
    Model.exists_build (by decide) (by decide) (by decide)
  obtain ⟨first, rest, hrecords, hfirst, hrest⟩ := List.map_eq_cons_iff.1 hdevices
  obtain ⟨second, rest, rfl, hsecond, hrest⟩ := List.map_eq_cons_iff.1 hrest
  obtain ⟨last, rest, rfl, hlast, hrest⟩ := List.map_eq_cons_iff.1 hrest
  obtain rfl := List.map_eq_nil_iff.1 hrest
  have hlps : CSource.name "LPS25" = "LPS25" := by decide
  have hvl : CSource.name "VL6180" = "VL6180" := by decide
  have hchosen : firstOfClass m.records = [first, second] := by
    rw [hrecords]
    simp [firstOfClass, OpensClass, List.zipIdx_cons, typeIdentifier, hfirst, hsecond, hlast, hlps, hvl]
  have hskipped : laterOfClass m.records = [last] := by
    rw [hrecords]
    simp [laterOfClass, JoinsClass, List.zipIdx_cons, typeIdentifier, hfirst, hsecond, hlast, hlps, hvl]
  obtain ⟨b, hb, hdecoders, hagree⟩ := bindings_agree_on_decoders (comparesTexts_textMachine [1, 2]) m {}
  obtain ⟨htexts, horder⟩ := hagree "decoders.h" "records.h"
  obtain ⟨hrun, hsame, hone⟩ := horder "VL6180"
  rw [hchosen] at hdecoders
  rw [hskipped, List.map_singleton, hlast] at hb
  rw [hdecoders] at hrun hsame hone
  have hanswers : answersTo "VL6180" second = true := by
    rw [answersTo, hsecond]
    decide
  have hfound : reached? [second, first] "VL6180" = some second := by
    rw [reached?, List.find?_cons_of_pos hanswers]
  have hnul : ∀ r ∈ [first, second], '\x00' ∉ r.device.typeName.toList := by
    intro r hr
    simp only [List.mem_cons, List.not_mem_nil, or_false] at hr
    rcases hr with rfl | rfl
    · rw [hfirst]
      decide
    · rw [hsecond]
      decide
  have hperm : [second, first].Perm [first, second] := List.Perm.swap first second []
  have hswapped := hrun _ hperm 0 2 7 ⟨fun _ => 0, []⟩ (by decide)
  have hdecoder : scriptDecoderName second = "mp_decode_VL6180" := by
    rw [scriptDecoderName, typeIdentifier, hsecond]
    decide
  refine ⟨m, b, first, second, hm, hb, hdecoders, htexts, hfound, ?_, ?_⟩
  · rw [← hsame.2 (hone hnul) _ hperm]
    exact hfound
  · rw [hfound, comparisons_of_answersTo hanswers, hsecond] at hswapped
    rw [← hdecoder]
    exact hswapped

/-- A type name that goes on behind a NUL has an identifier of its own, so two decoders answer to the first of these type names, and the
order decides which of them reads the buffer. -/
theorem dispatch_order_matters :
    let devices : List DeviceType :=
      [ { key := "A", typeName := "a", responseSchema := [{ name := "x", typeCode := "B" }], declaredBytes := 1 },
        { key := "B", typeName := "a\x00b", responseSchema := [{ name := "x", typeCode := "<H" }], declaredBytes := 2 } ]
    ∃ (m : Model) (b : Bindings) (v w : Value Unit) (es es' : List (Event Unit)), (Model.build devices).outcome = .ok m ∧
      Bindings.ofModel m {} = ⟨[], .ok b⟩ ∧ (b.decoders.filter (answersTo "a")).length = 2 ∧
      dispatch (textMachine [1, 2]) b "decoders.h" "records.h" b.decoders (.text "a" :: decoderArguments 0 2 0) ⟨fun _ => 0, []⟩ =
        some (v, ⟨fun _ => 0, es⟩) ∧ es.filterMap Event.read? = [0] ∧
      dispatch (textMachine [1, 2]) b "decoders.h" "records.h" b.decoders.reverse (.text "a" :: decoderArguments 0 2 0) ⟨fun _ => 0, []⟩ =
        some (w, ⟨fun _ => 0, es'⟩) ∧ es'.filterMap Event.read? = [0, 1] := by
  intro devices
  obtain ⟨m, hm, hdevices⟩ : ∃ m, (Model.build devices).outcome = .ok m ∧ m.records.map Record.device = devices :=
    Model.exists_build (by decide) (by decide) (by decide)
  have hdescribes := Model.describes_of_build hm
  obtain ⟨first, rest, hrecords, hfirst, hrest⟩ := List.map_eq_cons_iff.1 hdevices
  obtain ⟨second, rest, rfl, hsecond, hrest⟩ := List.map_eq_cons_iff.1 hrest
  obtain rfl := List.map_eq_nil_iff.1 hrest
  have hshort : CSource.name "a" = "a" := by decide
  have hlong : CSource.name "a\x00b" = "a_b" := by decide
  have hchosen : firstOfClass m.records = [first, second] := by
    rw [hrecords]
    simp [firstOfClass, OpensClass, List.zipIdx_cons, typeIdentifier, hfirst, hsecond, hshort, hlong]
  have hskipped : laterOfClass m.records = [] := by
    rw [hrecords]
    simp [laterOfClass, JoinsClass, List.zipIdx_cons, typeIdentifier, hfirst, hsecond, hshort, hlong]
  let b : Bindings := ⟨m.records, firstOfClass m.records, {}⟩
  have hb : Bindings.ofModel m {} = ⟨[], .ok b⟩ := by rw [ofModel_eq, hskipped, List.map_nil]
  have hanswers : answersTo "a" first = true ∧ answersTo "a" second = true := by
    rw [answersTo, answersTo, hfirst, hsecond]
    decide
  have hdecoders : b.decoders = [first, second] := hchosen
  have hsizes : first.layout.size = 1 ∧ second.layout.size = 2 := by
    have hmem : ∀ r ∈ [first, second], r.layout.size = r.device.declaredBytes := by
      rw [← hrecords]
      exact hdescribes.sizes
    rw [hmem first (by simp), hmem second (by simp), hfirst, hsecond]
    exact ⟨rfl, rfl⟩
  have hfirstFound : reached? b.decoders "a" = some first := by
    rw [hdecoders, reached?, List.find?_cons_of_pos hanswers.1]
  have hsecondFound : reached? b.decoders.reverse "a" = some second := by
    rw [hdecoders, reached?, List.reverse_cons, List.reverse_singleton, List.singleton_append, List.find?_cons_of_pos hanswers.2]
  obtain ⟨v, es, hrun, hes⟩ := exists_dispatch_reads hdescribes (congrArg Logged.outcome hb) (comparesTexts_textMachine [1, 2]) (by decide)
    (fun r hr => hr) hfirstFound (by rw [hsizes.1]; decide) "decoders.h" "records.h" 0 ⟨fun _ => 0, []⟩
  obtain ⟨w, es', hrun', hes'⟩ := exists_dispatch_reads hdescribes (congrArg Logged.outcome hb) (comparesTexts_textMachine [1, 2]) (by decide)
    (fun r hr => List.mem_reverse.1 hr) hsecondFound (by rw [hsizes.2]; decide) "decoders.h" "records.h" 0 ⟨fun _ => 0, []⟩
  refine ⟨m, b, v, w, es, es', hm, hb, ?_, hrun, ?_, hrun', ?_⟩
  · rw [hdecoders, List.filter_cons_of_pos hanswers.1, List.filter_cons_of_pos hanswers.2]
    rfl
  · rw [hes, hsizes.1]
    rfl
  · rw [hes', hsizes.2]
    rfl

end DeviceCatalog.Artifact
