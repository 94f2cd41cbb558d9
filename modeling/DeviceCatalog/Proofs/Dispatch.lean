import DeviceCatalog.CSource.Texts
import DeviceCatalog.Proofs.ScriptFile

/-!
# The dispatch function run

One branch compares the wanted type name with that of its decoder (`test_branch`), so the chain runs up to the first decoder that answers
and calls it, or to its end (`runFirst_branches`, `runFirst_branches_of_none`). The decoders stand in front of the dispatch function, so
what it calls is what the file runs under their names (`dispatch_eq_runFunction`).
-/

namespace DeviceCatalog.Artifact

open CSource

variable {α : Type} {M : Machine α} {scope : Scope α}

/-! ## Which decoder answers -/

/-- The wanted type name is that of the record, as far as C functions see the two. -/
def answersTo (q : String) (r : Record) : Bool :=
  beforeNul q = beforeNul r.device.typeName

/-- The decoder that the dispatch function finds for a type name: that of the first record that answers. -/
def reached? (decoders : List Record) (q : String) : Option Record :=
  decoders.find? (answersTo q)

/-- The records whose type names are compared with the wanted one: all up to the first that answers. -/
def compared (q : String) : List Record → List Record
  | [] => []
  | r :: rs => if answersTo q r then [r] else r :: compared q rs

/-- The calls of `strcmp` on the way to the decoder. -/
def comparisons (q : String) (decoders : List Record) : List (Event α) :=
  (compared q decoders).map fun r => .called "strcmp" [.text q, .text r.device.typeName]

/-- Nothing is compared behind a record that answers. -/
theorem comparisons_of_answersTo {q : String} {r : Record} (h : answersTo q r = true) (rs : List Record) :
    (comparisons q (r :: rs) : List (Event α)) = [.called "strcmp" [.text q, .text r.device.typeName]] := by
  rw [comparisons, compared, if_pos h, List.map_singleton]

/-- Behind a record that does not answer the next one is compared. -/
theorem comparisons_of_not_answersTo {q : String} {r : Record} (h : answersTo q r = false) (rs : List Record) :
    (comparisons q (r :: rs) : List (Event α)) = .called "strcmp" [.text q, .text r.device.typeName] :: comparisons q rs := by
  rw [comparisons, compared, if_neg (by rw [h]; exact Bool.false_ne_true), List.map_cons, comparisons]

/-- Comparing texts reads no byte of the buffer. -/
theorem filterMap_read?_comparisons (q : String) (decoders : List Record) :
    (comparisons q decoders : List (Event α)).filterMap Event.read? = [] := by
  rw [List.filterMap_eq_nil_iff]
  intro e he
  obtain ⟨r, -, rfl⟩ := List.mem_map.1 he
  rfl

/-! ## The chain -/

/-- What a decoder is called with: a pointer to the buffer, its length and the time. -/
def decoderArguments (position length : Nat) (time : UInt64) : List (Value α) :=
  [.bytes position, .int .uint32 length, .int .uint64 time.toNat]

/-- The variables that the dispatch function starts with. -/
def dispatchLocals (q : String) (position length : Nat) (time : UInt64) : List (Local α) :=
  [ ⟨"deviceType", .pointer (.const (.named "char")), .text q⟩, ⟨"pBuf", .pointer (.const .uint8), .bytes position⟩,
    ⟨"bufLen", .uint32, .int .uint32 length⟩, ⟨"timestampUs", .uint64, .int .uint64 time.toNat⟩ ]

/-- The dispatch is entered with the type and the arguments for a decoder. -/
theorem locals_dispatchSignature (q : String) (position : Nat) {length : Nat} (hlength : length < 4294967296) (time : UInt64) :
    dispatchSignature.locals M (.text q :: decoderArguments position length time) = dispatchLocals q position length time := by
  have hkept : M.convert .uint32 (.int .uint32 length) = .int .uint32 length := Machine.convert_uint32 _ hlength
  have htext : M.convert (.pointer (.const (.named "char"))) (.text q) = .text q := rfl
  have hbytes : M.convert (.pointer (.const .uint8)) (.bytes position) = .bytes position := rfl
  have htime : M.convert .uint64 (.int .uint64 time.toNat) = .int .uint64 time.toNat := Machine.convert_toNat time
  simp [Signature.locals, dispatchSignature, decoderParams, bufferParam, decoderArguments, dispatchLocals, hkept, htext, hbytes, htime]

section Chain

variable (q : String) (position length : Nat) (time : UInt64)

/-- A branch is taken when its decoder answers. -/
theorem test_branch (hM : M.ComparesTexts) (hstrcmp : scope.functions.lookup "strcmp" = none) (r : Record) (mem : Memory α) :
    Frame.test M scope ⟨dispatchLocals q position length time, mem⟩ (dispatchBranch r).1 =
      some (answersTo q r, ⟨dispatchLocals q position length time, mem.log [.called "strcmp" [.text q, .text r.device.typeName]]⟩) := by
  obtain ⟨n, hvalue, hwrap, hzero⟩ := hM q r.device.typeName
  have hquery : (Expr.var "deviceType").eval M scope (dispatchLocals q position length time) mem = some (.text q, mem) := eval_var rfl
  have hcall : scope.call M "strcmp" [.text q, .text r.device.typeName] mem =
      some (.int .int n, mem.log [.called "strcmp" [.text q, .text r.device.typeName]]) := by
    rw [Scope.call, hstrcmp]
    exact congrArg (fun v => some (v, mem.log _)) hvalue
  have hstrings := (eval_call (evalAll_cons hquery (evalAll_cons (eval_string r.device.typeName) evalAll_nil))).trans hcall
  have hequal : M.apply .equal (.int .int n) (.ofDecimal 0) = some (.ofBool (answersTo q r)) := by
    have hcommon : M.apply .equal (.int .int n) (.ofDecimal 0) = some (.ofBool (decide (IntType.int.wrap n = 0))) := rfl
    rw [hcommon, hwrap, answersTo, decide_eq_decide.2 hzero]
  exact test_eq (eval_binary (by decide) hstrings (eval_decimal 0) hequal) (Value.truth?_ofBool _)

/-- A branch that is taken gives what its decoder gives. -/
theorem runInside_branch (r : Record) (mem : Memory α) :
    runInside M scope (dispatchBranch r).2 ⟨dispatchLocals q position length time, mem⟩ =
      (scope.call M (scriptDecoderName r) (decoderArguments position length time) mem).map fun x =>
        (⟨dispatchLocals q position length time, x.2⟩, some x.1) := by
  have hcall : (Expr.call (scriptDecoderName r) [.var "pBuf", .var "bufLen", .var "timestampUs"]).eval M scope
      (dispatchLocals q position length time) mem =
        scope.call M (scriptDecoderName r) (decoderArguments position length time) mem :=
    eval_call (evalAll_cons (eval_var rfl) (evalAll_cons (eval_var rfl) (evalAll_cons (eval_var rfl) evalAll_nil)))
  cases hrun : scope.call M (scriptDecoderName r) (decoderArguments position length time) mem with
  | some result => exact runInside_ret (hcall.trans hrun)
  | none => exact runInside_ret_of_none (hcall.trans hrun)

variable {q}

/-- Without a decoder that answers the chain ends behind its last comparison. -/
theorem runFirst_branches_of_none (hM : M.ComparesTexts) (hstrcmp : scope.functions.lookup "strcmp" = none) {decoders : List Record}
    (h : reached? decoders q = none) (mem : Memory α) :
    runFirst M scope (decoders.map dispatchBranch) ⟨dispatchLocals q position length time, mem⟩ =
      some (⟨dispatchLocals q position length time, mem.log (comparisons q decoders)⟩, none) := by
  induction decoders generalizing mem with
  | nil =>
    have hnothing : mem.log (comparisons q []) = mem := Memory.log_nil mem
    rw [hnothing]
    rfl
  | cons r rs ih =>
    have hnot : answersTo q r = false := by
      have hall := List.find?_eq_none.1 h r List.mem_cons_self
      simpa using hall
    have hrest : reached? rs q = none := by
      rwa [reached?, List.find?_cons_of_neg (by simp [hnot])] at h
    have hpair : dispatchBranch r = ((dispatchBranch r).1, (dispatchBranch r).2) := rfl
    have htest := test_branch q position length time hM hstrcmp r mem
    rw [hnot] at htest
    rw [List.map_cons, hpair, runFirst_cons htest, if_neg Bool.false_ne_true, ih hrest, Memory.log_log, comparisons_of_not_answersTo hnot,
      List.singleton_append]

/-- The chain gives what the first decoder that answers gives, behind the comparisons on the way to it. -/
theorem runFirst_branches (hM : M.ComparesTexts) (hstrcmp : scope.functions.lookup "strcmp" = none) {decoders : List Record} {r : Record}
    (h : reached? decoders q = some r) (mem : Memory α) :
    runFirst M scope (decoders.map dispatchBranch) ⟨dispatchLocals q position length time, mem⟩ =
      (scope.call M (scriptDecoderName r) (decoderArguments position length time) (mem.log (comparisons q decoders))).map fun x =>
        (⟨dispatchLocals q position length time, x.2⟩, some x.1) := by
  induction decoders generalizing mem with
  | nil => cases h
  | cons d rs ih =>
    have hpair : dispatchBranch d = ((dispatchBranch d).1, (dispatchBranch d).2) := rfl
    rw [List.map_cons, hpair, runFirst_cons (test_branch q position length time hM hstrcmp d mem)]
    cases hanswers : answersTo q d with
    | true =>
      rw [reached?, List.find?_cons_of_pos hanswers] at h
      cases h
      rw [if_pos rfl, runInside_branch q position length time, comparisons_of_answersTo hanswers]
    | false =>
      rw [reached?, List.find?_cons_of_neg (by simp [hanswers])] at h
      rw [if_neg Bool.false_ne_true, ih h, Memory.log_log, comparisons_of_not_answersTo hanswers, List.singleton_append]

end Chain

/-! ## The function -/

/-- The body of the dispatch function. -/
def dispatchBody (decoders : List Record) : List Block :=
  [ .choose [(.binary .either (.not (.var "deviceType")) (.not (.var "pBuf")), [nothing])],
    .blank,
    .choose (decoders.map dispatchBranch),
    .blank,
    .simple nothing ]

/-- What the dispatch function of some bindings does at its place in the file, if its branches are those of the given decoders. -/
def dispatch (M : Machine α) (b : Bindings) (headerName pollRecordsName : String) (branches : List Record) : Meaning α :=
  meaning M (Scope.ofItems M (scriptBefore b.options headerName pollRecordsName b.decoders)) dispatchSignature (dispatchBody branches)

section Body

variable {q : String} (position length : Nat) (time : UInt64)

/-- With a type name and a buffer the guard lets the chain begin. -/
theorem exec_guard (mem : Memory α) :
    (Block.choose [(.binary .either (.not (.var "deviceType")) (.not (.var "pBuf")), [nothing])]).exec M scope
      ⟨dispatchLocals q position length time, mem⟩ = some (⟨dispatchLocals q position length time, mem⟩, none) := by
  have hquery : (Expr.not (.var "deviceType")).eval M scope (dispatchLocals q position length time) mem = some (.ofBool false, mem) :=
    eval_not (v := .text q) (eval_var rfl) rfl
  have hbuffer : (Expr.not (.var "pBuf")).eval M scope (dispatchLocals q position length time) mem = some (.ofBool false, mem) :=
    eval_not (v := .bytes position) (eval_var rfl) rfl
  exact runFirst_cons (test_eq (eval_either_false hquery hbuffer) (Value.truth?_ofBool false))

/-- Without a decoder that answers there is nothing to say. -/
theorem runAll_dispatchBody_of_none (hM : M.ComparesTexts) (hstrcmp : scope.functions.lookup "strcmp" = none)
    (hconstants : scope.constants = []) {decoders : List Record} (h : reached? decoders q = none) (mem : Memory α) :
    runAll (Block.exec M scope) (dispatchBody decoders) ⟨dispatchLocals q position length time, mem⟩ =
      some (⟨dispatchLocals q position length time, mem.log (comparisons q decoders)⟩, some (.foreign "mp_const_none")) := by
  have hnothing : scope.variable (dispatchLocals q position length time) "mp_const_none" = .foreign "mp_const_none" := by
    rw [Scope.variable, hconstants]
    rfl
  refine (runAll_cons (exec_guard position length time mem)).trans ?_
  refine (runAll_cons rfl).trans ?_
  refine (runAll_cons (runFirst_branches_of_none position length time hM hstrcmp h mem)).trans ?_
  refine (runAll_cons rfl).trans ?_
  exact runAll_ret (eval_var hnothing)

/-- The first decoder that answers says what there is to say. -/
theorem runAll_dispatchBody (hM : M.ComparesTexts) (hstrcmp : scope.functions.lookup "strcmp" = none) {decoders : List Record} {r : Record}
    (h : reached? decoders q = some r) (mem : Memory α) :
    runAll (Block.exec M scope) (dispatchBody decoders) ⟨dispatchLocals q position length time, mem⟩ =
      (scope.call M (scriptDecoderName r) (decoderArguments position length time) (mem.log (comparisons q decoders))).map fun x =>
        (⟨dispatchLocals q position length time, x.2⟩, some x.1) := by
  have hchain := runFirst_branches position length time hM hstrcmp h mem
  refine (runAll_cons (exec_guard position length time mem)).trans ?_
  refine (runAll_cons rfl).trans ?_
  cases hcall : scope.call M (scriptDecoderName r) (decoderArguments position length time) (mem.log (comparisons q decoders)) with
  | some result =>
    rw [hcall] at hchain
    exact runAll_cons_ret hchain
  | none =>
    rw [hcall] at hchain
    exact runAll_cons_none hchain

end Body

/-- What is an object stays one. -/
theorem convert_objectType (v : Value α) : M.convert objectType (M.convert objectType v) = M.convert objectType v := by
  cases v <;> rfl

/-- What a function gives that gives an object. -/
theorem convert_of_meaning {s : Signature} (hs : s.result = objectType) {body : List Block} {vs : List (Value α)} {mem mem' : Memory α}
    {v : Value α} (h : meaning M scope s body vs mem = some (v, mem')) : M.convert objectType v = v := by
  unfold meaning at h
  split at h
  · cases hrun : runAll (Block.exec M scope) body ⟨s.locals M vs, mem⟩ with
    | none =>
      rw [hrun] at h
      cases h
    | some result =>
      obtain ⟨fr, _ | w⟩ := result
      · rw [hrun] at h
        cases h
        rfl
      · rw [hrun, hs] at h
        cases h
        exact convert_objectType w
  · cases h

section File

variable {b : Bindings} {headerName pollRecordsName : String} {q : String} {position length : Nat} {time : UInt64}

theorem constants_scriptBefore (M : Machine α) (b : Bindings) (headerName pollRecordsName : String) :
    (Scope.ofItems M (scriptBefore b.options headerName pollRecordsName b.decoders)).constants = [] :=
  Scope.constants_ofItems constant?_scriptBefore

/-- No decoder or helper is named as the function that compares texts. -/
theorem lookup_strcmp (M : Machine α) (b : Bindings) (headerName pollRecordsName : String) :
    (Scope.ofItems M (scriptBefore b.options headerName pollRecordsName b.decoders)).functions.lookup "strcmp" = none := by
  have hothers : "strcmp" ∉ (FieldType.all.map fun t => scriptHelper ++ t.extractor) ++ dictionaryFunctions := by decide
  refine Scope.lookup_function_eq_none ?_
  rw [functions_scriptBefore, ← List.append_assoc, List.mem_append]
  rintro (hname | hname)
  · exact hothers hname
  · obtain ⟨r, -, hr⟩ := List.mem_map.1 hname
    have hstart := congrArg (fun s : String => s.toList.head?) hr
    simp [scriptDecoderName] at hstart

/-- Without a decoder that answers, the dispatch function compares all type names and finds nothing. -/
theorem dispatch_of_none (hM : M.ComparesTexts) (hlength : length < 4294967296) {branches : List Record} (h : reached? branches q = none)
    (mem : Memory α) :
    dispatch M b headerName pollRecordsName branches (.text q :: decoderArguments position length time) mem =
      some (.foreign "mp_const_none", mem.log (comparisons q branches)) := by
  have hrun := runAll_dispatchBody_of_none position length time hM (lookup_strcmp M b headerName pollRecordsName)
    (constants_scriptBefore M b headerName pollRecordsName) h mem
  rw [← locals_dispatchSignature q position hlength time] at hrun
  exact meaning_eq rfl hrun

/-- What the dispatch function calls is what the file runs. -/
theorem call_scriptDecoder (M : Machine α) (hdecoders : (b.decoders.map typeIdentifier).Nodup) {r : Record} (hr : r ∈ b.decoders)
    (headerName pollRecordsName : String) :
    (Scope.ofItems M (scriptBefore b.options headerName pollRecordsName b.decoders)).call M (scriptDecoderName r) =
      runFunction M (b.decoderSource headerName pollRecordsName) (scriptDecoderName r) := by
  obtain ⟨earlier, later, hsplit, hnew⟩ := exists_split hdecoders hr
  have hlookup : (Scope.ofItems M (scriptBefore b.options headerName pollRecordsName (earlier ++ r :: later) ++ [])).functions.lookup
      (scriptDecoderName r) = some (meaning M (Scope.ofItems M (scriptBefore b.options headerName pollRecordsName earlier))
        (scriptDecoderSignature r) (scriptDecoderBody b.options r)) := lookup_scriptDecoder hnew []
  rw [List.append_nil, ← hsplit] at hlookup
  rw [runFunction_scriptDecoder hsplit hnew]
  funext vs mem
  rw [Scope.call, hlookup]

/-- A decoder gives an object. -/
theorem convert_of_runFunction (hdecoders : (b.decoders.map typeIdentifier).Nodup) {r : Record} (hr : r ∈ b.decoders)
    {vs : List (Value α)} {mem mem' : Memory α} {v : Value α}
    (h : runFunction M (b.decoderSource headerName pollRecordsName) (scriptDecoderName r) vs mem = some (v, mem')) :
    M.convert objectType v = v := by
  obtain ⟨earlier, later, hsplit, hnew⟩ := exists_split hdecoders hr
  rw [runFunction_scriptDecoder hsplit hnew] at h
  exact convert_of_meaning rfl h

/-- Otherwise it does what the first decoder does that answers, behind the comparisons on the way to it. -/
theorem dispatch_eq_runFunction (hM : M.ComparesTexts) (hlength : length < 4294967296) (hdecoders : (b.decoders.map typeIdentifier).Nodup)
    {branches : List Record} (hbranches : ∀ r ∈ branches, r ∈ b.decoders) {r : Record} (h : reached? branches q = some r) (mem : Memory α) :
    dispatch M b headerName pollRecordsName branches (.text q :: decoderArguments position length time) mem =
      runFunction M (b.decoderSource headerName pollRecordsName) (scriptDecoderName r) (decoderArguments position length time)
        (mem.log (comparisons q branches)) := by
  have hmem : r ∈ b.decoders := hbranches r (List.mem_of_find?_eq_some h)
  have hrun := runAll_dispatchBody position length time hM (lookup_strcmp M b headerName pollRecordsName) h mem
  rw [← locals_dispatchSignature q position hlength time, call_scriptDecoder M hdecoders hmem headerName pollRecordsName] at hrun
  cases hcall : runFunction M (b.decoderSource headerName pollRecordsName) (scriptDecoderName r) (decoderArguments position length time)
      (mem.log (comparisons q branches)) with
  | none =>
    rw [hcall] at hrun
    exact meaning_eq_none rfl hrun
  | some result =>
    obtain ⟨v, mem'⟩ := result
    rw [hcall] at hrun
    have hobject : M.convert dispatchSignature.result v = v := convert_of_runFunction hdecoders hmem hcall
    rw [dispatch, meaning_eq rfl hrun, hobject]

/-- The dispatch function does what the decoder does that it finds, behind the comparisons on the way to it; without one it has nothing to
say. -/
theorem dispatch_eq (hM : M.ComparesTexts) (hlength : length < 4294967296) (hdecoders : (b.decoders.map typeIdentifier).Nodup)
    {branches : List Record} (hbranches : ∀ r ∈ branches, r ∈ b.decoders) (mem : Memory α) :
    dispatch M b headerName pollRecordsName branches (.text q :: decoderArguments position length time) mem =
      (reached? branches q).elim (some (.foreign "mp_const_none", mem.log (comparisons q branches))) fun r =>
        runFunction M (b.decoderSource headerName pollRecordsName) (scriptDecoderName r) (decoderArguments position length time)
          (mem.log (comparisons q branches)) := by
  cases h : reached? branches q with
  | none => exact dispatch_of_none hM hlength h mem
  | some r => exact dispatch_eq_runFunction hM hlength hdecoders hbranches h mem

/-- The file runs its dispatch function under the function's name, unless a decoder has the same name. -/
theorem runFunction_dispatch (h : ∀ r ∈ b.decoders, scriptDecoderName r ≠ dispatchSignature.name) :
    runFunction M (b.decoderSource headerName pollRecordsName) dispatchSignature.name =
      dispatch M b headerName pollRecordsName b.decoders := by
  have hothers : dispatchSignature.name ∉ (FieldType.all.map fun t => scriptHelper ++ t.extractor) ++ dictionaryFunctions := by decide
  have hname : dispatchSignature.name ∉
      (scriptBefore b.options headerName pollRecordsName b.decoders ++ [dispatchComment]).filterMap Item.function? := by
    rw [List.filterMap_append, functions_scriptBefore, ← List.append_assoc, List.mem_append, List.mem_append]
    rintro ((hname | hname) | hname)
    · exact hothers hname
    · obtain ⟨r, hr, hsame⟩ := List.mem_map.1 hname
      exact h r hr hsame
    · cases hname
  have hcomment : Scope.ofItems M (scriptBefore b.options headerName pollRecordsName b.decoders ++ [dispatchComment]) =
      Scope.ofItems M (scriptBefore b.options headerName pollRecordsName b.decoders) := Scope.ofItems_comment _ _
  have hsplit : b.decoderSource headerName pollRecordsName =
      (scriptBefore b.options headerName pollRecordsName b.decoders ++ [dispatchComment]) ++
        .function .sameLine dispatchSignature (dispatchBody b.decoders) :: [] := by
    rw [decoderSource_eq_append, List.append_assoc]
    rfl
  rw [hsplit, dispatch, ← hcomment]
  exact runFunction_eq (Scope.lookup_function hname)

end File

/-! ## A machine -/

/-- The order of two texts: negative, zero or positive. -/
def compareTexts : List Char → List Char → Int
  | [], [] => 0
  | [], _ :: _ => -1
  | _ :: _, [] => 1
  | c :: cs, d :: ds => if c = d then compareTexts cs ds else if c.toNat < d.toNat then -1 else 1

/-- The comparison of two texts is zero when they are the same. -/
theorem compareTexts_eq_zero_iff (cs ds : List Char) : compareTexts cs ds = 0 ↔ cs = ds := by
  fun_induction compareTexts cs ds with
  | case1 => exact iff_of_true rfl rfl
  | case2 => exact iff_of_false (by decide) (List.cons_ne_nil _ _).symm
  | case3 => exact iff_of_false (by decide) (List.cons_ne_nil _ _)
  | case4 c cs ds ih => rw [ih, List.cons.injEq, and_iff_right rfl]
  | case5 c cs d ds hne => exact iff_of_false (by decide) fun h => hne (List.cons.inj h).1
  | case6 c cs d ds hne => exact iff_of_false (by decide) fun h => hne (List.cons.inj h).1

/-- The order of two texts fits into `int`. -/
theorem wrap_compareTexts (cs ds : List Char) : IntType.int.wrap (compareTexts cs ds) = compareTexts cs ds := by
  fun_induction compareTexts cs ds with
  | case4 c cs ds ih => exact ih
  | _ => rfl

/-- A machine without floating-point numbers that compares texts and knows no other function. -/
def textMachine (buffer : List UInt8) : Machine Unit where
  buffer := buffer
  sizeBits := 32
  le_sizeBits := Nat.le_refl 32
  sizeOf _ := 8
  sizeOf_pos _ := by decide
  sizeOf_lt _ := by decide
  ofBits _ := ()
  literal _ _ := ()
  ofInt _ _ := ()
  round _ x := x
  truncate? _ := none
  add _ x _ := x
  sub _ x _ := x
  mul _ x _ := x
  div _ x _ := x
  external function
    | [.text s, .text t] => if function = "strcmp" then .int .int (compareTexts (beforeNul s) (beforeNul t)) else .foreign function
    | _ => .foreign function

theorem comparesTexts_textMachine (buffer : List UInt8) : (textMachine buffer).ComparesTexts := fun s t =>
  ⟨compareTexts (beforeNul s) (beforeNul t), rfl, wrap_compareTexts _ _, compareTexts_eq_zero_iff _ _⟩

end DeviceCatalog.Artifact
