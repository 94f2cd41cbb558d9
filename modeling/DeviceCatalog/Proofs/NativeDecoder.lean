import DeviceCatalog.Artifact.DeviceTable
import DeviceCatalog.Proofs.ModelBuild
import DeviceCatalog.Proofs.PollLayout
import DeviceCatalog.Proofs.Timestamp

/-!
# The loop of a native decoder

A decoder takes one poll result from the buffer in every turn of its loop and fills one structure with it. The variables that one turn
leaves are those that the next one starts with (`turnLocals`); a turn reads the bytes of its poll result, each once and in order, and
writes the members of its structure (`runInside_decoderStep`). The loop makes as many turns as there are poll results, structures and
records wanted (`runLoop_decoder`).
-/

namespace DeviceCatalog.Artifact

open CSource

variable {α : Type} {M : Machine α} {scope : Scope α}

/-! ## One structure -/

/-- What a native decoder relies on: the helpers, the timestamps, the constants and its structure. -/
structure DecoderScope (M : Machine α) (scope : Scope α) (o : Options) (r : Record) : Prop where
  fields : ∀ t, GivesField M (scope.call M (nativeHelper ++ FieldType.extractor t)) t
  timestamp : GivesTimestamp M (scope.call M timestampFunction) o.timestampBytes.toNat o.pollResolution.toNat o.wrapPeriod
  size : scope.constants.lookup "POLL_RESULT_TIMESTAMP_SIZE" = some (.int .uint32 o.timestampBytes.toNat)
  resolution : ∃ n : Nat, scope.constants.lookup "DECODE_STRUCT_TIMESTAMP_RESOLUTION_US" = some (.int .uint32 n)
  members : scope.structs.lookup (structName r) = some (structMembers o r)

/-- The structure, its index and the member that an event writes. -/
def Event.written? : Event α → Option (String × Nat × String)
  | .write struct index member _ => some (struct, index, member)
  | _ => none

/-- Some events read some positions and write some members, in these orders, and do nothing else. -/
structure ReadsWrites (es : List (Event α)) (positions : List Nat) (members : List (String × Nat × String)) : Prop where
  reads : es.filterMap Event.read? = positions
  writes : es.filterMap Event.written? = members
  others : ∀ e ∈ es, (∃ p, e = .read p) ∨ ∃ struct index member v, e = .write struct index member v

theorem ReadsWrites.nil : ReadsWrites ([] : List (Event α)) [] [] :=
  ⟨rfl, rfl, nofun⟩

theorem ReadsWrites.append {es es' : List (Event α)} {ps ps' : List Nat} {ms ms' : List (String × Nat × String)}
    (h : ReadsWrites es ps ms) (h' : ReadsWrites es' ps' ms') : ReadsWrites (es ++ es') (ps ++ ps') (ms ++ ms') := by
  refine ⟨by rw [List.filterMap_append, h.reads, h'.reads], by rw [List.filterMap_append, h.writes, h'.writes], fun e he => ?_⟩
  rcases List.mem_append.1 he with he | he
  · exact h.others e he
  · exact h'.others e he

/-- Reads from a position on read the bytes there and write nothing. -/
theorem readsWrites_readsFrom (start count : Nat) :
    ReadsWrites (readsFrom start count : List (Event α)) (List.range' start count) [] := by
  refine ⟨filterMap_read?_readsFrom start count, ?_, fun e he => ?_⟩
  · rw [List.filterMap_eq_nil_iff]
    intro e he
    obtain ⟨i, -, rfl⟩ := List.mem_map.1 he
    rfl
  · obtain ⟨i, -, rfl⟩ := List.mem_map.1 he
    exact Or.inl ⟨_, rfl⟩

theorem readsWrites_write (struct : String) (index : Nat) (member : String) (v : Value α) :
    ReadsWrites [Event.write struct index member v] [] [(struct, index, member)] := by
  refine ⟨rfl, rfl, fun e he => ?_⟩
  rw [List.mem_singleton.1 he]
  exact Or.inr ⟨_, _, _, _, rfl⟩

section Structure

variable {o : Options} {r : Record} {ls : List (Local α)} {mem mem₁ : Memory α} {k : Nat}

/-- The type of the first member of a name. -/
def memberType (o : Options) (r : Record) (member : String) : Option CType :=
  ((structMembers o r).find? fun m => m.2 = member).map Prod.fst

/-- The member for the timestamp has the type that the options name. -/
theorem memberType_timestampName (o : Options) (r : Record) : memberType o r o.timestampName = some (.named o.structTimestampType) := by
  rw [memberType, structMembers, List.find?_cons_of_pos (by simp), Option.map_some]

/-- Every field has a member. -/
theorem exists_memberType {f : PlacedField} (hf : f ∈ r.layout.fields) : ∃ type, memberType o r (memberName f) = some type := by
  have hmember : (f.valueType, memberName f) ∈ structMembers o r := List.mem_cons_of_mem _ (List.mem_map.2 ⟨f, hf, rfl⟩)
  have hsome : ((structMembers o r).find? fun m => m.2 = memberName f).isSome := List.find?_isSome.2 ⟨_, hmember, by simp⟩
  obtain ⟨found, hfound⟩ := Option.isSome_iff_exists.1 hsome
  exact ⟨found.1, by rw [memberType, hfound, Option.map_some]⟩

/-- A member of the structure that is being filled gets a value. -/
theorem DecoderScope.exec_outMember (h : DecoderScope M scope o r) (hout : scope.variable ls "pOut" = .slot (structName r) k)
    {member : String} {type : CType} (htype : memberType o r member = some type) {value : Expr} {v : Value α}
    (hvalue : value.eval M scope ls mem = some (v, mem₁)) :
    (Stmt.assign (outMember member) value).exec M scope ⟨ls, mem⟩ =
      some (⟨ls, mem₁.log [.write (structName r) k member (M.convert type v)]⟩, none) := by
  have hfound : scope.memberType? (structName r) member = some type := by
    rw [← htype, memberType, Scope.memberType?, h.members, Option.bind_eq_bind, Option.bind_some, Option.map_eq_bind]
    rfl
  have hpointer : (Expr.var "pOut").eval M scope ls mem₁ = some (.slot (structName r) k, mem₁) := eval_var hout
  have hstore : Frame.store M scope ⟨ls, mem₁⟩ v (outMember member) =
      some ⟨ls, mem₁.log [.write (structName r) k member (M.convert type v)]⟩ := by
    simp only [outMember, Frame.store, hpointer, hfound, Option.bind_eq_bind, Option.bind_some]
  exact exec_assign hvalue hstore

/-- The value that is assigned to the member of a field. -/
def assignedValue (M : Machine α) (f : PlacedField) (bs : List UInt8) : Value α :=
  if f.attr.isScaled then M.convert f.valueType (scaled M f.attr (fieldValue M f.type bs)) else scaled M f.attr (fieldValue M f.type bs)

/-- The value that the member of a field gets: a member of a name that comes up again has the type of the first one. -/
def memberValue (M : Machine α) (o : Options) (r : Record) (f : PlacedField) (bs : List UInt8) : Value α :=
  M.convert ((memberType o r (memberName f)).getD f.valueType) (assignedValue M f bs)

/-- What is done for a field: its bytes are read and its member is written. -/
def fieldEvents (M : Machine α) (o : Options) (r : Record) (k q : Nat) (f : PlacedField) : List (Event α) :=
  readsFrom (q + f.offset) f.type.width ++ [.write (structName r) k (memberName f) (memberValue M o r f (fieldBytes M q f))]

/-- Decoding a field reads its bytes and writes its member. -/
theorem readsWrites_fieldEvents (M : Machine α) (o : Options) (r : Record) (k q : Nat) (f : PlacedField) :
    ReadsWrites (fieldEvents M o r k q f) (List.range' (q + f.offset) f.type.width) [(structName r, k, memberName f)] := by
  have hevents := (readsWrites_readsFrom (q + f.offset) f.type.width).append
    (readsWrites_write (structName r) k (memberName f) (memberValue M o r f (fieldBytes M q f)))
  rwa [List.append_nil, List.nil_append] at hevents

/-- What is done for fields that stand end to end. -/
theorem readsWrites_fields (M : Machine α) (o : Options) (r : Record) (k q : Nat) {fs : List PlacedField} {start stop : Nat}
    (hchain : PlacedField.Consecutive start stop fs) : ReadsWrites (fs.flatMap (fieldEvents M o r k q))
      (List.range' (q + start) (stop - start)) (fs.map fun f => (structName r, k, memberName f)) := by
  induction fs generalizing start with
  | nil =>
    obtain rfl : start = stop := hchain
    simpa using ReadsWrites.nil
  | cons f fs ih =>
    have hbytes := hchain.range'_append q
    have hall := (readsWrites_fieldEvents M o r k q f).append (ih hchain.2)
    rwa [hbytes] at hall

/-- The assignment of a field reads its bytes and writes its member. -/
theorem DecoderScope.exec_fieldAssignment (h : DecoderScope M scope o r) (hout : scope.variable ls "pOut" = .slot (structName r) k) {q : Nat}
    (hbuf : scope.variable ls "pBuf" = .bytes q) {f : PlacedField} (hf : f ∈ r.layout.fields) (hfit : f.limit ≤ 4294967296)
    (hin : q + f.limit ≤ M.buffer.length) (mem : Memory α) :
    (fieldAssignment f).exec M scope ⟨ls, mem⟩ = some (⟨ls, mem.log (fieldEvents M o r k q f)⟩, none) := by
  obtain ⟨type, htype⟩ := exists_memberType (o := o) hf
  unfold PlacedField.limit at hfit hin
  have hraw := eval_fieldCall (M := M) (h.fields f.type) hbuf hfit (by omega) mem
  have hscaled := eval_scaledValue f.attr (isNumber_fieldValue M f.type _) hraw
  have hvalue : (if f.attr.isScaled then Expr.cast f.valueType
      (.group (scaledValue f.attr (.call (nativeHelper ++ f.type.extractor) [.var "pBuf", .decimal f.offset])))
      else scaledValue f.attr (.call (nativeHelper ++ f.type.extractor) [.var "pBuf", .decimal f.offset])).eval M scope ls mem =
        some (assignedValue M f (fieldBytes M q f), mem.log (readsFrom (q + f.offset) f.type.width)) := by
    unfold assignedValue
    split
    · exact eval_cast ((eval_group _).trans hscaled)
    · exact hscaled
  have hassign := h.exec_outMember hout htype hvalue
  rw [Memory.log_log] at hassign
  rw [fieldEvents, memberValue, htype, Option.getD_some]
  exact hassign

/-- The assignments of fields are made one after the other. -/
theorem DecoderScope.runAll_fieldAssignments (h : DecoderScope M scope o r) (hout : scope.variable ls "pOut" = .slot (structName r) k)
    {q : Nat} (hbuf : scope.variable ls "pBuf" = .bytes q) {fs : List PlacedField} (hfs : ∀ f ∈ fs, f ∈ r.layout.fields)
    (hfit : ∀ f ∈ fs, f.limit ≤ 4294967296) (hin : ∀ f ∈ fs, q + f.limit ≤ M.buffer.length) (mem : Memory α) :
    runAll (Stmt.exec M scope) (fs.map fieldAssignment) ⟨ls, mem⟩ = some (⟨ls, mem.log (fs.flatMap (fieldEvents M o r k q))⟩, none) := by
  induction fs generalizing mem with
  | nil =>
    rw [List.flatMap_nil, Memory.log_nil]
    rfl
  | cons f fs ih =>
    have hfirst := h.exec_fieldAssignment hout hbuf (hfs f List.mem_cons_self) (hfit f List.mem_cons_self) (hin f List.mem_cons_self) mem
    have hothers := ih (fun g hg => hfs g (List.mem_cons_of_mem f hg)) (fun g hg => hfit g (List.mem_cons_of_mem f hg))
      (fun g hg => hin g (List.mem_cons_of_mem f hg)) (mem.log (fieldEvents M o r k q f))
    rw [List.map_cons, runAll_cons hfirst, hothers, Memory.log_log, List.flatMap_cons]

end Structure

/-! ## One turn -/

/-- The bytes of one poll result. -/
def recordLength (o : Options) (r : Record) : Nat :=
  o.timestampBytes.toNat + r.layout.size

/-- The bytes of the structure of a record. -/
def structSize (M : Machine α) (r : Record) : Nat :=
  M.sizeOf (.struct (structName r))

theorem structSize_pos (M : Machine α) (r : Record) : 0 < structSize M r :=
  M.sizeOf_pos _

/-- How far a decoder has come: the records decoded, the structure and the poll result that are next, and the bytes left of both. -/
structure Progress where
  numRecs : Nat
  slot : Nat
  position : Nat
  pollLeft : Nat
  structLeft : Nat

/-- The variables of a decoder. -/
def loopLocals (o : Options) (r : Record) (maxCount : Nat) (s : Progress) : List (Local α) :=
  [ ⟨"numRecs", .uint32, .int .uint32 s.numRecs⟩, ⟨"recLen", .const .uint32, .int .uint32 (recordLength o r)⟩,
    ⟨"pOut", .pointer (.struct (structName r)), .slot (structName r) s.slot⟩, ⟨"pPollBuf", .pointer (.const .uint8), .bytes s.position⟩,
    ⟨"pollBufLen", .uint32, .int .uint32 s.pollLeft⟩, ⟨"pStructOut", .pointer (.named "void"), .room⟩,
    ⟨"structOutSize", .uint32, .int .uint32 s.structLeft⟩, ⟨"maxRecCount", .uint16, .int .uint16 maxCount⟩,
    ⟨"decodeState", .named "RaftBusDeviceDecodeState&", .state⟩ ]

section Turn

variable {o : Options} {r : Record}

/-- The timestamp of a poll result is read and written. -/
theorem DecoderScope.exec_timestamp (h : DecoderScope M scope o r) (maxCount : Nat) (s : Progress) (mem : Memory α)
    (hin : s.position + o.timestampBytes.toNat ≤ M.buffer.length) :
    ∃ mem' es, (Stmt.assign (outMember o.timestampName) (.cast (.named o.structTimestampType)
        (.group (.binary .div (.call timestampFunction [.var "pPollBuf", .var "decodeState"])
          (.var "DECODE_STRUCT_TIMESTAMP_RESOLUTION_US"))))).exec M scope ⟨loopLocals o r maxCount s, mem⟩ =
        some (⟨loopLocals o r maxCount s, mem'⟩, none) ∧
      mem'.trace = mem.trace ++ es ∧
      ReadsWrites es (List.range' s.position o.timestampBytes.toNat) [(structName r, s.slot, o.timestampName)] := by
  obtain ⟨n, mem₁, hcall, htrace⟩ : ∃ n mem₁, scope.call M timestampFunction [.bytes s.position, .state] mem = some (.int .uint64 n, mem₁) ∧
      mem₁.trace = mem.trace ++ readsFrom s.position o.timestampBytes.toNat :=
    ⟨_, _, h.timestamp s.position mem hin, trace_unwrapState _ _ _⟩
  obtain ⟨res, hresolution⟩ := h.resolution
  have hpoll : (Expr.var "pPollBuf").eval M scope (loopLocals o r maxCount s) mem = some (.bytes s.position, mem) := eval_var rfl
  have hstate : (Expr.var "decodeState").eval M scope (loopLocals o r maxCount s) mem = some (.state, mem) := eval_var rfl
  have htimestamp := (eval_call (evalAll_cons hpoll (evalAll_cons hstate evalAll_nil))).trans hcall
  obtain ⟨v, hdiv, -⟩ := M.exists_apply_eq .div (Value.isNumber_int .uint64 n) (Value.isNumber_int .uint32 res)
  have hticks := eval_binary (by decide) htimestamp (eval_constant rfl hresolution) hdiv
  have hvalue : (Expr.cast (.named o.structTimestampType) (.group (.binary .div (.call timestampFunction [.var "pPollBuf", .var "decodeState"])
      (.var "DECODE_STRUCT_TIMESTAMP_RESOLUTION_US")))).eval M scope (loopLocals o r maxCount s) mem =
        some (M.convert (.named o.structTimestampType) v, mem₁) := eval_cast ((eval_group _).trans hticks)
  have hassign := h.exec_outMember (k := s.slot) rfl (memberType_timestampName o r) hvalue
  have hevents := (readsWrites_readsFrom s.position o.timestampBytes.toNat).append (readsWrites_write (structName r) s.slot o.timestampName
    (M.convert (.named o.structTimestampType) (M.convert (.named o.structTimestampType) v)))
  rw [List.append_nil, List.nil_append] at hevents
  refine ⟨_, _, hassign, ?_, hevents⟩
  rw [Memory.log, htrace, List.append_assoc]

/-- The pointer to the fields of a poll result, where there are fields. -/
def fieldPointer (o : Options) (r : Record) (p : Nat) : List (Local α) :=
  if r.layout.fields.isEmpty then [] else [⟨"pBuf", .pointer (.const .uint8), .bytes (p + o.timestampBytes.toNat)⟩]

/-- The fields of a poll result are read and written. -/
theorem DecoderScope.runAll_fields (h : DecoderScope M scope o r) (maxCount : Nat) (s : Progress) (mem : Memory α)
    (hchain : PlacedField.Consecutive 0 r.layout.size r.layout.fields) (hfit : r.layout.size ≤ 4294967296)
    (hin : s.position + recordLength o r ≤ M.buffer.length) :
    runAll (Stmt.exec M scope)
        ((if r.layout.fields.isEmpty then []
          else [.define (.pointer (.const .uint8)) "pBuf" (.binary .add (.var "pPollBuf") (.var "POLL_RESULT_TIMESTAMP_SIZE"))]) ++
          r.layout.fields.map fieldAssignment) ⟨loopLocals o r maxCount s, mem⟩ =
      some (⟨fieldPointer o r s.position ++ loopLocals o r maxCount s,
        mem.log (r.layout.fields.flatMap (fieldEvents M o r s.slot (s.position + o.timestampBytes.toNat)))⟩, none) := by
  unfold recordLength at hin
  -- Without fields the decoder does not even define the pointer to them.
  by_cases hempty : r.layout.fields.isEmpty = true
  · rw [fieldPointer, if_pos hempty, if_pos hempty, List.isEmpty_iff.1 hempty, List.flatMap_nil, Memory.log_nil]
    rfl
  · have hpoll : (Expr.var "pPollBuf").eval M scope (loopLocals o r maxCount s) mem = some (.bytes s.position, mem) := eval_var rfl
    have hmove := eval_binary (by decide) hpoll (eval_constant rfl h.size) (Machine.apply_move _ (by omega))
    have hpointer : fieldPointer o r s.position ++ loopLocals o r maxCount s =
        (⟨"pBuf", .pointer (.const .uint8), .bytes (s.position + o.timestampBytes.toNat)⟩ :: loopLocals o r maxCount s :
          List (Local α)) := by
      rw [fieldPointer, if_neg hempty]
      rfl
    have hdefine : (Stmt.define (.pointer (.const .uint8)) "pBuf" (.binary .add (.var "pPollBuf") (.var "POLL_RESULT_TIMESTAMP_SIZE"))).exec
        M scope ⟨loopLocals o r maxCount s, mem⟩ = some (⟨fieldPointer o r s.position ++ loopLocals o r maxCount s, mem⟩, none) := by
      rw [hpointer]
      exact exec_define _ _ hmove
    have hout : scope.variable (fieldPointer o r s.position ++ loopLocals o r maxCount s) "pOut" = .slot (structName r) s.slot := by
      rw [hpointer]
      rfl
    have hbuf : scope.variable (fieldPointer o r s.position ++ loopLocals o r maxCount s) "pBuf" =
        .bytes (s.position + o.timestampBytes.toNat) := by
      rw [hpointer]
      rfl
    have hlimit : ∀ f ∈ r.layout.fields, f.limit ≤ r.layout.size := fun f hf => (hchain.bounds hf).2
    rw [if_neg hempty, List.singleton_append, runAll_cons hdefine]
    refine h.runAll_fieldAssignments hout hbuf (fun f hf => hf) (fun f hf => ?_) (fun f hf => ?_) mem
    · exact Nat.le_trans (hlimit f hf) hfit
    · have hle := hlimit f hf
      omega

theorem name_fieldPointer {q : Nat} {l : Local α} (h : l ∈ fieldPointer o r q) : l.name = "pBuf" := by
  unfold fieldPointer at h
  split at h
  · cases h
  · rw [List.mem_singleton.1 h]

/-- The progress that a turn makes. -/
def Progress.next (M : Machine α) (o : Options) (r : Record) (s : Progress) : Progress :=
  ⟨s.numRecs + 1, s.slot + 1, s.position + recordLength o r, s.pollLeft - recordLength o r, s.structLeft - structSize M r⟩

/-- The variables move on to the next poll result and the next structure. -/
theorem runAll_advance (scope : Scope α) (maxCount : Nat) (s : Progress) (mem : Memory α) (hcount : s.numRecs + 1 < 4294967296)
    (hpoll : recordLength o r ≤ s.pollLeft) (hpollLeft : s.pollLeft < 4294967296) (hin : s.position + recordLength o r ≤ M.buffer.length)
    (hout : structSize M r ≤ s.structLeft) (houtLeft : s.structLeft < 4294967296) (q : Nat) :
    runAll (Stmt.exec M scope)
      [ .increase (.var "pPollBuf") (.var "recLen"), .decrease (.var "pollBufLen") (.var "recLen"),
        .decrease (.var "structOutSize") (.sizeOf (.struct (structName r))), .increment (.var "pOut"), .increment (.var "numRecs") ]
      ⟨fieldPointer o r q ++ loopLocals o r maxCount s, mem⟩ =
      some (⟨fieldPointer o r q ++ loopLocals o r maxCount (s.next M o r), mem⟩, none) := by
  have hother : ∀ {name : String}, name ≠ "pBuf" → ∀ l ∈ (fieldPointer o r q : List (Local α)), l.name ≠ name := by
    intro name hne l hl hname
    exact hne (hname.symm.trans (name_fieldPointer hl))
  have hlength : ∀ s, (Expr.var "recLen").eval M scope (fieldPointer o r q ++ loopLocals o r maxCount s) mem =
      some (.int .uint32 (recordLength o r), mem) := fun s => eval_var ((variable_append _ (hother (by decide))).trans rfl)
  have hsize : ∀ ls, (Expr.sizeOf (.struct (structName r))).eval M scope ls mem = some (.int M.sizeType (structSize M r), mem) := fun _ =>
    eval_sizeOf _
  have hone : ∀ ls, (Expr.decimal 1).eval M scope ls mem = some (.int .int (1 : Nat), mem) := fun _ => eval_decimal 1
  -- the variables change one after the other
  let s₁ : Progress := { s with position := s.position + recordLength o r }
  let s₂ : Progress := { s₁ with pollLeft := s.pollLeft - recordLength o r }
  let s₃ : Progress := { s₂ with structLeft := s.structLeft - structSize M r }
  let s₄ : Progress := { s₃ with slot := s.slot + 1 }
  have hpollBuf := assign_var (hother (by decide : "pPollBuf" ≠ "pBuf")) (loopLocals o r maxCount s) (loopLocals o r maxCount s₁) (by decide)
    rfl (hlength s) (Machine.apply_move .uint32 hin) rfl
  have hpollLen := assign_var (hother (by decide : "pollBufLen" ≠ "pBuf")) (loopLocals o r maxCount s₁) (loopLocals o r maxCount s₂)
    (by decide) rfl (hlength s₁) (Machine.apply_sub rfl rfl hpoll hpollLeft)
    (by simp [s₂, s₁, loopLocals, assigned?, Machine.convert_uint32 _ (show s.pollLeft - recordLength o r < 4294967296 by omega)])
  have hstructSize := assign_var (hother (by decide : "structOutSize" ≠ "pBuf")) (loopLocals o r maxCount s₂) (loopLocals o r maxCount s₃)
    (by decide) rfl (hsize _) (Machine.apply_sub M.common_sizeType rfl hout (M.lt_modulus_sizeType houtLeft))
    (by simp [s₃, s₂, s₁, loopLocals, assigned?, Machine.convert_uint32 _ (show s.structLeft - structSize M r < 4294967296 by omega)])
  have hslot := assign_var (hother (by decide : "pOut" ≠ "pBuf")) (loopLocals o r maxCount s₃) (loopLocals o r maxCount s₄) (by decide) rfl
    (hone _) (M.apply_slot .int (structName r) s.slot 1) rfl
  have hkept : M.convert .uint32 (.int .uint32 ((s.numRecs + 1 : Nat) : Int)) = .int .uint32 ((s.numRecs + 1 : Nat) : Int) :=
    Machine.convert_uint32 _ hcount
  have hnumRecs := assign_var (hother (by decide : "numRecs" ≠ "pBuf")) (loopLocals o r maxCount s₄) (loopLocals o r maxCount (s.next M o r))
    (by decide) rfl (hone _) (Machine.apply_add (c := .uint32) rfl rfl hcount) (by rw [loopLocals, assigned?, if_pos rfl, hkept]; rfl)
  simp only [runAll, Stmt.exec, hpollBuf, hpollLen, hstructSize, hslot, hnumRecs, Option.bind_eq_bind, Option.bind_some]

end Turn

/-! ## The loop -/

/-- The number of records that a decoder decodes: there are that many wanted, that many poll results and room for that many structures. -/
def recordCount (M : Machine α) (o : Options) (r : Record) (maxCount structOutSize : Nat) : Nat :=
  min maxCount (min (M.buffer.length / recordLength o r) (structOutSize / structSize M r))

/-- How far a decoder has come in front of a turn. -/
def turnProgress (M : Machine α) (o : Options) (r : Record) (structOutSize k : Nat) : Progress :=
  ⟨k, k, k * recordLength o r, M.buffer.length - k * recordLength o r, structOutSize - k * structSize M r⟩

/-- A turn of the loop takes the progress of a record to that of the next one. -/
theorem next_turnProgress (M : Machine α) (o : Options) (r : Record) (structOutSize k : Nat) :
    (turnProgress M o r structOutSize k).next M o r = turnProgress M o r structOutSize (k + 1) := by
  simp only [Progress.next, turnProgress, Nat.succ_mul, Nat.sub_sub]

/-- The variables of a decoder in front of a turn. -/
def turnLocals (M : Machine α) (o : Options) (r : Record) (maxCount structOutSize k : Nat) : List (Local α) :=
  loopLocals o r maxCount (turnProgress M o r structOutSize k)

/-- There is one more piece of a size behind some of them. -/
theorem lt_div_iff_le_sub {k total size : Nat} (h : 0 < size) : k < total / size ↔ size ≤ total - k * size := by
  have hmul : (k + 1) * size = k * size + size := Nat.succ_mul k size
  rw [Nat.lt_iff_add_one_le, Nat.le_div_iff_mul_le h, hmul]
  omega

/-- What a turn does: it reads its poll result, byte after byte, and writes the members of its structure. -/
def IsTurn (o : Options) (r : Record) (k : Nat) (es : List (Event α)) : Prop :=
  ReadsWrites es (List.range' (k * recordLength o r) (recordLength o r))
    ((structMembers o r).map fun m => (structName r, k, m.2))

/-- What a turn does, value by value: behind the timestamp it reads every field and writes its member. -/
def FillsStructure (M : Machine α) (o : Options) (r : Record) (k : Nat) (es : List (Event α)) : Prop :=
  ∃ es₁, es = es₁ ++ r.layout.fields.flatMap (fieldEvents M o r k (k * recordLength o r + o.timestampBytes.toNat)) ∧
    ReadsWrites es₁ (List.range' (k * recordLength o r) o.timestampBytes.toNat) [(structName r, k, o.timestampName)]

/-- A turn that fills a structure reads one poll result and writes the members in their order. -/
theorem FillsStructure.isTurn {o : Options} {r : Record} {k : Nat} {es : List (Event α)} (h : FillsStructure M o r k es)
    (hchain : PlacedField.Consecutive 0 r.layout.size r.layout.fields) : IsTurn o r k es := by
  obtain ⟨es₁, rfl, hes₁⟩ := h
  have hall := hes₁.append (readsWrites_fields M o r k (k * recordLength o r + o.timestampBytes.toNat) hchain)
  have hmembers : (structName r, k, o.timestampName) :: r.layout.fields.map (fun f => (structName r, k, memberName f)) =
      (structMembers o r).map fun m => (structName r, k, m.2) := by
    rw [structMembers, List.map_cons, List.map_map]
    rfl
  rw [Nat.add_zero, Nat.sub_zero, List.range'_append_1] at hall
  rw [IsTurn, ← hmembers]
  exact hall

section Loop

variable {o : Options} {r : Record} {maxCount structOutSize k : Nat}

/-- The sizes and counts of a call fit into the types of the parameters. -/
structure CallFits (M : Machine α) (o : Options) (r : Record) (maxCount structOutSize : Nat) : Prop where
  positive : 0 < o.timestampBytes.toNat
  length : recordLength o r < 4294967296
  buffer : M.buffer.length < 4294967296
  maxCount : maxCount < 65536
  structOutSize : structOutSize < 4294967296

theorem CallFits.length_pos (hfits : CallFits M o r maxCount structOutSize) : 0 < recordLength o r :=
  Nat.add_pos_left hfits.positive _

/-- The loop goes on as long as there are records to decode. -/
theorem test_decoderCondition (scope : Scope α) (hfits : CallFits M o r maxCount structOutSize) (hk : k ≤ recordCount M o r maxCount structOutSize)
    (mem : Memory α) :
    Frame.test M scope ⟨turnLocals M o r maxCount structOutSize k, mem⟩ (decoderCondition r) =
      some (decide (k < recordCount M o r maxCount structOutSize), ⟨turnLocals M o r maxCount structOutSize k, mem⟩) := by
  have hmodulus : IntType.uint32.modulus = 4294967296 := rfl
  have hmax := hfits.maxCount
  have hbuffer := hfits.buffer
  have hroom := hfits.structOutSize
  have hle : k ≤ maxCount := Nat.le_trans hk (Nat.min_le_left _ _)
  have hvar : ∀ (name : String) {v : Value α}, scope.variable (turnLocals M o r maxCount structOutSize k) name = v →
      (Expr.var name).eval M scope (turnLocals M o r maxCount structOutSize k) mem = some (v, mem) := fun _ _ hv => eval_var hv
  have hwanted := eval_binary (by decide) (hvar "numRecs" rfl) (hvar "maxRecCount" rfl)
    (Machine.apply_less (M := M) (a := k) (b := maxCount) (c := .uint32) rfl rfl (by omega) (by omega))
  have hresults := eval_binary (by decide) (hvar "pollBufLen" rfl) (hvar "recLen" rfl)
    (Machine.apply_atLeast (M := M) (c := .uint32) rfl rfl
      (show M.buffer.length - k * recordLength o r < IntType.uint32.modulus by omega) hfits.length)
  have hsize : (Expr.sizeOf (.struct (structName r))).eval M scope (turnLocals M o r maxCount structOutSize k) mem =
      some (.int M.sizeType (structSize M r), mem) := eval_sizeOf _
  have hrooms := eval_binary (by decide) (hvar "structOutSize" rfl) hsize
    (Machine.apply_atLeast (M := M) M.common_sizeType rfl
      (M.lt_modulus_sizeType (show structOutSize - k * structSize M r < 4294967296 by omega)) (M.sizeOf_lt _))
  have hall := eval_both ((eval_group _).trans (eval_both ((eval_group _).trans hwanted) ((eval_group _).trans hresults)))
    ((eval_group _).trans hrooms)
  have hdecided : ((decide (k < maxCount) && decide (recordLength o r ≤ (turnProgress M o r structOutSize k).pollLeft)) &&
      decide (structSize M r ≤ (turnProgress M o r structOutSize k).structLeft)) =
        decide (k < recordCount M o r maxCount structOutSize) := by
    rw [turnProgress, ← Bool.decide_and, ← Bool.decide_and, decide_eq_decide, ← lt_div_iff_le_sub hfits.length_pos,
      ← lt_div_iff_le_sub (structSize_pos M r), recordCount, Nat.lt_min, Nat.lt_min, and_assoc]
  rw [hdecided] at hall
  exact test_eq hall (Value.truth?_ofBool _)

/-- What is left behind the first turns is enough for one more. -/
theorem CallFits.room (hfits : CallFits M o r maxCount structOutSize) (hk : k < recordCount M o r maxCount structOutSize) :
    k < maxCount ∧ recordLength o r ≤ M.buffer.length - k * recordLength o r ∧ structSize M r ≤ structOutSize - k * structSize M r := by
  obtain ⟨hmax, hboth⟩ := Nat.lt_min.1 hk
  obtain ⟨hresults, hrooms⟩ := Nat.lt_min.1 hboth
  exact ⟨hmax, (lt_div_iff_le_sub hfits.length_pos).1 hresults, (lt_div_iff_le_sub (structSize_pos M r)).1 hrooms⟩

/-- One turn: it reads one poll result and fills one structure, and leaves the variables of the next turn. -/
theorem runInside_decoderStep (h : DecoderScope M scope o r) (hfits : CallFits M o r maxCount structOutSize)
    (hchain : PlacedField.Consecutive 0 r.layout.size r.layout.fields) (hk : k < recordCount M o r maxCount structOutSize) (mem : Memory α) :
    ∃ mem' es, runInside M scope (decoderStep o r) ⟨turnLocals M o r maxCount structOutSize k, mem⟩ =
        some (⟨turnLocals M o r maxCount structOutSize (k + 1), mem'⟩, none) ∧
      mem'.trace = mem.trace ++ es ∧ FillsStructure M o r k es := by
  obtain ⟨hmax, hresult, hroom⟩ := hfits.room hk
  have hlength := hfits.length
  have hbuffer := hfits.buffer
  have hstruct := hfits.structOutSize
  have hcount := hfits.maxCount
  have hpos := hfits.length_pos
  have hbytes : recordLength o r = o.timestampBytes.toNat + r.layout.size := rfl
  have hin : k * recordLength o r + recordLength o r ≤ M.buffer.length := by omega
  obtain ⟨mem₁, es₁, htimestamp, htrace₁, hes₁⟩ := h.exec_timestamp maxCount (turnProgress M o r structOutSize k) mem
    (Nat.le_trans (Nat.add_le_add_left (Nat.le_add_right _ _) _) hin)
  let es₂ := r.layout.fields.flatMap (fieldEvents M o r k (k * recordLength o r + o.timestampBytes.toNat))
  have hfields := h.runAll_fields maxCount (turnProgress M o r structOutSize k) mem₁ hchain (by omega) hin
  have hadvance := runAll_advance scope maxCount (turnProgress M o r structOutSize k) (mem₁.log es₂)
    (show k + 1 < 4294967296 by omega) hresult (show M.buffer.length - k * recordLength o r < 4294967296 by omega) hin hroom
    (show structOutSize - k * structSize M r < 4294967296 by omega) (k * recordLength o r)
  rw [next_turnProgress] at hadvance
  have hrun : runAll (Stmt.exec M scope) (decoderStep o r) ⟨turnLocals M o r maxCount structOutSize k, mem⟩ =
      some (⟨fieldPointer o r (k * recordLength o r) ++ turnLocals M o r maxCount structOutSize (k + 1), mem₁.log es₂⟩, none) := by
    rw [decoderStep, List.append_assoc [_], List.append_assoc, List.singleton_append, turnLocals, runAll_cons htimestamp,
      runAll_append hfields]
    exact hadvance
  refine ⟨mem₁.log es₂, es₁ ++ es₂, runInside_eq _ hrun rfl, ?_, es₁, rfl, hes₁⟩
  rw [Memory.log, htrace₁, List.append_assoc]

/-- The loop makes one turn for every record that is still to be decoded. -/
theorem runLoop_decoder (h : DecoderScope M scope o r) (hfits : CallFits M o r maxCount structOutSize)
    (hchain : PlacedField.Consecutive 0 r.layout.size r.layout.fields) (rest : Nat)
    (hk : k + rest = recordCount M o r maxCount structOutSize) (mem : Memory α) :
    ∃ (mem' : Memory α) (turns : List (List (Event α))),
      Frame.runLoop M scope (decoderCondition r) (decoderStep o r) ⟨turnLocals M o r maxCount structOutSize k, mem⟩ =
        some (⟨turnLocals M o r maxCount structOutSize (recordCount M o r maxCount structOutSize), mem'⟩, none) ∧
      mem'.trace = mem.trace ++ turns.flatMap (fun es => .turn :: es) ∧ turns.length = rest ∧
      ∀ (i : Nat) es, turns[i]? = some es → FillsStructure M o r (k + i) es := by
  induction rest generalizing k mem with
  | zero =>
    obtain rfl : k = recordCount M o r maxCount structOutSize := hk
    have htest := test_decoderCondition scope hfits (Nat.le_refl _) mem
    rw [decide_eq_false (Nat.lt_irrefl _)] at htest
    exact ⟨mem, [], runLoop_stop htest, by simp, rfl, fun i es hi => absurd hi (by simp)⟩
  | succ rest ih =>
    have htest := test_decoderCondition scope hfits (show k ≤ recordCount M o r maxCount structOutSize by omega) mem
    rw [decide_eq_true (by omega)] at htest
    obtain ⟨mem₁, es, hturn, htrace, hes⟩ := runInside_decoderStep (k := k) h hfits hchain (by omega) (mem.log [.turn])
    obtain ⟨mem', turns, hloop, hturns, hlength, hall⟩ := ih (k := k + 1) (by omega) mem₁
    refine ⟨mem', es :: turns, (runLoop_turn htest hturn).trans hloop, ?_, by rw [List.length_cons, hlength], fun i es' hi => ?_⟩
    · rw [hturns, htrace]
      simp [Memory.log]
    · cases i with
      | zero =>
        cases hi
        exact hes
      | succ i =>
        have hlater := hall i es' hi
        rwa [Nat.add_right_comm, Nat.add_assoc] at hlater

/-- The variables that a decoder starts with. -/
def parameterLocals (M : Machine α) (maxCount structOutSize : Nat) : List (Local α) :=
  [ ⟨"pPollBuf", .pointer (.const .uint8), .bytes 0⟩, ⟨"pollBufLen", .uint32, .int .uint32 M.buffer.length⟩,
    ⟨"pStructOut", .pointer (.named "void"), .room⟩, ⟨"structOutSize", .uint32, .int .uint32 structOutSize⟩,
    ⟨"maxRecCount", .uint16, .int .uint16 maxCount⟩, ⟨"decodeState", .named "RaftBusDeviceDecodeState&", .state⟩ ]

/-- A decoder is entered with the buffer, the room for the structs, their number and the state. -/
theorem locals_decoderSignature (hfits : CallFits M o r maxCount structOutSize) :
    (decoderSignature r).locals M
        [.bytes 0, .int .uint32 M.buffer.length, .room, .int .uint32 structOutSize, .int .uint16 maxCount, .state] =
      parameterLocals M maxCount structOutSize := by
  have hpoll : M.convert .uint32 (.int .uint32 M.buffer.length) = .int .uint32 M.buffer.length :=
    Machine.convert_uint32 _ hfits.buffer
  have hstruct : M.convert .uint32 (.int .uint32 structOutSize) = .int .uint32 structOutSize :=
    Machine.convert_uint32 _ hfits.structOutSize
  have hwanted : M.convert .uint16 (.int .uint16 maxCount) = .int .uint16 maxCount := Machine.convert_natCast rfl rfl _ hfits.maxCount
  have hbytes : M.convert (.pointer (.const .uint8)) (.bytes 0) = .bytes 0 := rfl
  have hvoid : M.convert (.pointer (.named "void")) .room = .room := rfl
  have hstate : M.convert (.named "RaftBusDeviceDecodeState&") .state = .state := rfl
  simp [Signature.locals, decoderSignature, stateParam, parameterLocals, hpoll, hstruct, hwanted, hbytes, hvoid, hstate]

/-- A decoder starts with the variables of its first turn. -/
theorem runAll_decoderBody (h : DecoderScope M scope o r) (hfits : CallFits M o r maxCount structOutSize) (mem : Memory α) :
    runAll (Block.exec M scope) (decoderBody o r) ⟨parameterLocals M maxCount structOutSize, mem⟩ =
      runAll (Block.exec M scope) [.loop (decoderCondition r) (decoderStep o r), .simple (.ret (.var "numRecs"))]
        ⟨turnLocals M o r maxCount structOutSize 0, mem⟩ := by
  let outLocals : List (Local α) :=
    ⟨"pOut", .pointer (.struct (structName r)), .slot (structName r) 0⟩ :: parameterLocals M maxCount structOutSize
  let lengthLocals : List (Local α) := ⟨"recLen", .const .uint32, .int .uint32 (recordLength o r)⟩ :: outLocals
  have hroom : (Stmt.define (.pointer (.struct (structName r))) "pOut" (.cast (.pointer (.struct (structName r))) (.var "pStructOut"))).exec
      M scope ⟨parameterLocals M maxCount structOutSize, mem⟩ = some (⟨outLocals, mem⟩, none) :=
    exec_define _ _ (eval_cast (eval_var rfl))
  obtain ⟨k, hsum⟩ := Machine.exists_apply_add_ofDecimal (M := M) hfits.length
  have hsize : (Expr.decimal r.layout.size).eval M scope outLocals mem = some (.ofDecimal r.layout.size, mem) :=
    eval_decimal _
  have hkept : M.convert (.const .uint32) (.int k ((recordLength o r : Nat) : Int)) = .int .uint32 (recordLength o r) :=
    Machine.convert_natCast rfl rfl k hfits.length
  have hrecLen : (Stmt.define (.const .uint32) "recLen" (.binary .add (.var "POLL_RESULT_TIMESTAMP_SIZE") (.decimal r.layout.size))).exec
      M scope ⟨outLocals, mem⟩ = some (⟨lengthLocals, mem⟩, none) := by
    have hdefine := exec_define (.const .uint32) "recLen" (eval_binary (by decide) (eval_constant rfl h.size) hsize hsum)
    rw [recordLength] at hkept
    rw [hdefine, hkept]
    rfl
  have hnumRecs : (Stmt.define .uint32 "numRecs" (.decimal 0)).exec M scope ⟨lengthLocals, mem⟩ =
      some (⟨turnLocals M o r maxCount structOutSize 0, mem⟩, none) := by
    rw [exec_define _ _ (eval_decimal 0), turnLocals, turnProgress, Nat.zero_mul, Nat.zero_mul]
    rfl
  refine (runAll_simple hroom).trans ?_
  refine (runAll_simple hrecLen).trans ?_
  exact runAll_simple hnumRecs

/-- A decoder returns the number of records, and its run is one turn for each of them. -/
theorem meaning_decoder (h : DecoderScope M scope o r) (hfits : CallFits M o r maxCount structOutSize)
    (hchain : PlacedField.Consecutive 0 r.layout.size r.layout.fields) (mem : Memory α) :
    ∃ (mem' : Memory α) (turns : List (List (Event α))), meaning M scope (decoderSignature r) (decoderBody o r)
        [.bytes 0, .int .uint32 M.buffer.length, .room, .int .uint32 structOutSize, .int .uint16 maxCount, .state] mem =
          some (.int .uint32 (recordCount M o r maxCount structOutSize), mem') ∧
      mem'.trace = mem.trace ++ turns.flatMap (fun es => .turn :: es) ∧ turns.length = recordCount M o r maxCount structOutSize ∧
      ∀ (k : Nat) es, turns[k]? = some es → FillsStructure M o r k es := by
  obtain ⟨mem', turns, hloop, htrace, hcount, hturns⟩ :=
    runLoop_decoder (k := 0) h hfits hchain (recordCount M o r maxCount structOutSize) (Nat.zero_add _) mem
  have hrun : runAll (Block.exec M scope) (decoderBody o r) ⟨parameterLocals M maxCount structOutSize, mem⟩ =
      some (⟨turnLocals M o r maxCount structOutSize (recordCount M o r maxCount structOutSize), mem'⟩,
        some (.int .uint32 (recordCount M o r maxCount structOutSize))) := by
    refine (runAll_decoderBody h hfits mem).trans ?_
    refine (runAll_cons hloop).trans ?_
    exact runAll_ret (eval_var rfl)
  have hmax := hfits.maxCount
  have hreturned : M.convert .uint32 (.int .uint32 (recordCount M o r maxCount structOutSize)) =
      .int .uint32 (recordCount M o r maxCount structOutSize) :=
    Machine.convert_uint32 _ (Nat.lt_of_le_of_lt (Nat.min_le_left _ _) (by omega))
  refine ⟨mem', turns, ?_, htrace, hcount, fun k es hes => ?_⟩
  · rw [← locals_decoderSignature hfits] at hrun
    rw [meaning_eq rfl hrun]
    exact congrArg (fun v => some (v, mem')) hreturned
  · have hturn := hturns k es hes
    rwa [Nat.zero_add] at hturn

end Loop

end DeviceCatalog.Artifact
