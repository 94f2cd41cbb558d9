import DeviceCatalog.Artifact.Scaling
import DeviceCatalog.Proofs.Composition
import DeviceCatalog.Proofs.PollLayout

/-!
# What the extraction helpers read

A helper called for a position reads the bytes of its type from there on, each once and nothing else, and gives the value that they have
in the type (`givesField_integer`, `givesField_float`). A file that holds all helpers knows them under their names (`givesField_helpers`).
-/

namespace DeviceCatalog.Artifact

open CSource

variable {α : Type} {M : Machine α} {scope : Scope α} {ls : List (Local α)}

/-! ## Helpers -/

/-- The head of a helper. -/
def helperSignature (start : String) (t : FieldType) : Signature where
  qualifiers := ["static", "inline"]
  result := t.cType
  name := start ++ t.extractor
  params := [[bufferParam, ⟨.uint32, "offset"⟩]]

/-- The integer type of a stored value, or of its bits. -/
def storedInt : FieldType → IntType
  | .int8 => ⟨true, 8⟩
  | .uint8 => .uint8
  | .int16 _ => ⟨true, 16⟩
  | .uint16 _ => .uint16
  | .int32 _ => .int
  | .uint32 _ | .float32 _ => .uint32

/-- The number that the bytes of a field make, as far as its integer type goes. -/
def storedNumber (t : FieldType) (bs : List UInt8) : Int :=
  (storedInt t).wrap ((t.order?.getD .little).number bs)

/-- The value that the bytes of a field have. -/
def fieldValue (M : Machine α) (t : FieldType) (bs : List UInt8) : Value α :=
  if t.isInteger then .int (storedInt t) (storedNumber t bs)
  else .real .single (M.round .single (M.ofBits (UInt32.ofInt (storedNumber t bs))))

/-- An integer type of a field is written as the type of its stored value. -/
theorem number?_cType {t : FieldType} (h : t.isInteger = true) : t.cType.number? = some (.int (storedInt t)) := by
  cases t
  case float32 => cases h
  all_goals rfl

theorem exists_number?_cType (t : FieldType) : ∃ n, t.cType.number? = some n := by
  cases t <;> exact ⟨_, rfl⟩

/-- A conversion to an integer type brings a number into the range of its stored value. -/
theorem convert_cType_int {t : FieldType} (h : t.isInteger = true) (s : IntType) (n : Int) :
    M.convert t.cType (.int s n) = .int (storedInt t) ((storedInt t).wrap n) := by
  rw [Machine.convert_of_number (number?_cType h)]
  rfl

/-- A value of a field is a number. -/
theorem isNumber_fieldValue (M : Machine α) (t : FieldType) (bs : List UInt8) : (fieldValue M t bs).IsNumber := by
  unfold fieldValue
  split
  · exact Value.isNumber_int _ _
  · exact Value.isNumber_real _ _

/-- A function that reads a field: called for a place in the buffer it reads the bytes of the type from there on and gives their value. -/
def GivesField (M : Machine α) (run : Meaning α) (t : FieldType) : Prop :=
  ∀ (p offset : Nat) (k : IntType), offset + t.width ≤ 4294967296 → p + offset + t.width ≤ M.buffer.length → ∀ mem,
    run [.bytes p, .int k offset] mem =
      some (fieldValue M t (bytesAt M (p + offset) t.width), mem.log (readsFrom (p + offset) t.width))

theorem width_le (t : FieldType) : t.width ≤ 4 := by
  cases t <;> simp [FieldType.width]

/-- The variables of a helper that is called for a place. -/
def helperLocals (p offset : Nat) : List (Local α) :=
  [⟨"pBuf", .pointer (.const .uint8), .bytes p⟩, ⟨"offset", .uint32, .int .uint32 offset⟩]

/-- A helper is entered with a pointer into the buffer and an offset. -/
theorem locals_helperSignature (start : String) (t : FieldType) {p offset : Nat} (k : IntType) (hfit : offset < 4294967296) :
    (helperSignature start t).locals M [.bytes p, .int k offset] = helperLocals p offset := by
  have hoffset : M.convert .uint32 (.int k offset) = .int .uint32 offset := Machine.convert_uint32 k hfit
  have hbuf : M.convert (.pointer (.const .uint8)) (.bytes p) = .bytes p := rfl
  simp [Signature.locals, helperSignature, bufferParam, helperLocals, hoffset, hbuf]

/-- A helper for an integer type reads the bytes of the type and gives their value. -/
theorem givesField_integer {start : String} {t : FieldType} (hinteger : t.isInteger = true) :
    GivesField M (meaning M scope (helperSignature start t) (helperBody start t)) t := by
  intro p offset k hfit hin mem
  have hpos := t.width_pos
  have hbody : helperBody start t =
      [.simple (.ret (.cast t.cType (.group (composeBytes t.width (some "offset") (t.order?.getD .little)))))] := by
    cases t
    case float32 => cases hinteger
    all_goals rfl
  have hbuf : scope.variable (helperLocals p offset) "pBuf" = .bytes p := rfl
  have hbase : BaseIs scope (helperLocals p offset) (some "offset") offset := rfl
  have hcompose := eval_composeBytes (M := M) (t.order?.getD .little) hbuf hbase (width_le t) hfit hin hpos mem
  have hvalue : (Expr.cast t.cType (.group (composeBytes t.width (some "offset") (t.order?.getD .little)))).eval M scope
      (helperLocals p offset) mem =
        some (.int (storedInt t) (storedNumber t (bytesAt M (p + offset) t.width)), mem.log (readsFrom (p + offset) t.width)) := by
    rw [storedNumber, ← convert_cType_int (M := M) hinteger (composedType t.width)]
    exact eval_cast ((eval_group _).trans hcompose)
  have hrun : runAll (Block.exec M scope) (helperBody start t) ⟨(helperSignature start t).locals M [.bytes p, .int k offset], mem⟩ =
      some (⟨helperLocals p offset, mem.log (readsFrom (p + offset) t.width)⟩,
        some (.int (storedInt t) (storedNumber t (bytesAt M (p + offset) t.width)))) := by
    rw [hbody, locals_helperSignature start t k (by omega)]
    exact runAll_ret hvalue
  have hresult : M.convert t.cType (.int (storedInt t) (storedNumber t (bytesAt M (p + offset) t.width))) =
      fieldValue M t (bytesAt M (p + offset) t.width) := by
    rw [convert_cType_int hinteger, fieldValue, if_pos hinteger, storedNumber, IntType.wrap_wrap]
  exact hresult ▸ meaning_eq (s := helperSignature start t) rfl hrun

/-- The variables of the helper of a float, with what the union holds. -/
def floatLocals (p offset : Nat) (union : Value α) : List (Local α) :=
  ⟨"converter", converterType, union⟩ :: helperLocals p offset

/-- The helper of a float has its bytes read by the helper of the unsigned integer of the same order, and shows them as a float. -/
theorem givesField_float {start : String} {order : ByteOrder}
    (hbits : GivesField M (scope.call M (start ++ (bitsType order).extractor)) (bitsType order)) :
    GivesField M (meaning M scope (helperSignature start (.float32 order)) (helperBody start (.float32 order))) (.float32 order) := by
  intro p offset k hfit hin mem
  have hcall := hbits p offset .uint32 hfit hin mem
  let n := storedNumber (.float32 order) (bytesAt M (p + offset) 4)
  have hread : (Expr.call (start ++ (bitsType order).extractor) [.var "pBuf", .var "offset"]).eval M scope
      (floatLocals p offset .unknown) mem = some (.int .uint32 n, mem.log (readsFrom (p + offset) 4)) := by
    have hbuf : (Expr.var "pBuf").eval M scope (floatLocals p offset .unknown) mem = some (.bytes p, mem) := eval_var rfl
    have hoffset : (Expr.var "offset").eval M scope (floatLocals p offset .unknown) mem = some (.int .uint32 offset, mem) :=
      eval_var rfl
    exact (eval_call (evalAll_cons hbuf (evalAll_cons hoffset evalAll_nil))).trans hcall
  have hassign : (Stmt.assign (.member (.var "converter") "u")
      (.call (start ++ (bitsType order).extractor) [.var "pBuf", .var "offset"])).exec M scope ⟨floatLocals p offset .unknown, mem⟩ =
        some (⟨floatLocals p offset (.bits (UInt32.ofInt n)), mem.log (readsFrom (p + offset) 4)⟩, none) :=
    exec_assign hread rfl
  have hdeclare : (Stmt.declare converterType "converter").exec M scope ⟨helperLocals p offset, mem⟩ =
      some (⟨floatLocals p offset .unknown, mem⟩, none) := rfl
  have hmember : (Expr.member (.var "converter") "f").eval M scope (floatLocals p offset (.bits (UInt32.ofInt n)))
      (mem.log (readsFrom (p + offset) 4)) = some (.real .single (M.ofBits (UInt32.ofInt n)), mem.log (readsFrom (p + offset) 4)) :=
    bind_eq_of_eq_some _ (eval_var rfl)
  have hrun : runAll (Block.exec M scope) (helperBody start (.float32 order))
      ⟨(helperSignature start (.float32 order)).locals M [.bytes p, .int k offset], mem⟩ =
        some (⟨floatLocals p offset (.bits (UInt32.ofInt n)), mem.log (readsFrom (p + offset) 4)⟩,
          some (.real .single (M.ofBits (UInt32.ofInt n)))) := by
    rw [locals_helperSignature start _ k (by simp only [FieldType.width] at hfit; omega)]
    refine (runAll_simple hdeclare).trans ?_
    refine (runAll_simple hassign).trans ?_
    exact runAll_ret hmember
  exact meaning_eq rfl hrun

/-! ## Files with helpers -/

/-- Some of the helpers. -/
def someHelpers (start : String) (ts : List FieldType) : List Item :=
  ts.flatMap fun t => [helper start t, .blank]

/-- The functions of the helpers, in order. -/
theorem functions_someHelpers (start : String) (ts : List FieldType) :
    (someHelpers start ts).filterMap Item.function? = ts.map fun t => start ++ t.extractor := by
  induction ts with
  | nil => rfl
  | cons t ts ih =>
    rw [someHelpers, List.flatMap_cons, List.filterMap_append, List.map_cons]
    exact congrArg ((start ++ t.extractor) :: ·) ih

/-- Different types have helpers of different names. -/
theorem extractor_injective : Function.Injective FieldType.extractor := by
  have hall : ∀ s ∈ FieldType.all, ∀ t ∈ FieldType.all, s.extractor = t.extractor → s = t := by decide
  intro s t h
  exact hall s s.mem_all t t.mem_all h

section Files

variable {start : String} {front rest : List Item}

/-- A helper is found under its name, and sees what stands in front of it. -/
theorem lookup_helper (hfront : ∀ t, start ++ FieldType.extractor t ∉ front.filterMap Item.function?) {before after : List FieldType}
    {t : FieldType} (ht : t ∉ before) :
    (Scope.ofItems M (front ++ someHelpers start (before ++ t :: after) ++ rest)).functions.lookup (start ++ t.extractor) =
      some (meaning M (Scope.ofItems M (front ++ someHelpers start before)) (helperSignature start t) (helperBody start t)) := by
  have hsplit : front ++ someHelpers start (before ++ t :: after) ++ rest =
      (front ++ someHelpers start before) ++ .function .ownLine (helperSignature start t) (helperBody start t) ::
        (.blank :: someHelpers start after ++ rest) := by
    simp [someHelpers, helper, helperSignature]
  have hname : start ++ t.extractor ∉ (front ++ someHelpers start before).filterMap Item.function? := by
    rw [List.filterMap_append, functions_someHelpers, List.mem_append, List.mem_map]
    rintro (h | ⟨u, hu, h⟩)
    · exact hfront t h
    · rw [extractor_injective ((String.append_right_inj start).1 h)] at hu
      exact ht hu
  rw [hsplit]
  exact Scope.lookup_function (s := helperSignature start t) hname

/-- Among other items a helper for an integer type keeps its meaning, if no function in front of it has a name of a helper. -/
theorem givesField_someHelpers (hfront : ∀ t, start ++ FieldType.extractor t ∉ front.filterMap Item.function?) (rest : List Item)
    {ts : List FieldType} {t : FieldType} (ht : t ∈ ts) (hinteger : t.isInteger = true) :
    GivesField M ((Scope.ofItems M (front ++ someHelpers start ts ++ rest)).call M (start ++ t.extractor)) t := by
  obtain ⟨before, after, rfl, hbefore⟩ := List.eq_append_cons_of_mem ht
  have hcall : (Scope.ofItems M (front ++ someHelpers start (before ++ t :: after) ++ rest)).call M (start ++ t.extractor) =
      meaning M (Scope.ofItems M (front ++ someHelpers start before)) (helperSignature start t) (helperBody start t) := by
    funext vs mem
    rw [Scope.call, lookup_helper hfront hbefore]
  rw [hcall]
  exact givesField_integer hinteger

/-- A file with all helpers behind functions of other names knows the helpers. -/
theorem givesField_helpers (hfront : ∀ t, start ++ FieldType.extractor t ∉ front.filterMap Item.function?) (t : FieldType) :
    GivesField M ((Scope.ofItems M (front ++ helpers start ++ rest)).call M (start ++ t.extractor)) t := by
  by_cases hinteger : t.isInteger = true
  · exact givesField_someHelpers hfront rest t.mem_all hinteger
  · obtain ⟨order, rfl⟩ : ∃ order, t = .float32 order := by
      cases t
      case float32 order => exact ⟨order, rfl⟩
      all_goals exact absurd rfl hinteger
    obtain ⟨before, after, hall, hbefore, hbits⟩ : ∃ before after, FieldType.all = before ++ .float32 order :: after ∧
        .float32 order ∉ before ∧ bitsType order ∈ before := by
      cases order
      · exact ⟨FieldType.all.take 11, FieldType.all.drop 12, by decide, by decide, by decide⟩
      · exact ⟨FieldType.all.take 10, FieldType.all.drop 11, by decide, by decide, by decide⟩
    have hcall : (Scope.ofItems M (front ++ helpers start ++ rest)).call M (start ++ (FieldType.float32 order).extractor) =
        meaning M (Scope.ofItems M (front ++ someHelpers start before)) (helperSignature start (.float32 order))
          (helperBody start (.float32 order)) := by
      funext vs mem
      have hhelpers : helpers start = someHelpers start (before ++ .float32 order :: after) := by rw [← hall]; rfl
      rw [Scope.call, hhelpers, lookup_helper hfront hbefore]
    rw [hcall]
    refine givesField_float ?_
    have hearlier := givesField_someHelpers (M := M) hfront [] hbits rfl
    rwa [List.append_nil] at hearlier

end Files

/-! ## Fields and scaled values -/

/-- The bytes of a field of the poll response at some position of the buffer. -/
def fieldBytes (M : Machine α) (q : Nat) (f : PlacedField) : List UInt8 :=
  bytesAt M (q + f.offset) f.type.width

/-- A call that reads a field. -/
theorem eval_fieldCall {function : String} {t : FieldType} (hfield : GivesField M (scope.call M function) t) {q offset : Nat}
    (hbuf : scope.variable ls "pBuf" = .bytes q) (hfit : offset + t.width ≤ 4294967296) (hin : q + offset + t.width ≤ M.buffer.length)
    (mem : Memory α) :
    (Expr.call function [.var "pBuf", .decimal offset]).eval M scope ls mem =
      some (fieldValue M t (bytesAt M (q + offset) t.width), mem.log (readsFrom (q + offset) t.width)) := by
  have hwidth := t.width_pos
  obtain ⟨k, hk, -⟩ := Value.exists_ofDecimal_eq (α := α) (n := offset) (by omega)
  have hoffset : (Expr.decimal offset).eval M scope ls mem = some (.int k offset, mem) := by rw [eval_decimal, hk]
  exact (eval_call (evalAll_cons (eval_var hbuf) (evalAll_cons hoffset evalAll_nil))).trans (hfield q offset k hfit hin mem)

/-- The value of the literal of a divisor or an offset. -/
def literalValue (M : Machine α) (kind : OutputKind) (x : Binary64) : Value α :=
  match scaleLiteral kind x with
  | .decimal n => .ofDecimal n
  | .double x => .real .double (M.literal .double x)
  | _ => .real .single (M.literal .single x)

/-- The literal of a scale is evaluated without touching the memory. -/
theorem eval_scaleLiteral (kind : OutputKind) (x : Binary64) (mem : Memory α) :
    (scaleLiteral kind x).eval M scope ls mem = some (literalValue M kind x, mem) := by
  unfold literalValue
  cases kind with
  | float => exact eval_single x
  | int =>
    unfold scaleLiteral Expr.number
    dsimp only
    split
    · split
      · exact eval_decimal _
      · exact eval_double x
    · exact eval_double x

theorem isNumber_literalValue (M : Machine α) (kind : OutputKind) (x : Binary64) : (literalValue M kind x).IsNumber := by
  unfold literalValue
  split
  · exact Value.isNumber_ofDecimal _
  · exact Value.isNumber_real _ _
  · exact Value.isNumber_real _ _

/-- The value of a scaled value whose raw value is given. -/
def scaled (M : Machine α) (a : Attribute) (raw : Value α) : Value α :=
  if a.isScaled then
    let quotient := M.operate .div raw (literalValue M a.outputKind a.divisor)
    let distance := literalValue M a.outputKind a.offset.abs
    if a.offset.isPositive then M.operate .add quotient distance
    else if a.offset.isNegative then M.operate .sub quotient distance
    else quotient
  else
    match a.outputKind with
    | .float => M.convert .float raw
    | .int => raw

/-- Scaling depends on nothing but the raw value, and does nothing else. -/
theorem eval_scaledValue (a : Attribute) {raw : Expr} {v : Value α} {mem mem' : Memory α} (hv : v.IsNumber)
    (h : raw.eval M scope ls mem = some (v, mem')) : (scaledValue a raw).eval M scope ls mem = some (scaled M a v, mem') := by
  have hliteral := isNumber_literalValue M a.outputKind
  have hquotient : (Expr.group (.binary .div raw (scaleLiteral a.outputKind a.divisor))).eval M scope ls mem =
      some (M.operate .div v (literalValue M a.outputKind a.divisor), mem') :=
    (eval_group _).trans (eval_operation (by decide) hv (hliteral a.divisor) h (eval_scaleLiteral a.outputKind a.divisor mem'))
  have hnumber : (M.operate .div v (literalValue M a.outputKind a.divisor)).IsNumber := Machine.isNumber_operate .div hv (hliteral a.divisor)
  have hdistance : (scaleLiteral a.outputKind a.offset.abs).eval M scope ls mem' = some (literalValue M a.outputKind a.offset.abs, mem') :=
    eval_scaleLiteral a.outputKind a.offset.abs mem'
  unfold scaledValue scaled
  split
  · dsimp only
    split
    · exact eval_operation (by decide) hnumber (hliteral _) hquotient hdistance
    · split
      · exact eval_operation (by decide) hnumber (hliteral _) hquotient hdistance
      · exact hquotient
  · cases a.outputKind with
    | float => exact eval_cast h
    | int => exact h

end DeviceCatalog.Artifact
