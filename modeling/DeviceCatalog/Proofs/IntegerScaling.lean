import DeviceCatalog.Proofs.FieldValues
import DeviceCatalog.Proofs.WholeNumbers

/-!
# Scaling in integers

A field that is stored and wanted as an integer and whose divisor and offset are whole is scaled in integers of C: both operands of an
operation are first brought to one type. For all storage types but the unsigned ones of four bytes that is `int`, which holds the stored
number and the divisor as they are. An unsigned number of four bytes stays unsigned and makes the divisor unsigned too, so a divisor below
zero becomes a large one. The number that comes out is the truncated quotient moved by the offset, but for that one case
(`integer_scaling_exact_iff`).
-/

namespace DeviceCatalog

namespace CSource

variable {α : Type}

/-! ## Operations in one type -/

/-- The number fits into `int`. -/
def FitsInt (n : Int) : Prop := -2147483648 ≤ n ∧ n ≤ 2147483647

instance (n : Int) : Decidable (FitsInt n) := inferInstanceAs (Decidable (_ ∧ _))

/-- A number that fits 32 signed bits is kept. -/
theorem IntType.wrap_int_of_fits {n : Int} (h : FitsInt n) : int.wrap n = n := by
  obtain ⟨hlow, hhigh⟩ := h
  exact (wrap_int_eq_iff hlow (by omega)).2 (by omega)

theorem IntType.wrap_int (n : Int) : int.wrap n = Int.bmod n 4294967296 := rfl

/-- In 32 unsigned bits a number is kept up to a multiple of their number. -/
theorem IntType.wrap_uint32 (n : Int) : uint32.wrap n = n % 4294967296 := rfl

/-- What is left of a number in an unsigned type of four bytes gives the same in `int`. -/
theorem IntType.wrap_int_wrap_uint32 (n : Int) : int.wrap (uint32.wrap n) = int.wrap n := by
  rw [wrap_int, wrap_int, wrap_uint32]
  exact Int.emod_bmod n 4294967296

/-- What a signed type of at most four bytes or a shorter unsigned one holds fits into `int`. -/
theorem IntType.fitsInt_of_wrap {t : IntType} (ht : t.signed = true ∧ t.modulus ≤ 4294967296 ∨ t.modulus ≤ 2147483648) {n : Int}
    (h : t.wrap n = n) : FitsInt n := by
  have hpos : 0 < t.modulus := Nat.pow_pos (by decide)
  unfold wrap at h
  unfold FitsInt
  split at h
  · have hlow : -((t.modulus : Int) / 2) ≤ Int.bmod n t.modulus := Int.le_bmod hpos
    have hhigh : Int.bmod n t.modulus < ((t.modulus : Int) + 1) / 2 := Int.bmod_lt hpos
    omega
  · rename_i hunsigned
    have hshort : t.modulus ≤ 2147483648 := ht.resolve_left fun hsigned => hunsigned hsigned.1
    have hlow := Int.emod_nonneg n (b := t.modulus) (by omega)
    have hhigh := Int.emod_lt_of_pos n (b := t.modulus) (by omega)
    omega

/-- A result is brought into the range of its type, which must not be needed when the type is signed. -/
theorem Value.computed_of_fits {t : IntType} {n : Int} (h : t.signed = true → t.wrap n = n) : (computed t n : Value α) = .int t (t.wrap n) := by
  rw [computed, if_neg fun hloses => hloses.2 (h hloses.1)]

theorem Machine.operate_integers (M : Machine α) (op : Operator) (s : IntType) (x : Int) (t : IntType) (y : Int) :
    M.operate op (.int s x) (.int t y) = .ofIntegers op s x t y := rfl

/-- In a type with 32 bits a number is moved by the distance that an `int` holds, up or down. -/
theorem Machine.operate_distance (M : Machine α) {c : IntType} (hc : c = .int ∨ c = .uint32) {q a : Int} (hq : c.wrap q = q)
    (ha : a.natAbs < 2147483648) (hfits : c = .int → FitsInt (q + a)) :
    (0 < a → M.operate .add (.int c q) (.int .int (a.natAbs : Int)) = .int c (c.wrap (q + a))) ∧
      (a < 0 → M.operate .sub (.int c q) (.int .int (a.natAbs : Int)) = .int c (c.wrap (q + a))) := by
  have hcommon : c.common .int = c := by rcases hc with rfl | rfl <;> rfl
  have hdistance : c.wrap (a.natAbs : Int) = a.natAbs := by
    rcases hc with rfl | rfl
    · exact IntType.wrap_int_of_fits ⟨by omega, by omega⟩
    · have hmodulus : IntType.uint32.modulus = 4294967296 := rfl
      exact IntType.wrap_natCast rfl (by omega)
  have hcomputed : (Value.computed c (q + a) : Value α) = .int c (c.wrap (q + a)) := by
    refine Value.computed_of_fits fun hsigned => ?_
    rcases hc with rfl | rfl
    · exact IntType.wrap_int_of_fits (hfits rfl)
    · cases hsigned
  constructor
  · intro hpos
    rw [operate_integers, Value.ofIntegers_add, hcommon, hq, hdistance, ← hcomputed]
    exact congrArg (Value.computed c) (by omega)
  · intro hneg
    rw [operate_integers, Value.ofIntegers_sub, hcommon, hq, hdistance, ← hcomputed]
    exact congrArg (Value.computed c) (by omega)

end CSource

namespace Artifact

open CSource

variable {α : Type} {M : Machine α}

/-! ## Literals -/

/-- A whole divisor or offset that fits is an `int`. -/
theorem literalValue_of_whole {x : Binary64} {n : Int} (h : x.whole? = some n) (hn : n.natAbs < 2147483648) :
    literalValue M .int x = .int .int n := by
  have hliteral : scaleLiteral .int x = .decimal n := by
    have hshort : Nat.pow 10 15 = 1000000000000000 := by decide
    rw [scaleLiteral, Expr.number, h]
    exact if_pos (by omega)
  have hint : Nat.pow 2 31 = 2147483648 := by decide
  rw [literalValue, hliteral]
  exact if_pos (by omega)

/-! ## The type of the computation -/

/-- The type in which a stored number meets the divisor. -/
def quotientType (t : FieldType) : IntType := (storedInt t).common .int

/-- The field is stored as an unsigned number of four bytes. -/
def IsWideUnsigned (t : FieldType) : Prop := ∃ order, t = .uint32 order

/-- A quotient has 32 unsigned bits when the field has, and 32 signed bits otherwise. -/
theorem quotientType_cases {t : FieldType} (h : t.isInteger = true) :
    quotientType t = .int ∧ ¬ IsWideUnsigned t ∨ quotientType t = .uint32 ∧ IsWideUnsigned t := by
  cases t with
  | uint32 order => exact Or.inr ⟨rfl, order, rfl⟩
  | float32 => cases h
  | _ => exact Or.inl ⟨rfl, nofun⟩

/-- What a storage type holds is not changed in the type of the computation. -/
theorem wrap_quotientType {t : FieldType} (h : t.isInteger = true) {x : Int} (hx : (storedInt t).wrap x = x) : (quotientType t).wrap x = x := by
  have hshort : ∀ t ∈ FieldType.all, quotientType t = .int →
      (storedInt t).signed = true ∧ (storedInt t).modulus ≤ 4294967296 ∨ (storedInt t).modulus ≤ 2147483648 := by decide
  rcases quotientType_cases h with ⟨htype, -⟩ | ⟨htype, order, rfl⟩
  · rw [htype]
    exact IntType.wrap_int_of_fits (IntType.fitsInt_of_wrap (hshort t t.mem_all htype) hx)
  · exact hx

/-- The quotient of a stored number and a divisor, both in the type of the computation. -/
def typedQuotient (t : FieldType) (d x : Int) : Int := x.tdiv ((quotientType t).wrap d)

/-- The number that scaling gives a field, in the type of its member. -/
def scaledNumber (t : FieldType) (d a x : Int) : Int := IntType.int.wrap (typedQuotient t d x + a)

/-- The quotient in the type of the field is kept by that type, if it fits 32 signed bits. -/
theorem wrap_typedQuotient {t : FieldType} (h : t.isInteger = true) {d x : Int} (hx : (storedInt t).wrap x = x)
    (hd : d.natAbs < 2147483648) (hquotient : FitsInt (x.tdiv d)) : (quotientType t).wrap (typedQuotient t d x) = typedQuotient t d x := by
  have hx := wrap_quotientType h hx
  unfold typedQuotient
  rcases quotientType_cases h with ⟨htype, -⟩ | ⟨htype, -⟩
  · rw [htype, IntType.wrap_int_of_fits (n := d) ⟨by omega, by omega⟩]
    exact IntType.wrap_int_of_fits hquotient
  · rw [htype] at hx ⊢
    rw [IntType.wrap_uint32] at hx
    have hlow : 0 ≤ x := by omega
    have hhigh : x < 4294967296 := by omega
    have hdivisor : 0 ≤ IntType.uint32.wrap d := Int.emod_nonneg d (by decide)
    have hpos : 0 ≤ x.tdiv (IntType.uint32.wrap d) := Int.tdiv_nonneg hlow hdivisor
    have hle : x.tdiv (IntType.uint32.wrap d) ≤ x := by
      rw [Int.tdiv_eq_ediv_of_nonneg hlow]
      exact Int.ediv_le_self _ hlow
    exact IntType.wrap_of_unsigned rfl hpos (lt_of_le_of_lt hle hhigh)

/-- What scaling makes of a stored number, before it is converted to the type of the member. -/
theorem scaled_of_whole {f : PlacedField} (hinteger : f.type.isInteger = true) (hkind : f.attr.outputKind = .int)
    (hscaled : f.attr.isScaled = true) {d a x : Int} (hd : f.attr.divisor.whole? = some d) (ha : f.attr.offset.whole? = some a)
    (hzero : d ≠ 0) (hdivisor : d.natAbs < 2147483648) (hoffset : a.natAbs < 2147483648) (hx : (storedInt f.type).wrap x = x)
    (hquotient : FitsInt (x.tdiv d)) (hsum : FitsInt (x.tdiv d + a)) :
    scaled M f.attr (.int (storedInt f.type) x) =
      .int (quotientType f.type) ((quotientType f.type).wrap (typedQuotient f.type d x + a)) := by
  have htype : quotientType f.type = .int ∨ quotientType f.type = .uint32 := (quotientType_cases hinteger).imp And.left And.left
  have htyped := wrap_typedQuotient hinteger hx hdivisor hquotient
  have hdistance : literalValue M .int f.attr.offset.abs = .int .int (a.natAbs : Int) := literalValue_of_whole (Binary64.whole?_abs ha) hoffset
  have hnonzero : (quotientType f.type).wrap d ≠ 0 := by
    rcases htype with htype | htype
    · rwa [htype, IntType.wrap_int_of_fits ⟨by omega, by omega⟩]
    · rw [htype, IntType.wrap_uint32]
      omega
  have hdiv : M.operate .div (.int (storedInt f.type) x) (literalValue M .int f.attr.divisor) =
      .int (quotientType f.type) (typedQuotient f.type d x) := by
    rw [literalValue_of_whole hd hdivisor, Machine.operate_integers, Value.ofIntegers]
    rw [← quotientType, if_neg hnonzero, wrap_quotientType hinteger hx]
    exact Value.computed_of_wrap htyped
  -- Only the sum in `int` must not overflow; a sum of unsigned integers wraps as it is said to.
  have hexact : quotientType f.type = .int → FitsInt (typedQuotient f.type d x + a) := by
    intro hint
    rwa [typedQuotient, hint, IntType.wrap_int_of_fits (n := d) ⟨by omega, by omega⟩]
  obtain ⟨hup, hdown⟩ := M.operate_distance htype htyped hoffset hexact
  rw [scaled, if_pos hscaled, hkind]
  dsimp only
  rw [hdiv, hdistance]
  by_cases hpos : 0 < a
  · rw [if_pos ((Binary64.isPositive_iff_of_whole ha).2 hpos), hup hpos]
  · rw [if_neg fun h => hpos ((Binary64.isPositive_iff_of_whole ha).1 h)]
    by_cases hneg : a < 0
    · rw [if_pos ((Binary64.isNegative_iff_of_whole ha).2 hneg), hdown hneg]
    · rw [if_neg fun h => hneg ((Binary64.isNegative_iff_of_whole ha).1 h), show a = 0 by omega, Int.add_zero, htyped]

/-- Converted to the type of the member it is the scaled number. -/
theorem convert_scaled {t : FieldType} (h : t.isInteger = true) (d a x : Int) :
    M.convert .int32 (.int (quotientType t) ((quotientType t).wrap (typedQuotient t d x + a))) = .int .int (scaledNumber t d a x) := by
  have hconvert : ∀ s n, M.convert .int32 (.int s n) = .int .int (IntType.int.wrap n) := fun _ _ => rfl
  rw [hconvert, scaledNumber]
  rcases quotientType_cases h with ⟨htype, -⟩ | ⟨htype, -⟩
  · rw [htype, IntType.wrap_wrap]
  · rw [htype, IntType.wrap_int_wrap_uint32]

/-- An unsigned number of four bytes and a divisor below zero: the divisor becomes so large that it goes into the number once at most. -/
theorem typedQuotient_of_negative {t : FieldType} (ht : quotientType t = .uint32) {d x : Int} (hx : IntType.uint32.wrap x = x) (hneg : d < 0)
    (hd : d.natAbs < 2147483648) : typedQuotient t d x = if d + 4294967296 ≤ x then 1 else 0 := by
  rw [IntType.wrap_uint32] at hx
  have hlow : 0 ≤ x := by omega
  have hdivisor : IntType.uint32.wrap d = d + 4294967296 := by
    rw [IntType.wrap_uint32]
    omega
  rw [typedQuotient, ht, hdivisor, Int.tdiv_eq_ediv_of_nonneg hlow]
  split
  · have honce : 1 ≤ x / (d + 4294967296) := Int.le_ediv_of_mul_le (by omega) (by omega)
    have htwice : x / (d + 4294967296) < 2 := Int.ediv_lt_of_lt_mul (by omega) (by omega)
    omega
  · exact Int.ediv_eq_zero_of_lt hlow (by omega)

/-- The scaled number is the truncated quotient moved by the offset, unless a divisor below zero meets an unsigned number of four bytes that is
not less than the distance of the divisor from zero. -/
theorem scaledNumber_eq_iff {t : FieldType} (h : t.isInteger = true) {d a x : Int} (hd : d.natAbs < 2147483648) (hx : (storedInt t).wrap x = x)
    (hquotient : FitsInt (x.tdiv d)) (hsum : FitsInt (x.tdiv d + a)) :
    scaledNumber t d a x = x.tdiv d + a ↔ ¬ (IsWideUnsigned t ∧ d < 0 ∧ -d ≤ x) := by
  have hexact : typedQuotient t d x = x.tdiv d → scaledNumber t d a x = x.tdiv d + a := by
    intro hsame
    rw [scaledNumber, hsame, IntType.wrap_int_of_fits hsum]
  rcases quotientType_cases h with ⟨htype, hnarrow⟩ | ⟨htype, hwide⟩
  · refine iff_of_true (hexact ?_) fun hbad => hnarrow hbad.1
    rw [typedQuotient, htype, IntType.wrap_int_of_fits (n := d) ⟨by omega, by omega⟩]
  · have hx := wrap_quotientType h hx
    rw [htype] at hx
    rw [and_iff_right hwide]
    have hx' : x % 4294967296 = x := hx
    have hlow : 0 ≤ x := by omega
    by_cases hneg : d < 0
    · obtain ⟨hleast, -⟩ := hquotient
      have hquotient : x.tdiv d = -(x / -d) := by
        rw [← Int.tdiv_eq_ediv_of_nonneg hlow, Int.tdiv_neg, neg_neg]
      by_cases hsmall : x < -d
      · refine iff_of_true (hexact ?_) (by omega)
        rw [typedQuotient_of_negative htype hx hneg hd, if_neg (by omega), hquotient, Int.ediv_eq_zero_of_lt hlow hsmall]
        rfl
      · -- a quotient of at least one below zero is not congruent to zero or one
        have hpos : 1 ≤ x / -d := Int.le_ediv_of_mul_le (by omega) (by omega)
        refine iff_of_false (fun hsame => ?_) (by omega)
        have hcongruent : (typedQuotient t d x + a) % 4294967296 = (x.tdiv d + a) % 4294967296 := by
          rw [← hsame, scaledNumber, IntType.wrap_int]
          exact (Int.bmod_emod (m := 4294967296)).symm
        rw [typedQuotient_of_negative htype hx hneg hd] at hcongruent
        split at hcongruent <;> omega
    · refine iff_of_true (hexact ?_) fun hbad => hneg hbad.1
      rw [typedQuotient, htype, IntType.wrap_uint32, Int.emod_eq_of_lt (by omega) (by omega)]

/-! ## Decoders -/

/-- A field that is stored and wanted as an integer, scaled by a whole divisor and a whole offset: the expression that is assigned to its member
has the scaled number as its value, and the native decoder keeps that number. It is the truncated quotient of the stored number and the divisor
moved by the offset, where these fit into `int`, unless a divisor below zero meets an unsigned number of four bytes that is not less than the
distance of the divisor from zero. -/
theorem integer_scaling_exact_iff {f : PlacedField} (hinteger : f.type.isInteger = true) (hkind : f.attr.outputKind = .int)
    (hscaled : f.attr.isScaled = true) {d a x : Int} (hd : f.attr.divisor.whole? = some d) (ha : f.attr.offset.whole? = some a)
    (hzero : d ≠ 0) (hdivisor : d.natAbs < 2 ^ 31) (hoffset : a.natAbs < 2 ^ 31) (hx : (storedInt f.type).wrap x = x)
    (hquotient : FitsInt (x.tdiv d)) (hsum : FitsInt (x.tdiv d + a)) (M : Machine α) :
    (∀ (scope : Scope α) (ls : List (Local α)) (raw : Expr) (mem mem' : Memory α),
      raw.eval M scope ls mem = some (.int (storedInt f.type) x, mem') →
      (Expr.cast f.valueType (.group (scaledValue f.attr raw))).eval M scope ls mem = some (.int .int (scaledNumber f.type d a x), mem')) ∧
    (∀ (devices : List DeviceType) (m : Model) (o : Options) (r : Record) (k : Nat) (pollRecordsName : String),
      (Model.build devices).outcome = .ok m → o.validate = .ok () → o.decoding = true → r ∈ m.records → recordLength o r < 2 ^ 32 →
      M.buffer.length < 2 ^ 32 → ((structMembers o r).map Prod.snd).Nodup → f ∈ r.layout.fields →
      storedNumber f.type (fieldBytes M (k * recordLength o r + o.timestampBytes.toNat) f) = x →
      KeepsMember M (pollRecords m o ++ deviceTable m o pollRecordsName) o r f k (.int .int (scaledNumber f.type d a x))) ∧
    (scaledNumber f.type d a x = x.tdiv d + a ↔ ¬ (IsWideUnsigned f.type ∧ d < 0 ∧ -d ≤ x)) := by
  have htype : f.valueType = .int32 := by rw [PlacedField.valueType, hkind, hscaled]; rfl
  have hvalue : M.convert .int32 (scaled M f.attr (.int (storedInt f.type) x)) = .int .int (scaledNumber f.type d a x) := by
    rw [scaled_of_whole hinteger hkind hscaled hd ha hzero hdivisor hoffset hx hquotient hsum, convert_scaled hinteger]
  refine ⟨fun scope ls raw mem mem' hraw => ?_, ?_, scaledNumber_eq_iff hinteger hdivisor hx hquotient hsum⟩
  · rw [htype, ← hvalue]
    exact eval_cast ((eval_group _).trans (eval_scaledValue f.attr (Value.isNumber_int _ _) hraw))
  · intro devices m o r k pollRecordsName hm ho hdecoding hr hlength hbuffer hmembers hf hstored
    have hkeeps := keepsMember_deviceTable (Model.describes_of_build hm) ho hdecoding hr hlength hbuffer hmembers hf k pollRecordsName
    have hassigned : assignedValue M f (fieldBytes M (k * recordLength o r + o.timestampBytes.toNat) f) =
        .int .int (scaledNumber f.type d a x) := by
      rw [assignedValue, if_pos hscaled, htype, fieldValue, if_pos hinteger, hstored, hvalue]
    have hagain : M.convert .int32 (.int .int (scaledNumber f.type d a x)) = .int .int (scaledNumber f.type d a x) :=
      congrArg (Value.int .int) (IntType.wrap_wrap _ _)
    rwa [memberNumber, hassigned, htype, hagain] at hkeeps

/-- A signed field of two bytes with a divisor and an offset below zero: -205 divided by -10 and moved by -3 is 17. -/
theorem integer_scaling_exact_signed :
    let d : DeviceType :=
      { key := "Probe", declaredBytes := 2,
        responseSchema := [{ name := "t", typeCode := ">h", divisor := ⟨0xc024000000000000⟩, offset := ⟨0xc008000000000000⟩ }] }
    let f : PlacedField :=
      ⟨{ name := "t", typeCode := ">h", divisor := ⟨0xc024000000000000⟩, offset := ⟨0xc008000000000000⟩ }, .int16 .big, 0⟩
    f.attr.divisor.whole? = some (-10) ∧ f.attr.offset.whole? = some (-3) ∧
      ∃ m r, (Model.build [d]).outcome = .ok m ∧ r ∈ m.records ∧ r.layout.fields = [f] ∧
        KeepsMember (plainMachine [0, 1, 255, 51]) (pollRecords m {} ++ deviceTable m {} "records.h") {} r f 0 (.int .int 17) ∧
        (17 : Int) = (-205 : Int).tdiv (-10) + -3 := by
  intro d f
  obtain ⟨m, r, hm, hrecords, hdevice, hlayout⟩ := Model.exists_build_singleton (d := d) (by decide)
  have hr : r ∈ m.records := hrecords ▸ List.mem_singleton_self r
  have hfields : r.layout.fields = [f] := by rw [hlayout]; rfl
  have hsize : r.layout.size = 2 := by rw [hlayout]; rfl
  have hlength : recordLength {} r = 4 := by rw [recordLength, hsize]; rfl
  have hmembers : ((structMembers {} r).map Prod.snd).Nodup := by
    rw [structMembers, hfields]
    decide
  have hdivisor : f.attr.divisor.whole? = some (-10) := by decide
  have hoffset : f.attr.offset.whole? = some (-3) := by decide
  have hstored : storedNumber f.type (fieldBytes (plainMachine [0, 1, 255, 51]) (0 * recordLength {} r + UInt32.toNat 2) f) = -205 := by
    simp only [hlength, f]
    rfl
  obtain ⟨-, hkeeps, hexact⟩ := integer_scaling_exact_iff (f := f) rfl rfl rfl hdivisor hoffset (by decide) (by decide) (by decide) (x := -205)
    (by decide) (by decide) (by decide) (plainMachine [0, 1, 255, 51])
  have hkept := hkeeps [d] m {} r 0 "records.h" hm rfl rfl hr (by rw [hlength]; decide) (by decide) hmembers
    (by rw [hfields]; exact List.mem_singleton_self f) hstored
  have hnarrow : ¬ IsWideUnsigned f.type := by
    rintro ⟨order, horder⟩
    cases horder
  rw [hexact.2 fun hwide => hnarrow hwide.1] at hkept
  exact ⟨hdivisor, hoffset, m, r, hm, hr, hfields, hkept, by decide⟩

/-- An unsigned field of four bytes with the divisor -2: of 10 the decoder makes 0, although the quotient is -5. -/
theorem unsigned_field_loses_negative_divisor :
    let d : DeviceType :=
      { key := "A", responseSchema := [{ name := "x", typeCode := "<I", divisor := ⟨0xc000000000000000⟩ }], declaredBytes := 4 }
    Binary64.whole? ⟨0xc000000000000000⟩ = some (-2) ∧
      ∃ m mem', (Model.build [d]).outcome = .ok m ∧
        runFunction (plainMachine [0, 1, 10, 0, 0, 0]) (pollRecords m {} ++ deviceTable m {} "records.h") "decodePollResp_A"
            [.bytes 0, .int .uint32 6, .room, .int .uint32 100, .int .uint16 5, .state] ⟨fun _ => 0, []⟩ = some (.int .uint32 1, mem') ∧
        (∀ v, .write "poll_A" 0 "x" v ∈ mem'.trace ↔ v = .int .int 0) ∧
        FitsInt ((10 : Int).tdiv (-2)) ∧ FitsInt ((10 : Int).tdiv (-2) + 0) ∧ (10 : Int).tdiv (-2) + 0 = -5 := by
  intro d
  obtain ⟨m, r, hm, hrecords, hdevice, hlayout⟩ := Model.exists_build_singleton (d := d) (by decide)
  have hr : r ∈ m.records := hrecords ▸ List.mem_singleton_self r
  have hfields : r.layout.fields = [⟨{ name := "x", typeCode := "<I", divisor := ⟨0xc000000000000000⟩ }, .uint32 .little, 0⟩] := by
    rw [hlayout]
    rfl
  have hlength : recordLength {} r = ([0, 1, 10, 0, 0, 0] : List UInt8).length := by rw [recordLength, hlayout]; rfl
  have hname : r.identifier = "A" := by
    rw [Record.identifier, hdevice]
    decide
  have hmembers : ((structMembers {} r).map Prod.snd).Nodup := by
    rw [structMembers, hfields]
    decide
  obtain ⟨mem', hrun, hwritten⟩ := exists_run_single_field (Model.describes_of_build hm) hr hfields hmembers hlength (by decide)
  rw [hname] at hrun hwritten
  exact ⟨by decide, m, mem', hm, hrun, hwritten, by decide, by decide, by decide⟩

end Artifact

end DeviceCatalog
