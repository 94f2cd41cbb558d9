import DeviceCatalog.CSource.Evaluation
import Mathlib.Algebra.Order.Ring.Int

/-!
# How emitted functions run

The rules by which the runs of decoders are followed: integers that fit are computed with exactly, numbers stay numbers, every form of
expression is evaluated part by part, and the functions of a file are found under their names.
-/

namespace DeviceCatalog.CSource

variable {α : Type} {M : Machine α} {scope : Scope α}

/-! ## Integers -/

/-- A number of the range of an unsigned type is kept as it is. -/
theorem IntType.wrap_of_unsigned {t : IntType} (ht : t.signed = false) {n : Int} (hn : 0 ≤ n) (hlt : n < t.modulus) : t.wrap n = n := by
  rw [wrap, ht, if_neg Bool.false_ne_true]
  exact Int.emod_eq_of_lt hn hlt

/-- A natural number below the modulus of an unsigned type is kept as it is. -/
theorem IntType.wrap_natCast {t : IntType} (ht : t.signed = false) {n : Nat} (hlt : n < t.modulus) : t.wrap n = n :=
  wrap_of_unsigned ht (Int.natCast_nonneg n) (Int.ofNat_lt.2 hlt)

/-- An unsigned type keeps a natural number exactly when it is below the modulus. -/
theorem IntType.wrap_natCast_iff {t : IntType} (ht : t.signed = false) (n : Nat) : t.wrap n = n ↔ n < t.modulus := by
  constructor
  · intro h
    rw [wrap, ht, if_neg Bool.false_ne_true] at h
    have hpos : 0 < t.modulus := Nat.pow_pos (Nat.zero_lt_two)
    have hmod : n % t.modulus = n := by exact_mod_cast h
    exact hmod ▸ Nat.mod_lt n hpos
  · exact wrap_natCast ht

/-- Bringing a number into the range of a type twice is bringing it there once. -/
theorem IntType.wrap_wrap (t : IntType) (n : Int) : t.wrap (t.wrap n) = t.wrap n := by
  unfold wrap
  split
  · exact Int.bmod_bmod
  · exact Int.emod_emod_of_dvd n (Int.dvd_refl _)

/-- Unsigned arithmetic never overflows, it wraps around. -/
theorem Value.computed_of_unsigned {t : IntType} (ht : t.signed = false) (n : Int) : (computed t n : Value α) = .int t (t.wrap n) := by
  rw [computed, ht, if_neg fun h => Bool.false_ne_true h.1]

/-- What fits the type is computed as it is. -/
theorem Value.computed_of_wrap {t : IntType} {n : Int} (h : t.wrap n = n) : (computed t n : Value α) = .int t n := by
  rw [computed, if_neg fun hsigned => hsigned.2 h, h]

/-! ## Numbers -/

/-- The value is a number, if only an unknown one. -/
def Value.IsNumber (v : Value α) : Prop :=
  (∃ t n, v = .int t n) ∨ (∃ f x, v = .real f x) ∨ v = .unknown

theorem Value.isNumber_int (t : IntType) (n : Int) : (Value.int t n : Value α).IsNumber :=
  Or.inl ⟨t, n, rfl⟩

theorem Value.isNumber_real (f : RealFormat) (x : α) : (Value.real f x).IsNumber :=
  Or.inr (Or.inl ⟨f, x, rfl⟩)

theorem Value.isNumber_unknown : (Value.unknown : Value α).IsNumber :=
  Or.inr (Or.inr rfl)

theorem Value.isNumber_computed (t : IntType) (n : Int) : (computed t n : Value α).IsNumber := by
  unfold computed
  split
  · exact isNumber_unknown
  · exact isNumber_int _ _

theorem Value.isNumber_ofIntegers (op : Operator) (s : IntType) (x : Int) (t : IntType) (y : Int) :
    (ofIntegers op s x t y : Value α).IsNumber := by
  cases op
  case div =>
    unfold ofIntegers
    dsimp only
    split
    · exact isNumber_unknown
    · exact isNumber_computed _ _
  case shiftLeft =>
    unfold ofIntegers shiftLeft
    dsimp only
    split
    · exact isNumber_unknown
    · exact isNumber_computed _ _
  case add | sub | mul => exact isNumber_computed _ _
  case both | either => exact isNumber_unknown
  all_goals exact isNumber_int _ _

theorem Machine.isNumber_ofReals (op : Operator) (a b : Value α) : (M.ofReals op a b).IsNumber := by
  unfold Machine.ofReals
  dsimp only
  split
  · cases op <;> first | exact Value.isNumber_real _ _ | exact Value.isNumber_unknown
  · exact Value.isNumber_unknown

theorem Machine.isNumber_toNumber (t : NumberType) (v : Value α) : (M.toNumber t v).IsNumber := by
  unfold Machine.toNumber
  split
  · exact Value.isNumber_int _ _
  · split
    · split
      · exact Value.isNumber_int _ _
      · exact Value.isNumber_unknown
    · exact Value.isNumber_unknown
  · exact Value.isNumber_unknown
  · split
    · exact Value.isNumber_real _ _
    · exact Value.isNumber_unknown

/-- To a type that stands for numbers a value is converted as a number. -/
theorem Machine.convert_of_number {type : CType} {t : NumberType} (h : type.number? = some t) (v : Value α) :
    M.convert type v = M.toNumber t v := by
  unfold Machine.convert
  rw [h]

/-- A type of numbers makes numbers. -/
theorem Machine.isNumber_convert {type : CType} {t : NumberType} (h : type.number? = some t) (v : Value α) :
    (M.convert type v).IsNumber := by
  rw [convert_of_number h]
  exact M.isNumber_toNumber t v

/-- Operations on numbers give numbers. -/
theorem Machine.exists_apply_eq (op : Operator) {a b : Value α} (ha : a.IsNumber) (hb : b.IsNumber) :
    ∃ v, M.apply op a b = some v ∧ v.IsNumber := by
  rcases ha with ⟨s, x, rfl⟩ | ⟨f, x, rfl⟩ | rfl <;> rcases hb with ⟨t, y, rfl⟩ | ⟨g, y, rfl⟩ | rfl
  · exact ⟨_, rfl, Value.isNumber_ofIntegers op s x t y⟩
  all_goals exact ⟨_, rfl, M.isNumber_ofReals op _ _⟩

/-! ## Operations on integers -/

section Integers

variable (s : IntType) (x : Int) (t : IntType) (y : Int)

/-- An operator between two integers is the one on integers. -/
theorem Machine.apply_integers (M : Machine α) (op : Operator) : M.apply op (.int s x) (.int t y) = some (.ofIntegers op s x t y) := rfl

theorem Value.ofIntegers_add :
    (ofIntegers .add s x t y : Value α) = computed (s.common t) ((s.common t).wrap x + (s.common t).wrap y) := rfl

theorem Value.ofIntegers_sub :
    (ofIntegers .sub s x t y : Value α) = computed (s.common t) ((s.common t).wrap x - (s.common t).wrap y) := rfl

theorem Value.ofIntegers_mul :
    (ofIntegers .mul s x t y : Value α) = computed (s.common t) ((s.common t).wrap x * (s.common t).wrap y) := rfl

theorem Value.ofIntegers_less :
    (ofIntegers .less s x t y : Value α) = ofBool (decide ((s.common t).wrap x < (s.common t).wrap y)) := rfl

theorem Value.ofIntegers_atLeast :
    (ofIntegers .atLeast s x t y : Value α) = ofBool (decide ((s.common t).wrap y ≤ (s.common t).wrap x)) := rfl

end Integers

section Unsigned

variable {s t c : IntType} {a b : Nat}

/-- A sum that fits is computed exactly. -/
theorem Machine.apply_add (hc : s.common t = c) (hunsigned : c.signed = false) (hlt : a + b < c.modulus) :
    M.apply .add (.int s a) (.int t b) = some (.int c ((a + b : Nat) : Int)) := by
  have ha : c.wrap a = a := IntType.wrap_natCast hunsigned (by omega)
  have hb : c.wrap b = b := IntType.wrap_natCast hunsigned (by omega)
  have hsum : c.wrap ((a : Int) + b) = ((a + b : Nat) : Int) := by
    rw [← Nat.cast_add]
    exact IntType.wrap_natCast hunsigned hlt
  rw [Machine.apply_integers, Value.ofIntegers_add, hc, ha, hb, Value.computed_of_unsigned hunsigned, hsum]

/-- A difference of fitting numbers that is not negative is computed exactly. -/
theorem Machine.apply_sub (hc : s.common t = c) (hunsigned : c.signed = false) (hle : b ≤ a) (hlt : a < c.modulus) :
    M.apply .sub (.int s a) (.int t b) = some (.int c ((a - b : Nat) : Int)) := by
  have ha : c.wrap a = a := IntType.wrap_natCast hunsigned hlt
  have hb : c.wrap b = b := IntType.wrap_natCast hunsigned (by omega)
  have hdifference : c.wrap ((a : Int) - b) = ((a - b : Nat) : Int) := by
    rw [← Nat.cast_sub hle]
    exact IntType.wrap_natCast hunsigned (by omega)
  rw [Machine.apply_integers, Value.ofIntegers_sub, hc, ha, hb, Value.computed_of_unsigned hunsigned, hdifference]

/-- A product that fits is computed exactly. -/
theorem Machine.apply_mul (hc : s.common t = c) (hunsigned : c.signed = false) (ha : a < c.modulus) (hb : b < c.modulus)
    (hlt : a * b < c.modulus) : M.apply .mul (.int s a) (.int t b) = some (.int c ((a * b : Nat) : Int)) := by
  have hproduct : c.wrap ((a : Int) * b) = ((a * b : Nat) : Int) := by
    rw [← Nat.cast_mul]
    exact IntType.wrap_natCast hunsigned hlt
  rw [Machine.apply_integers, Value.ofIntegers_mul, hc, IntType.wrap_natCast hunsigned ha, IntType.wrap_natCast hunsigned hb,
    Value.computed_of_unsigned hunsigned, hproduct]

/-- Natural numbers that fit the common type are compared as they are. -/
theorem Machine.apply_less (hc : s.common t = c) (hunsigned : c.signed = false) (ha : a < c.modulus) (hb : b < c.modulus) :
    M.apply .less (.int s a) (.int t b) = some (.ofBool (decide (a < b))) := by
  rw [Machine.apply_integers, Value.ofIntegers_less]
  simp only [hc, IntType.wrap_natCast hunsigned ha, IntType.wrap_natCast hunsigned hb, Nat.cast_lt]

/-- Natural numbers that fit the common type are compared as they are. -/
theorem Machine.apply_atLeast (hc : s.common t = c) (hunsigned : c.signed = false) (ha : a < c.modulus) (hb : b < c.modulus) :
    M.apply .atLeast (.int s a) (.int t b) = some (.ofBool (decide (b ≤ a))) := by
  rw [Machine.apply_integers, Value.ofIntegers_atLeast]
  simp only [hc, IntType.wrap_natCast hunsigned ha, IntType.wrap_natCast hunsigned hb, Nat.cast_le]

end Unsigned

/-- A number that fits is kept by a conversion to an unsigned type. -/
theorem Machine.toNumber_natCast {t : IntType} (ht : t.signed = false) (s : IntType) {n : Nat} (hlt : n < t.modulus) :
    M.toNumber (.int t) (.int s n) = .int t n :=
  congrArg (Value.int t) (IntType.wrap_natCast ht hlt)

/-- A conversion to an unsigned type keeps a natural number that fits it. -/
theorem Machine.convert_natCast {type : CType} {t : IntType} (htype : type.number? = some (.int t)) (ht : t.signed = false) (s : IntType)
    {n : Nat} (hlt : n < t.modulus) : M.convert type (.int s n) = .int t n := by
  rw [convert_of_number htype, toNumber_natCast ht s hlt]

theorem Machine.convert_uint32 (s : IntType) {n : Nat} (h : n < 4294967296) : M.convert .uint32 (.int s n) = .int .uint32 n :=
  convert_natCast rfl rfl s h

/-- A number of 64 bits is kept as it is. -/
theorem Machine.convert_toNat (n : UInt64) : M.convert .uint64 (.int .uint64 n.toNat) = .int .uint64 n.toNat :=
  convert_natCast rfl rfl _ n.toNat_lt

/-- A literal that fits into `uint32_t` is an integer, and with `uint32_t` it meets in a type that has all such numbers. -/
theorem Value.exists_ofDecimal_eq {n : Nat} (h : n < 4294967296) :
    ∃ s, (ofDecimal n : Value α) = .int s n ∧ ∀ k : Nat, k < 4294967296 → (IntType.uint32.common s).wrap k = k := by
  unfold ofDecimal
  split
  · exact ⟨.int, rfl, fun k hk => IntType.wrap_natCast (t := .uint32) rfl hk⟩
  · refine ⟨.int64, if_pos (by simp; omega), fun k hk => ?_⟩
    have hcommon : IntType.uint32.common .int64 = .int64 := rfl
    have hmodulus : IntType.int64.modulus = 18446744073709551616 := rfl
    rw [hcommon, IntType.wrap, hmodulus, if_pos (show IntType.int64.signed = true from rfl)]
    exact Int.bmod_eq_of_le (by omega) (by omega)

/-- Such a literal is kept by a conversion to `uint32_t`. -/
theorem Machine.convert_ofDecimal {n : Nat} (h : n < 4294967296) : M.convert .uint32 (.ofDecimal n) = .int .uint32 n := by
  obtain ⟨s, hs, -⟩ := Value.exists_ofDecimal_eq (α := α) h
  rw [hs, convert_uint32 s h]

/-- A sum with such a literal is exact if it fits, although the literal may be wider. -/
theorem Machine.exists_apply_add_ofDecimal {a b : Nat} (h : a + b < 4294967296) :
    ∃ s, M.apply .add (.int .uint32 a) (.ofDecimal b) = some (.int s ((a + b : Nat) : Int)) := by
  obtain ⟨s, hs, hwrap⟩ := Value.exists_ofDecimal_eq (α := α) (n := b) (by omega)
  refine ⟨IntType.uint32.common s, ?_⟩
  rw [hs, apply_integers, Value.ofIntegers_add, hwrap a (by omega), hwrap b (by omega), ← Nat.cast_add,
    Value.computed_of_wrap (hwrap (a + b) h)]

/-- A comparison with such a literal is exact. -/
theorem Machine.apply_less_ofDecimal {a b : Nat} (ha : a < 4294967296) (hb : b < 4294967296) :
    M.apply .less (.int .uint32 a) (.ofDecimal b) = some (.ofBool (decide (a < b))) := by
  obtain ⟨s, hs, hwrap⟩ := Value.exists_ofDecimal_eq (α := α) hb
  rw [hs, apply_integers, Value.ofIntegers_less]
  simp only [hwrap a ha, hwrap b hb, Nat.cast_lt]

/-- The type of sizes is at least as wide as `uint32_t`. -/
theorem Machine.common_sizeType (M : Machine α) : IntType.uint32.common M.sizeType = M.sizeType := by
  have hwide := M.le_sizeBits
  have hpromote : M.sizeType.promote = M.sizeType := if_neg (Nat.not_lt.2 hwide)
  have huint32 : IntType.uint32.promote = .uint32 := rfl
  rw [IntType.common, hpromote, huint32]
  by_cases h : IntType.uint32.bits < M.sizeType.bits
  · rw [if_pos h]
  · have hbits : M.sizeBits = 32 := Nat.le_antisymm (Nat.not_lt.1 h) hwide
    rw [if_neg h, Machine.sizeType, hbits]
    rfl

/-- Sizes have 32 bits at least, whatever the machine. -/
theorem Machine.lt_modulus_sizeType (M : Machine α) {n : Nat} (h : n < 4294967296) : n < M.sizeType.modulus := by
  have hpow : 2 ^ 32 ≤ 2 ^ M.sizeBits := Nat.pow_le_pow_right (by decide) M.le_sizeBits
  exact Nat.lt_of_lt_of_le h hpow

/-- A pointer that stays in the buffer, or right behind it, can be moved. -/
theorem Machine.apply_moveTo {p q : Nat} {n : Int} (t : IntType) (hq : (q : Int) = p + n) (h : q ≤ M.buffer.length) :
    M.apply .add (.bytes p) (.int t n) = some (.bytes q) := by
  have hmoved : M.moved? p n = some (.bytes q) := by
    rw [moved?, ← hq]
    exact if_pos ⟨Int.natCast_nonneg _, Int.ofNat_le.2 h⟩
  rw [apply, if_pos rfl, hmoved]

/-- A pointer may be moved inside the buffer and just behind its end. -/
theorem Machine.apply_move {p n : Nat} (t : IntType) (h : p + n ≤ M.buffer.length) :
    M.apply .add (.bytes p) (.int t n) = some (.bytes (p + n)) :=
  apply_moveTo t (Nat.cast_add p n) h

/-- A pointer to an element of an array is moved by elements. -/
theorem Machine.apply_slot (M : Machine α) (t : IntType) (name : String) (i n : Nat) :
    M.apply .add (.slot name i) (.int t n) = some (.slot name (i + n)) := by
  have hsum : (i : Int) + n = ((i + n : Nat) : Int) := by omega
  rw [apply, hsum, if_pos ⟨rfl, Int.natCast_nonneg _⟩, Int.toNat_natCast]

/-! ## Memory -/

@[simp] theorem Memory.log_nil (mem : Memory α) : mem.log [] = mem := by
  simp [Memory.log]

@[simp] theorem Memory.log_log (mem : Memory α) (es es' : List (Event α)) : (mem.log es).log es' = mem.log (es ++ es') := by
  simp [Memory.log]

/-- The position that an event reads. -/
def Event.read? : Event α → Option Nat
  | .read p => some p
  | _ => none

/-- The reading of some bytes, one behind the other. -/
def readsFrom (start count : Nat) : List (Event α) :=
  (List.range' start count).map .read

/-- Reads from a position on are reads of the bytes that follow it, each once. -/
theorem filterMap_read?_readsFrom (start count : Nat) :
    (readsFrom start count : List (Event α)).filterMap Event.read? = List.range' start count := by
  rw [readsFrom, List.filterMap_map]
  exact List.filterMap_some

/-! ## Expressions -/

variable {ls : List (Local α)} {mem mem₁ mem₂ : Memory α}

/-- What is done with a result that is there. -/
theorem bind_eq_of_eq_some {β γ : Type} {x : Option β} {a : β} (f : β → Option γ) (h : x = some a) : (x >>= f) = f a := by
  rw [h]
  rfl

theorem eval_decimal (n : Int) : (Expr.decimal n).eval M scope ls mem = some (.ofDecimal n, mem) := rfl

theorem eval_double (x : Binary64) : (Expr.double x).eval M scope ls mem = some (.real .double (M.literal .double x), mem) := rfl

theorem eval_single (x : Binary64) : (Expr.single x).eval M scope ls mem = some (.real .single (M.literal .single x), mem) := rfl

theorem eval_string (s : String) : (Expr.string s).eval M scope ls mem = some (.text s, mem) := rfl

theorem eval_sizeOf (type : CType) : (Expr.sizeOf type).eval M scope ls mem = some (.int M.sizeType (M.sizeOf type), mem) := rfl

theorem eval_group (e : Expr) : (Expr.group e).eval M scope ls mem = e.eval M scope ls mem := rfl

theorem eval_var {name : String} {v : Value α} (h : scope.variable ls name = v) :
    (Expr.var name).eval M scope ls mem = some (v, mem) :=
  congrArg (fun v => some (v, mem)) h

/-- A name that no local variable has stands for the constant of that name. -/
theorem eval_constant {name : String} {v : Value α} (hlocals : ls.find? (fun l => l.name = name) = none)
    (hconstant : scope.constants.lookup name = some v) : (Expr.var name).eval M scope ls mem = some (v, mem) := by
  refine eval_var ?_
  rw [Scope.variable, hlocals, hconstant]
  rfl

theorem eval_cast {type : CType} {e : Expr} {v : Value α} (h : e.eval M scope ls mem = some (v, mem₁)) :
    (Expr.cast type e).eval M scope ls mem = some (M.convert type v, mem₁) :=
  bind_eq_of_eq_some _ h

/-- An operator that takes both its operands evaluates them from left to right. -/
theorem eval_binary {op : Operator} (hop : op ≠ .both ∧ op ≠ .either) {l r : Expr} {x y v : Value α}
    (hl : l.eval M scope ls mem = some (x, mem₁)) (hr : r.eval M scope ls mem₁ = some (y, mem₂)) (hv : M.apply op x y = some v) :
    (Expr.binary op l r).eval M scope ls mem = some (v, mem₂) := by
  refine (bind_eq_of_eq_some _ hl).trans ?_
  cases op
  case both => exact absurd rfl hop.1
  case either => exact absurd rfl hop.2
  all_goals exact (bind_eq_of_eq_some _ hr).trans (bind_eq_of_eq_some _ hv)

@[simp] theorem Value.truth?_ofBool (b : Bool) : (ofBool b : Value α).truth? = some b := by
  cases b <;> rfl

/-- Two conditions that do nothing but decide, one behind the other. -/
theorem eval_both {l r : Expr} {a b : Bool} (hl : l.eval M scope ls mem = some (.ofBool a, mem))
    (hr : r.eval M scope ls mem = some (.ofBool b, mem)) : (Expr.binary .both l r).eval M scope ls mem = some (.ofBool (a && b), mem) := by
  refine (bind_eq_of_eq_some _ hl).trans ((bind_eq_of_eq_some _ (Value.truth?_ofBool a)).trans ?_)
  cases a
  · rfl
  · exact (bind_eq_of_eq_some _ hr).trans (bind_eq_of_eq_some _ (Value.truth?_ofBool b))

/-- A condition that holds unless another one does. -/
theorem eval_not {e : Expr} {v : Value α} {b : Bool} (h : e.eval M scope ls mem = some (v, mem₁)) (hv : v.truth? = some b) :
    (Expr.not e).eval M scope ls mem = some (.ofBool !b, mem₁) :=
  (bind_eq_of_eq_some _ h).trans (bind_eq_of_eq_some _ hv)

/-- Two conditions of which one is enough, when neither holds. -/
theorem eval_either_false {l r : Expr} (hl : l.eval M scope ls mem = some (.ofBool false, mem))
    (hr : r.eval M scope ls mem = some (.ofBool false, mem)) : (Expr.binary .either l r).eval M scope ls mem = some (.ofBool false, mem) := by
  refine (bind_eq_of_eq_some _ hl).trans ((bind_eq_of_eq_some _ (Value.truth?_ofBool false)).trans ?_)
  exact (bind_eq_of_eq_some _ hr).trans (bind_eq_of_eq_some _ (Value.truth?_ofBool false))

/-- A call evaluates its arguments, then the function is called with them. -/
theorem eval_call {f : String} {es : List Expr} {vs : List (Value α)} (h : Expr.evalAll M scope ls es mem = some (vs, mem₁)) :
    (Expr.call f es).eval M scope ls mem = scope.call M f vs mem₁ :=
  bind_eq_of_eq_some _ h

theorem evalAll_nil : Expr.evalAll M scope ls [] mem = some ([], mem) := rfl

theorem evalAll_cons {e : Expr} {es : List Expr} {v : Value α} {vs : List (Value α)} (h : e.eval M scope ls mem = some (v, mem₁))
    (hs : Expr.evalAll M scope ls es mem₁ = some (vs, mem₂)) : Expr.evalAll M scope ls (e :: es) mem = some (v :: vs, mem₂) :=
  (bind_eq_of_eq_some _ h).trans (bind_eq_of_eq_some _ hs)

/-- A byte of the buffer is read. -/
theorem eval_index {array position : Expr} {p q : Nat} {n : Int} {t : IntType} (ha : array.eval M scope ls mem = some (.bytes p, mem))
    (hn : position.eval M scope ls mem = some (.int t n, mem₁)) (hq : (q : Int) = p + n) (hlt : q < M.buffer.length) :
    (Expr.index array position).eval M scope ls mem = some (.int .uint8 M.buffer[q].toNat, mem₁.log [.read q]) := by
  have hload : M.load (.bytes q) mem₁ = some (.int .uint8 M.buffer[q].toNat, mem₁.log [.read q]) := by
    rw [Machine.load, List.getElem?_eq_getElem hlt]
    rfl
  refine (bind_eq_of_eq_some _ ha).trans ((bind_eq_of_eq_some _ hn).trans ?_)
  exact (bind_eq_of_eq_some _ (Machine.apply_moveTo t hq (Nat.le_of_lt hlt))).trans hload

/-! ## Values and events -/

/-- Evaluating the expression gives a value that does not depend on the memory, and does some things. -/
def Gives (M : Machine α) (scope : Scope α) (ls : List (Local α)) (e : Expr) (v : Value α) (events : List (Event α)) : Prop :=
  ∀ mem, e.eval M scope ls mem = some (v, mem.log events)

/-- Evaluating the arguments gives values that do not depend on the memory, and does some things. -/
def GivesAll (M : Machine α) (scope : Scope α) (ls : List (Local α)) (es : List Expr) (vs : List (Value α)) (events : List (Event α)) : Prop :=
  ∀ mem, Expr.evalAll M scope ls es mem = some (vs, mem.log events)

section Events

variable {e : Expr} {es : List Expr} {v : Value α} {vs : List (Value α)} {events more : List (Event α)}

theorem gives_of_eval (h : ∀ mem, e.eval M scope ls mem = some (v, mem)) : Gives M scope ls e v [] := fun mem => by
  rw [h, Memory.log_nil]

theorem gives_var (name : String) : Gives M scope ls (.var name) (scope.variable ls name) [] :=
  gives_of_eval fun _ => eval_var rfl

theorem Gives.cast (h : Gives M scope ls e v events) (type : CType) : Gives M scope ls (.cast type e) (M.convert type v) events := fun mem =>
  eval_cast (h mem)

theorem givesAll_nil : GivesAll M scope ls [] [] [] := fun mem => by
  rw [evalAll_nil, Memory.log_nil]

/-- Arguments give their values one after the other, and so do their traces follow each other. -/
theorem Gives.cons (h : Gives M scope ls e v events) (hs : GivesAll M scope ls es vs more) :
    GivesAll M scope ls (e :: es) (v :: vs) (events ++ more) := by
  intro mem
  rw [← Memory.log_log]
  exact evalAll_cons (h mem) (hs (mem.log events))

/-- A function of a file does what it does with its arguments. -/
theorem GivesAll.call {function : String} (h : GivesAll M scope ls es vs events)
    (hrun : ∀ mem, scope.call M function vs mem = some (v, mem.log more)) : Gives M scope ls (.call function es) v (events ++ more) := by
  intro mem
  rw [← Memory.log_log, eval_call (h mem), hrun]

/-- A function that no file defines is only called. -/
theorem GivesAll.external {function : String} (h : GivesAll M scope ls es vs events) (hf : scope.functions.lookup function = none) :
    Gives M scope ls (.call function es) (M.external function vs) (events ++ [.called function vs]) :=
  h.call fun mem => by rw [Scope.call, hf]

end Events

/-- A name that is neither that of a variable nor that of a constant stands for itself. -/
theorem variable_eq_foreign {name : String} (hconstants : scope.constants = []) (h : ∀ l ∈ ls, l.name ≠ name) :
    scope.variable ls name = .foreign name := by
  have hnone : ls.find? (fun l => l.name = name) = none := by
    rw [List.find?_eq_none]
    intro l hl
    simpa using h l hl
  rw [Scope.variable, hnone, hconstants]
  rfl

/-! ## Operations on numbers -/

theorem Value.isNumber_ofDecimal (n : Int) : (ofDecimal n : Value α).IsNumber := by
  unfold ofDecimal
  split
  · exact isNumber_int _ _
  · split
    · exact isNumber_int _ _
    · exact isNumber_unknown

/-- What an operation gives, of two numbers a number. -/
def Machine.operate (M : Machine α) (op : Operator) (a b : Value α) : Value α :=
  (M.apply op a b).getD .unknown

/-- Between numbers an operator is never undefined. -/
theorem Machine.apply_eq_operate (op : Operator) {a b : Value α} (ha : a.IsNumber) (hb : b.IsNumber) :
    M.apply op a b = some (M.operate op a b) := by
  obtain ⟨v, hv, -⟩ := M.exists_apply_eq op ha hb
  rw [operate, hv, Option.getD_some]

theorem Machine.isNumber_operate (op : Operator) {a b : Value α} (ha : a.IsNumber) (hb : b.IsNumber) : (M.operate op a b).IsNumber := by
  obtain ⟨v, hv, hnumber⟩ := M.exists_apply_eq op ha hb
  rwa [operate, hv, Option.getD_some]

/-- An operator between expressions that are numbers is applied to their values. -/
theorem eval_operation {op : Operator} (hop : op ≠ .both ∧ op ≠ .either) {l r : Expr} {x y : Value α} (hx : x.IsNumber) (hy : y.IsNumber)
    (hl : l.eval M scope ls mem = some (x, mem₁)) (hr : r.eval M scope ls mem₁ = some (y, mem₂)) :
    (Expr.binary op l r).eval M scope ls mem = some (M.operate op x y, mem₂) :=
  eval_binary hop hl hr (Machine.apply_eq_operate op hx hy)

/-! ## Statements -/

variable {fr fr' : Frame α} {v : Value α}

theorem exec_define (type : CType) (name : String) {e : Expr} (h : e.eval M scope ls mem = some (v, mem₁)) :
    (Stmt.define type name e).exec M scope ⟨ls, mem⟩ = some (⟨⟨name, type, M.convert type v⟩ :: ls, mem₁⟩, none) :=
  bind_eq_of_eq_some _ h

theorem exec_run {e : Expr} (h : e.eval M scope ls mem = some (v, mem₁)) :
    (Stmt.run e).exec M scope ⟨ls, mem⟩ = some (⟨ls, mem₁⟩, none) :=
  bind_eq_of_eq_some _ h

theorem exec_ret {e : Expr} (h : e.eval M scope ls mem = some (v, mem₁)) :
    (Stmt.ret e).exec M scope ⟨ls, mem⟩ = some (⟨ls, mem₁⟩, some v) :=
  bind_eq_of_eq_some _ h

/-- An assignment evaluates its right side and stores the value in its target. -/
theorem assign_eq {target e : Expr} (h : e.eval M scope ls mem = some (v, mem₁))
    (hstore : Frame.store M scope ⟨ls, mem₁⟩ v target = some fr') : Frame.assign M scope ⟨ls, mem⟩ target e = some fr' :=
  (bind_eq_of_eq_some _ h).trans hstore

theorem exec_assign {target e : Expr} (h : e.eval M scope ls mem = some (v, mem₁))
    (hstore : Frame.store M scope ⟨ls, mem₁⟩ v target = some fr') : (Stmt.assign target e).exec M scope ⟨ls, mem⟩ = some (fr', none) :=
  bind_eq_of_eq_some _ (assign_eq h hstore)

/-- An increase stores the sum of its target and the amount. -/
theorem exec_increase {target amount : Expr} (h : (Expr.binary .add target amount).eval M scope ls mem = some (v, mem₁))
    (hstore : Frame.store M scope ⟨ls, mem₁⟩ v target = some fr') :
    (Stmt.increase target amount).exec M scope ⟨ls, mem⟩ = some (fr', none) :=
  bind_eq_of_eq_some _ (assign_eq h hstore)

/-- Variables of other names in front do not change what a name stands for. -/
theorem variable_append (inner : List (Local α)) {name : String} (h : ∀ l ∈ inner, l.name ≠ name) :
    scope.variable (inner ++ ls) name = scope.variable ls name := by
  have hnone : inner.find? (fun l => l.name = name) = none := by
    rw [List.find?_eq_none]
    intro l hl
    simpa using h l hl
  rw [Scope.variable, Scope.variable, List.find?_append, hnone, Option.none_or]

/-- A variable behind some of other names is changed by an operation. -/
theorem assign_var {inner : List (Local α)} {name : String} (h : ∀ l ∈ inner, l.name ≠ name) (ls ls' : List (Local α)) {op : Operator}
    (hop : op ≠ .both ∧ op ≠ .either) {amount : Expr} {x y : Value α} (hx : scope.variable ls name = x)
    (hy : amount.eval M scope (inner ++ ls) mem = some (y, mem)) (hv : M.apply op x y = some v) (hls : assigned? M name v ls = some ls') :
    Frame.assign M scope ⟨inner ++ ls, mem⟩ (.var name) (.binary op (.var name) amount) = some ⟨inner ++ ls', mem⟩ := by
  have hassigned : assigned? M name v (inner ++ ls) = some (inner ++ ls') := by
    clear hx hy
    induction inner with
    | nil => exact hls
    | cons l inner ih =>
      have hrest := ih fun x hx => h x (List.mem_cons_of_mem l hx)
      rw [List.cons_append, assigned?, if_neg (h l List.mem_cons_self), hrest]
      rfl
  have hname : (Expr.var name).eval M scope (inner ++ ls) mem = some (x, mem) := eval_var ((variable_append inner h).trans hx)
  exact assign_eq (eval_binary hop hname hy hv) (bind_eq_of_eq_some _ hassigned)

section Sequences

variable {β : Type} {run : Frame α → β → Option (Frame α × Option (Value α))} {x : β} {xs : List β}

/-- After a statement that does not return the next one runs. -/
theorem runAll_cons (h : run fr x = some (fr', none)) : runAll run (x :: xs) fr = runAll run xs fr' :=
  bind_eq_of_eq_some _ h

theorem runAll_cons_ret (h : run fr x = some (fr', some v)) : runAll run (x :: xs) fr = some (fr', some v) :=
  bind_eq_of_eq_some _ h

theorem runAll_cons_none (h : run fr x = none) : runAll run (x :: xs) fr = none := by
  rw [runAll, h]
  rfl

/-- After statements that do not return those behind them run. -/
theorem runAll_append {ys : List β} (h : runAll run xs fr = some (fr', none)) : runAll run (xs ++ ys) fr = runAll run ys fr' := by
  induction xs generalizing fr with
  | nil =>
    cases h
    rfl
  | cons x xs ih =>
    rw [runAll] at h
    rw [List.cons_append, runAll]
    cases hx : run fr x with
    | none =>
      rw [hx] at h
      cases h
    | some result =>
      obtain ⟨next, _ | v⟩ := result
      · rw [hx] at h
        exact ih h
      · rw [hx] at h
        cases h

end Sequences

/-- A condition decides by its value. -/
theorem test_eq {condition : Expr} {b : Bool} (h : condition.eval M scope ls mem = some (v, mem₁)) (hv : v.truth? = some b) :
    Frame.test M scope ⟨ls, mem⟩ condition = some (b, ⟨ls, mem₁⟩) :=
  (bind_eq_of_eq_some _ h).trans (bind_eq_of_eq_some _ hv)

/-- The first branch whose condition holds is run. -/
theorem runFirst_cons {condition : Expr} {body : List Stmt} {rest : List (Expr × List Stmt)} {b : Bool}
    (h : fr.test M scope condition = some (b, fr')) :
    runFirst M scope ((condition, body) :: rest) fr = if b then runInside M scope body fr' else runFirst M scope rest fr' :=
  bind_eq_of_eq_some _ h

/-- A loop whose condition does not hold ends. -/
theorem runLoop_stop {condition : Expr} {body : List Stmt} (h : fr.test M scope condition = some (false, fr')) :
    fr.runLoop M scope condition body = some (fr', none) := by
  rw [Frame.runLoop, h]
  rfl

/-- A loop whose condition holds goes on where a turn ends. -/
theorem runLoop_turn {condition : Expr} {body : List Stmt} {next : Frame α} (h : fr.test M scope condition = some (true, fr'))
    (hturn : runInside M scope body (fr'.log [.turn]) = some (next, none)) :
    fr.runLoop M scope condition body = next.runLoop M scope condition body := by
  rw [Frame.runLoop, h]
  simp only [Option.bind_eq_bind, Option.bind_some, if_true, hturn]

/-- What is run between braces loses the variables that it puts in front. -/
theorem runInside_eq {body : List Stmt} (inner : List (Local α)) {outer : List (Local α)}
    (h : runAll (Stmt.exec M scope) body ⟨ls, mem⟩ = some (⟨inner ++ outer, mem₁⟩, none)) (hlength : outer.length = ls.length) :
    runInside M scope body ⟨ls, mem⟩ = some (⟨outer, mem₁⟩, none) := by
  simp [runInside, h, ← hlength]

/-- A value returned between braces is returned. -/
theorem runInside_ret {e : Expr} (h : e.eval M scope ls mem = some (v, mem₁)) :
    runInside M scope [.ret e] ⟨ls, mem⟩ = some (⟨ls, mem₁⟩, some v) := by
  have hrun : runAll (Stmt.exec M scope) [.ret e] ⟨ls, mem⟩ = some (⟨ls, mem₁⟩, some v) := runAll_cons_ret (exec_ret h)
  simp [runInside, hrun]

/-- Where no value is found to return, nothing is returned. -/
theorem runInside_ret_of_none {e : Expr} (h : e.eval M scope ls mem = none) : runInside M scope [.ret e] ⟨ls, mem⟩ = none := by
  simp [runInside, runAll, Stmt.exec, h]

theorem runAll_simple {s : Stmt} {rest : List Block} (h : s.exec M scope fr = some (fr', none)) :
    runAll (Block.exec M scope) (.simple s :: rest) fr = runAll (Block.exec M scope) rest fr' :=
  runAll_cons h

theorem runAll_ret {e : Expr} {rest : List Block} (h : e.eval M scope ls mem = some (v, mem₁)) :
    runAll (Block.exec M scope) (.simple (.ret e) :: rest) ⟨ls, mem⟩ = some (⟨ls, mem₁⟩, some v) :=
  runAll_cons_ret (exec_ret h)

/-! ## Functions -/

/-- What a function means for its arguments is read off the run of its body. -/
theorem meaning_eq {s : Signature} {body : List Block} {vs : List (Value α)} (hlength : vs.length = s.params.flatten.length)
    (hrun : runAll (Block.exec M scope) body ⟨s.locals M vs, mem⟩ = some (⟨ls, mem₁⟩, some v)) :
    meaning M scope s body vs mem = some (M.convert s.result v, mem₁) :=
  (if_pos hlength).trans (bind_eq_of_eq_some _ hrun)

/-- A function has no value when its body does not come to an end. -/
theorem meaning_eq_none {s : Signature} {body : List Block} {vs : List (Value α)} (hlength : vs.length = s.params.flatten.length)
    (hrun : runAll (Block.exec M scope) body ⟨s.locals M vs, mem⟩ = none) : meaning M scope s body vs mem = none := by
  rw [meaning, if_pos hlength, hrun]
  rfl

/-- A function that ends without a result has an unknown one. -/
theorem meaning_eq_of_end {s : Signature} {body : List Block} {vs : List (Value α)} (hlength : vs.length = s.params.flatten.length)
    (hrun : runAll (Block.exec M scope) body ⟨s.locals M vs, mem⟩ = some (⟨ls, mem₁⟩, none)) :
    meaning M scope s body vs mem = some (.unknown, mem₁) :=
  (if_pos hlength).trans (bind_eq_of_eq_some _ hrun)

/-! ## Scopes -/

/-- The name of the function that an item defines. -/
def Item.function? : Item → Option String
  | .function _ s _ => some s.name
  | _ => none

/-- The structure that an item defines. -/
def Item.struct? : Item → Option (String × List (CType × String))
  | .struct name members => some (name, members)
  | _ => none

/-- The name of the constant that an item defines. -/
def Item.constant? : Item → Option String
  | .constant _ name _ => some name
  | _ => none

/-- Items add to a scope what they define and change nothing of it. -/
theorem foldl_link (items : List Item) (scope : Scope α) :
    ∃ constants functions, functions.map Prod.fst = items.filterMap Item.function? ∧
      items.foldl (Scope.link M) scope =
        ⟨scope.constants ++ constants, scope.structs ++ items.filterMap Item.struct?, scope.functions ++ functions⟩ := by
  induction items generalizing scope with
  | nil => exact ⟨[], [], rfl, by simp⟩
  | cons item items ih =>
    obtain ⟨constants, functions, hnames, hfold⟩ := ih (scope.link M item)
    rw [List.foldl_cons, hfold]
    cases item with
    | function style s body =>
      refine ⟨constants, (s.name, meaning M scope s body) :: functions, by simp [Item.function?, hnames], ?_⟩
      simp [List.filterMap_cons, Scope.link, Item.struct?]
    | struct name members =>
      exact ⟨constants, functions, by simp [List.filterMap_cons, Item.function?, hnames], by simp [Scope.link, Item.struct?]⟩
    | constant type name value =>
      simp only [Scope.link]
      split
      · rename_i v _ _
        refine ⟨(name, M.convert type v) :: constants, functions, by simp [List.filterMap_cons, Item.function?, hnames], ?_⟩
        simp [List.filterMap_cons, Item.struct?]
      · refine ⟨constants, functions, by simp [List.filterMap_cons, Item.function?, hnames], ?_⟩
        simp [List.filterMap_cons, Item.struct?]
    | _ =>
      exact ⟨constants, functions, by simp [List.filterMap_cons, Item.function?, hnames],
        by simp [List.filterMap_cons, Scope.link, Item.struct?]⟩

/-- Items further down a file are linked into the scope of those above them. -/
theorem Scope.ofItems_append (items more : List Item) :
    ofItems M (items ++ more) = more.foldl (link M) (ofItems M items) := by
  rw [ofItems, List.foldl_append, ofItems]

/-- A comment adds nothing. -/
theorem Scope.ofItems_comment (items : List Item) (text : String) : ofItems M (items ++ [.comment text]) = ofItems M items := by
  rw [ofItems_append]
  rfl

/-- A name that no entry has is not found. -/
theorem lookup_eq_none_of_notMem {β : Type} {name : String} {entries : List (String × β)} (h : name ∉ entries.map Prod.fst) :
    entries.lookup name = none := by
  rw [List.lookup_eq_none_iff]
  intro entry hentry
  rw [bne_iff_ne]
  rintro rfl
  exact h (List.mem_map_of_mem hentry)

/-- A name that no item defines is not that of a function. -/
theorem Scope.lookup_function_eq_none {items : List Item} {name : String} (h : name ∉ items.filterMap Item.function?) :
    (ofItems M items).functions.lookup name = none := by
  obtain ⟨constants, functions, hnames, hfold⟩ := foldl_link (M := M) items {}
  rw [← hnames] at h
  rw [ofItems, hfold]
  exact lookup_eq_none_of_notMem h

/-- A function that is the first one of its name is found under it, and sees the items in front of it. -/
theorem Scope.lookup_function {before after : List Item} {style : Braces} {s : Signature} {body : List Block}
    (h : s.name ∉ before.filterMap Item.function?) :
    (ofItems M (before ++ .function style s body :: after)).functions.lookup s.name = some (meaning M (ofItems M before) s body) := by
  obtain ⟨constants, functions, -, hfold⟩ := foldl_link (M := M) after ((ofItems M before).link M (.function style s body))
  rw [ofItems_append, List.foldl_cons, hfold]
  simp [link, List.lookup_append, lookup_function_eq_none h]

/-- Running a function of a file is running what its name stands for in the scope of the file. -/
theorem runFunction_eq {items : List Item} {name : String} {run : Meaning α}
    (h : (Scope.ofItems M items).functions.lookup name = some run) : runFunction M items name = run := by
  funext vs mem
  exact bind_eq_of_eq_some _ h

/-- The items behind do not change what a name is found to be. -/
theorem Scope.lookup_constant {items : List Item} {name : String} {v : Value α} (h : (ofItems M items).constants.lookup name = some v)
    (more : List Item) : (ofItems M (items ++ more)).constants.lookup name = some v := by
  obtain ⟨constants, functions, -, hfold⟩ := foldl_link (M := M) more (ofItems M items)
  rw [ofItems_append, hfold, List.lookup_append, h]
  rfl

/-- Items that define no constants leave a scope without any. -/
theorem Scope.constants_ofItems {items : List Item} (h : ∀ item ∈ items, item.constant? = none) : (ofItems M items).constants = [] := by
  have hfold : ∀ scope : Scope α, (items.foldl (link M) scope).constants = scope.constants := by
    induction items with
    | nil => exact fun _ => rfl
    | cons item items ih =>
      intro scope
      rw [List.foldl_cons, ih fun x hx => h x (List.mem_cons_of_mem item hx)]
      cases item with
      | constant type name value => cases h _ List.mem_cons_self
      | _ => rfl
  exact hfold {}

theorem Scope.structs_ofItems (items : List Item) : (ofItems M items).structs = items.filterMap Item.struct? := by
  obtain ⟨constants, functions, -, hfold⟩ := foldl_link (M := M) items {}
  rw [ofItems, hfold]
  rfl

end DeviceCatalog.CSource
