import DeviceCatalog.Artifact.Extraction
import DeviceCatalog.Proofs.Evaluation
import Mathlib.Data.Nat.Bitwise
import Mathlib.Tactic.Ring

/-!
# Numbers put together from bytes

The expression that puts bytes together reads each of them once, in the order of the buffer, and its value is the number that the bytes
make in the byte order (`eval_composeBytes`): byte after byte, the bits that a term brings are bits that the terms before it left free
(`partialNumber_succ`).
-/

namespace DeviceCatalog

open CSource

/-! ## Bytes and numbers -/

/-- The number that bytes make, the lowest byte first. -/
def littleNumber : List UInt8 → Nat
  | [] => 0
  | b :: bs => b.toNat + 256 * littleNumber bs

/-- The bytes of a number, the lowest byte first. -/
def littleBytes : Nat → Nat → List UInt8
  | 0, _ => []
  | width + 1, n => UInt8.ofNat n :: littleBytes width (n / 256)

/-- The number that bytes make in an order. -/
def ByteOrder.number : ByteOrder → List UInt8 → Nat
  | .little, bs => littleNumber bs
  | .big, bs => littleNumber bs.reverse

/-- The bytes of a number in an order. -/
def ByteOrder.bytes : ByteOrder → Nat → Nat → List UInt8
  | .little, width, n => littleBytes width n
  | .big, width, n => (littleBytes width n).reverse

/-- Bytes behind others count by the power that the others take up. -/
theorem littleNumber_append (bs cs : List UInt8) : littleNumber (bs ++ cs) = littleNumber bs + 256 ^ bs.length * littleNumber cs := by
  induction bs with
  | nil => simp [littleNumber]
  | cons b bs ih =>
    rw [List.cons_append, littleNumber, littleNumber, ih, List.length_cons, Nat.pow_succ']
    ring

/-- Bytes make a number that they have room for. -/
theorem littleNumber_lt (bs : List UInt8) : littleNumber bs < 256 ^ bs.length := by
  induction bs with
  | nil => exact Nat.one_pos
  | cons b bs ih =>
    have hb := b.toNat_lt
    rw [littleNumber, List.length_cons, Nat.pow_succ']
    omega

theorem length_littleBytes (width n : Nat) : (littleBytes width n).length = width := by
  induction width generalizing n with
  | zero => rfl
  | succ width ih => rw [littleBytes, List.length_cons, ih]

/-- Bytes written for a number make that number again, as far as there is room. -/
theorem littleNumber_littleBytes (width n : Nat) : littleNumber (littleBytes width n) = n % 256 ^ width := by
  induction width generalizing n with
  | zero => rw [Nat.pow_zero, Nat.mod_one]; rfl
  | succ width ih =>
    have hlow : (UInt8.ofNat n).toNat = n % 256 := UInt8.toNat_ofNat'
    rw [littleBytes, littleNumber, ih, hlow, Nat.pow_succ', ← Nat.mod_mul]

namespace ByteOrder

theorem number_lt (order : ByteOrder) (bs : List UInt8) : order.number bs < 256 ^ bs.length := by
  cases order with
  | little => exact littleNumber_lt bs
  | big =>
    have hlt := littleNumber_lt bs.reverse
    rwa [List.length_reverse] at hlt

@[simp] theorem length_bytes (order : ByteOrder) (width n : Nat) : (order.bytes width n).length = width := by
  cases order with
  | little => exact length_littleBytes width n
  | big => exact (List.length_reverse).trans (length_littleBytes width n)

/-- The bytes of a number make the number again, as far as they go. -/
@[simp] theorem number_bytes (order : ByteOrder) (width n : Nat) : order.number (order.bytes width n) = n % 256 ^ width := by
  cases order with
  | little => exact littleNumber_littleBytes width n
  | big =>
    rw [number, bytes, List.reverse_reverse]
    exact littleNumber_littleBytes width n

/-- What the first bytes of a field of some width contribute to its number. -/
def partialNumber (order : ByteOrder) (width : Nat) (bs : List UInt8) (n : Nat) : Nat :=
  match order with
  | .little => littleNumber (bs.take n)
  | .big => littleNumber (bs.take n).reverse * 256 ^ (width - n)

section Partial

variable (order : ByteOrder) {width : Nat} {bs : List UInt8} (hlength : bs.length = width)

theorem partialNumber_zero (width : Nat) (bs : List UInt8) : order.partialNumber width bs 0 = 0 := by
  cases order with
  | little => rfl
  | big => rw [partialNumber, List.take_zero, List.reverse_nil, littleNumber, Nat.zero_mul]

include hlength

theorem partialNumber_width : order.partialNumber width bs width = order.number bs := by
  subst hlength
  cases order with
  | little => rw [partialNumber, number, List.take_length]
  | big => rw [partialNumber, number, List.take_length, Nat.sub_self, Nat.pow_zero, Nat.mul_one]

/-- The bytes taken so far make a number that all of them have room for. -/
theorem partialNumber_lt {n : Nat} (hn : n ≤ width) : order.partialNumber width bs n < 256 ^ width := by
  have htake : (bs.take n).length = n := List.length_take_of_le (hlength ▸ hn)
  cases order with
  | little =>
    have hlt := littleNumber_lt (bs.take n)
    rw [htake] at hlt
    exact Nat.lt_of_lt_of_le hlt (Nat.pow_le_pow_right (by decide) hn)
  | big =>
    have hlt := littleNumber_lt (bs.take n).reverse
    rw [List.length_reverse, htake] at hlt
    have hpow : 256 ^ width = 256 ^ n * 256 ^ (width - n) := by rw [← Nat.pow_add, Nat.add_sub_cancel' hn]
    rw [partialNumber, hpow]
    exact Nat.mul_lt_mul_of_pos_right hlt (Nat.pow_pos (by decide))

end Partial

end ByteOrder

/-- Bits below a place and bits from it on do not meet. -/
theorem or_mul_two_pow {low : Nat} {k : Nat} (h : low < 2 ^ k) (high : Nat) : low ||| high * 2 ^ k = low + high * 2 ^ k := by
  rw [Nat.lor_comm, ← Nat.shiftLeft_eq, ← Nat.shiftLeft_add_eq_or_of_lt h, Nat.add_comm]

namespace Artifact

/-- Every byte brings bits that the bytes before it left free. -/
theorem partialNumber_succ (order : ByteOrder) {width n : Nat} {bs : List UInt8} (hlength : bs.length = width) (h : n < bs.length) :
    order.partialNumber width bs (n + 1) = order.partialNumber width bs n ||| bs[n].toNat * 2 ^ byteShift width order n := by
  have htake : (bs.take n).length = n := List.length_take_of_le (Nat.le_of_lt h)
  have hpow : ∀ k, 256 ^ k = 2 ^ (8 * k) := fun k => by rw [Nat.pow_mul]
  have hbyte := bs[n].toNat_lt
  cases order with
  | little =>
    have hlow := littleNumber_lt (bs.take n)
    rw [htake, hpow] at hlow
    simp only [ByteOrder.partialNumber, byteShift]
    rw [or_mul_two_pow hlow, List.take_succ_eq_append_getElem h, littleNumber_append, htake, littleNumber, littleNumber, hpow]
    ring
  | big =>
    have hshift : 8 * (width - n) = 8 * (width - 1 - n) + 8 := by omega
    have hlow : bs[n].toNat * 2 ^ (8 * (width - 1 - n)) < 2 ^ (8 * (width - n)) := by
      rw [hshift, Nat.pow_add, Nat.mul_comm]
      exact Nat.mul_lt_mul_of_pos_left hbyte (Nat.pow_pos (by decide))
    simp only [ByteOrder.partialNumber, byteShift, hpow]
    rw [Nat.lor_comm, or_mul_two_pow hlow, List.take_succ_eq_append_getElem h, List.reverse_append, littleNumber_append, hshift, Nat.pow_add,
      show width - (n + 1) = width - 1 - n by omega]
    simp only [List.reverse_singleton, List.length_singleton, littleNumber]
    ring

/-! ## Evaluation -/

variable {α : Type} {M : Machine α} {scope : Scope α} {ls : List (Local α)}

/-- Some bytes of the buffer. -/
def bytesAt (M : Machine α) (p width : Nat) : List UInt8 :=
  (M.buffer.drop p).take width

theorem length_bytesAt {p width : Nat} (h : p + width ≤ M.buffer.length) : (bytesAt M p width).length = width := by
  rw [bytesAt, List.length_take_of_le]
  rw [List.length_drop]
  omega

/-- Where as many bytes can be seen, the buffer goes on. -/
theorem le_length_of_length_bytesAt {p width : Nat} (h : (bytesAt M p width).length = width) (hpos : 0 < width) :
    p + width ≤ M.buffer.length := by
  rw [bytesAt, List.length_take, List.length_drop] at h
  omega

/-- The bytes at a position are those of the buffer from there on. -/
theorem getElem_bytesAt {p width i : Nat} (h : i < (bytesAt M p width).length) (h' : p + i < M.buffer.length) :
    (bytesAt M p width)[i] = M.buffer[p + i] := by
  simp only [bytesAt, List.getElem_take, List.getElem_drop]

/-- The expression has a value that does not depend on the memory, a number that is not negative, and evaluating it reads some bytes. -/
def GivesNat (M : Machine α) (scope : Scope α) (ls : List (Local α)) (e : Expr) (t : IntType) (n : Nat) (es : List (Event α)) : Prop :=
  Gives M scope ls e (.int t n) es

/-- Two numbers that fit into `uint32_t`, of which one at least is of that type or both meet there. -/
theorem GivesNat.bitOr {l r : Expr} {s t : IntType} {x y : Nat} {es es' : List (Event α)} (hl : GivesNat M scope ls l s x es)
    (hr : GivesNat M scope ls r t y es') (hcommon : s.common t = .uint32) (hx : x < 2 ^ 32) (hy : y < 2 ^ 32) :
    GivesNat M scope ls (.binary .bitOr l r) .uint32 (x ||| y) (es ++ es') := by
  intro mem
  have hmodulus : IntType.uint32.modulus = 2 ^ 32 := rfl
  have hkept : ∀ {n : Nat}, n < 2 ^ 32 → IntType.uint32.wrap n = n := fun h => IntType.wrap_natCast rfl h
  have hnat : ∀ {n : Nat}, n < 2 ^ 32 → ((n : Int) % IntType.uint32.modulus).toNat = n := by
    intro n h
    rw [hmodulus]
    omega
  have hvalue : M.apply .bitOr (.int s x) (.int t y) = some (.int .uint32 ((x ||| y : Nat) : Int)) := by
    rw [Machine.apply_integers]
    simp only [Value.ofIntegers, Value.bitOr, hcommon, hkept hx, hkept hy, hnat hx, hnat hy, hkept (Nat.or_lt_two_pow hx hy)]
  rw [← Memory.log_log]
  exact eval_binary (by decide) (hl mem) (hr (mem.log es)) hvalue

/-- In the type in which a place meets the distance of a byte from it, small numbers are what they are. -/
theorem wrap_common_int (t : IntType) {n : Nat} (hn : n < 2147483648) : (t.common .int).wrap n = n := by
  have hbits : 32 ≤ (t.common .int).bits := by
    have hint : IntType.int.promote = .int := rfl
    have hwide : 32 ≤ t.promote.bits := by
      unfold IntType.promote
      split
      · exact Nat.le_refl 32
      · omega
    unfold IntType.common
    rw [hint]
    split
    · exact Nat.le_refl 32
    · split
      · exact hwide
      · split
        · exact Nat.le_refl 32
        · exact hwide
  have hmodulus : 2 ^ 32 ≤ (t.common .int).modulus := Nat.pow_le_pow_right (by decide) hbits
  cases hsigned : (t.common .int).signed with
  | false => exact IntType.wrap_natCast hsigned (by omega)
  | true =>
    rw [IntType.wrap, if_pos hsigned]
    exact Int.bmod_eq_of_le (by omega) (by omega)

/-- The base of a place is zero, or an expression for the place of the first byte. The type of the expression has the places of all bytes. -/
def BaseGives (M : Machine α) (scope : Scope α) (ls : List (Local α)) (base : Option Expr) (width : Nat) (start : Int)
    (es : List (Event α)) : Prop :=
  match base with
  | none => start = 0 ∧ es = []
  | some e => ∃ t : IntType, Gives M scope ls e (.int t start) es ∧ ∀ i < width, (t.common .int).wrap (start + (i : Nat)) = start + (i : Nat)

/-- The place of a byte some places behind the base. -/
def placeBehind (base : Option Expr) (i : Nat) : Expr :=
  match base, i with
  | none, i => .decimal i
  | some e, 0 => e
  | some e, i => .binary .add e (.decimal i)

/-- The byte some places behind the base. -/
def byteBehind (base : Option Expr) (i : Nat) : Expr :=
  .index (.var "pBuf") (placeBehind base i)

theorem byteAt_eq (base : Option String) (i : Nat) : byteAt base i = byteBehind (base.map .var) i := by
  cases base with
  | none => rfl
  | some b => cases i <;> rfl

/-- The place of a byte is the base and the number of the byte. -/
theorem gives_placeBehind {base : Option Expr} {width i : Nat} {start : Int} {es : List (Event α)}
    (hbase : BaseGives M scope ls base width start es) (hi : i < width) (hwidth : width < 2147483648) :
    ∃ t, Gives M scope ls (placeBehind base i) (.int t (start + i)) es := by
  have hdecimal : ∀ mem, (Expr.decimal i).eval M scope ls mem = some (.int .int i, mem) := by
    intro mem
    rw [eval_decimal, Value.ofDecimal, if_pos (by simp; omega)]
  cases base with
  | none =>
    obtain ⟨rfl, rfl⟩ := hbase
    rw [Int.zero_add]
    exact ⟨.int, gives_of_eval hdecimal⟩
  | some e =>
    obtain ⟨t, he, hplaces⟩ := hbase
    cases i with
    | zero =>
      rw [Nat.cast_zero, Int.add_zero]
      exact ⟨t, he⟩
    | succ i =>
      have hstart : (t.common .int).wrap start = start := by simpa using hplaces 0 (by omega)
      have hadd : M.apply .add (.int t start) (.int .int ((i + 1 : Nat) : Int)) = some (.int (t.common .int) (start + (i + 1 : Nat))) := by
        rw [Machine.apply_integers, Value.ofIntegers_add, hstart, wrap_common_int t (by omega), Value.computed_of_wrap (hplaces (i + 1) hi)]
      exact ⟨t.common .int, fun mem => eval_binary (by decide) (he mem) (hdecimal _) hadd⟩

/-- Taking a byte reads it in the buffer, and no other one. -/
theorem gives_byteBehind {base : Option Expr} {p q width i : Nat} {start : Int} {es : List (Event α)} (hbuf : scope.variable ls "pBuf" = .bytes p)
    (hbase : BaseGives M scope ls base width start es) (hq : (q : Int) = p + start) (hi : i < width) (hwidth : width < 2147483648)
    (hlt : q + i < M.buffer.length) :
    GivesNat M scope ls (byteBehind base i) .uint8 M.buffer[q + i].toNat (es ++ [.read (q + i)]) := by
  obtain ⟨t, ht⟩ := gives_placeBehind hbase hi hwidth
  intro mem
  rw [← Memory.log_log]
  exact eval_index (eval_var hbuf) (ht mem) (by omega) hlt

/-- The type of a byte that is moved by some bits: one that stays where it is stays a byte. -/
def shiftedType (bits : Nat) : IntType :=
  if bits = 0 then .uint8 else .uint32

/-- A byte that is moved into its place is read once. -/
theorem eval_shiftedByte {byte : Expr} {b : UInt8} {es : List (Event α)} {bits : Nat} (h : GivesNat M scope ls byte .uint8 b.toNat es)
    (hbits : bits ≤ 24) : GivesNat M scope ls (shiftedByte byte bits) (shiftedType bits) (b.toNat * 2 ^ bits) es := by
  unfold shiftedByte shiftedType
  split
  · rename_i hzero
    rw [hzero, Nat.pow_zero, Nat.mul_one]
    exact h
  · intro mem
    have hb := b.toNat_lt
    -- A byte moved by at most 24 bits keeps within 32, so nothing is cut off.
    have hlt : b.toNat * 2 ^ bits < 2 ^ 32 := by
      have hpow : 2 ^ bits ≤ 2 ^ 24 := Nat.pow_le_pow_right (by decide) hbits
      have hmul : b.toNat * 2 ^ bits ≤ b.toNat * 2 ^ 24 := Nat.mul_le_mul_left _ hpow
      omega
    have hcast : (Expr.cast .uint32 byte).eval M scope ls mem = some (.int .uint32 b.toNat, mem.log es) := by
      rw [← Machine.convert_uint32 (M := M) .uint8 (show b.toNat < 4294967296 by omega)]
      exact eval_cast (h mem)
    have hdecimal : (Expr.decimal bits).eval M scope ls (mem.log es) = some (.int .int bits, mem.log es) := by
      rw [eval_decimal, Value.ofDecimal, if_pos (by simp; omega)]
    have hknown : ¬ ((bits : Int) < 0 ∨ (IntType.uint32.bits : Int) ≤ bits ∨ IntType.uint32.signed = true ∧ (b.toNat : Int) < 0) := by
      have hwidth : IntType.uint32.bits = 32 := rfl
      omega
    have hvalue : M.apply .shiftLeft (.int .uint32 b.toNat) (.int .int bits) =
        some (.int .uint32 ((b.toNat * 2 ^ bits : Nat) : Int)) := by
      have hpromote : IntType.uint32.promote = .uint32 := rfl
      have hproduct : (b.toNat : Int) * (Nat.pow 2 (bits : Int).toNat : Nat) = ((b.toNat * 2 ^ bits : Nat) : Int) := by
        rw [Int.toNat_natCast, ← Nat.cast_mul]
        rfl
      rw [Machine.apply_integers]
      simp only [Value.ofIntegers, Value.shiftLeft, hpromote, if_neg hknown, hproduct]
      rw [Value.computed_of_unsigned (t := .uint32) rfl, IntType.wrap_natCast (t := .uint32) rfl hlt]
    rw [eval_group]
    exact eval_binary (by decide) hcast hdecimal hvalue

/-- No byte of a number of four bytes is shifted out of 32 bits. -/
theorem byteShift_le {width : Nat} (order : ByteOrder) {i : Nat} (hwidth : width ≤ 4) (hi : i < width) : byteShift width order i ≤ 24 := by
  cases order <;> simp only [byteShift] <;> omega

/-- Of the first byte of a field and another one, one at least is moved. -/
theorem byteShift_ne_zero {width : Nat} (order : ByteOrder) {i : Nat} (hi : i + 1 < width) :
    byteShift width order 0 ≠ 0 ∨ byteShift width order (i + 1) ≠ 0 := by
  cases order <;> simp only [byteShift] <;> omega

/-! ## Terms -/

section Terms

variable (width : Nat) (base : Option Expr) (order : ByteOrder)

/-- The term of a byte. -/
def byteTerm (i : Nat) : Expr :=
  shiftedByte (byteBehind base i) (byteShift width order i)

/-- The first terms put together: one, and some more. -/
def composedTerms (more : Nat) : Expr :=
  ((List.range more).map fun i => byteTerm width base order (i + 1)).foldl (Expr.binary .bitOr) (byteTerm width base order 0)

/-- The type of the first terms put together: a byte that stays where it is, and is alone, stays a byte. -/
def termsType (more : Nat) : IntType :=
  if more = 0 then shiftedType (byteShift width order 0) else .uint32

/-- The composed text is that of its terms, one for every byte. -/
theorem composeBytes_eq (base : Option String) (more : Nat) :
    composeBytes (more + 1) base order = composedTerms (more + 1) (base.map .var) order more := by
  rw [composeBytes, List.range_succ_eq_map, List.map_cons, List.map_map]
  simp only [byteAt_eq]
  rfl

/-- One more byte is joined to those before it. -/
theorem composedTerms_succ (more : Nat) : composedTerms width base order (more + 1) =
    .binary .bitOr (composedTerms width base order more) (byteTerm width base order (more + 1)) := by
  rw [composedTerms, composedTerms, List.range_succ, List.map_append, List.foldl_append]
  rfl

/-- Terms of more than one byte are joined as 32 unsigned bits. -/
theorem termsType_common {more : Nat} (h : more + 1 < width) :
    (termsType width order more).common (shiftedType (byteShift width order (more + 1))) = .uint32 := by
  unfold termsType shiftedType
  rcases byteShift_ne_zero order h with hne | hne
  · rw [if_neg hne, ite_self]
    split <;> rfl
  · rw [if_neg hne]
    split
    · split <;> rfl
    · rfl

end Terms

/-- The type of the number that some bytes make: a single byte is not put together. -/
def composedType (width : Nat) : IntType :=
  if width = 1 then .uint8 else .uint32

section Composition

variable {width p q : Nat} {start : Int} {base : Option Expr} {es : List (Event α)} (order : ByteOrder)
  (hbuf : scope.variable ls "pBuf" = .bytes p) (hbase : BaseGives M scope ls base width start es) (hq : (q : Int) = p + start)
  (hwidth : width ≤ 4) (hin : q + width ≤ M.buffer.length)

include hbuf hbase hq hwidth hin

/-- A term gives its byte, moved into its place. -/
theorem givesNat_byteTerm {i : Nat} (hi : i < (bytesAt M q width).length) :
    GivesNat M scope ls (byteTerm width base order i) (shiftedType (byteShift width order i))
      ((bytesAt M q width)[i].toNat * 2 ^ byteShift width order i) (es ++ [.read (q + i)]) := by
  have hlt : i < width := length_bytesAt hin ▸ hi
  rw [getElem_bytesAt hi (by omega)]
  exact eval_shiftedByte (gives_byteBehind hbuf hbase hq hlt (by omega) (by omega)) (byteShift_le order hwidth hlt)

/-- The terms up to some byte give what these bytes contribute. -/
theorem givesNat_composedTerms {more : Nat} (hmore : more + 1 ≤ width) :
    GivesNat M scope ls (composedTerms width base order more) (termsType width order more)
      (order.partialNumber width (bytesAt M q width) (more + 1))
      ((List.range (more + 1)).flatMap fun i => es ++ [.read (q + i)]) := by
  have hlength := length_bytesAt hin
  have hterm := fun i hi => givesNat_byteTerm order hbuf hbase hq hwidth hin (i := i) hi
  generalize bytesAt M q width = bs at hlength hterm
  induction more with
  | zero =>
    rw [partialNumber_succ order hlength (by omega), order.partialNumber_zero, Nat.zero_or, List.range_one, List.flatMap_singleton]
    exact hterm 0 (by omega)
  | succ more ih =>
    have hi : more + 1 < bs.length := by omega
    have hbyte : bs[more + 1].toNat * 2 ^ byteShift width order (more + 1) < 2 ^ 32 := by
      have hb := bs[more + 1].toNat_lt
      have hshift : 2 ^ byteShift width order (more + 1) ≤ 2 ^ 24 := Nat.pow_le_pow_right (by decide) (byteShift_le order hwidth hmore)
      have hmul := Nat.mul_le_mul_left bs[more + 1].toNat hshift
      omega
    have hearlier : order.partialNumber width bs (more + 1) < 2 ^ 32 :=
      Nat.lt_of_lt_of_le (order.partialNumber_lt hlength (by omega)) (Nat.pow_le_pow_right (by decide) hwidth)
    have hboth := (ih (by omega)).bitOr (hterm (more + 1) hi) (termsType_common width order hmore) hearlier hbyte
    rw [← partialNumber_succ order hlength hi] at hboth
    rw [composedTerms_succ, List.range_succ, List.flatMap_append, List.flatMap_singleton]
    exact hboth

/-- The bytes that are put together are read one behind the other, and give their number. -/
theorem givesNat_composed (hpos : 0 < width) :
    GivesNat M scope ls (composedTerms width base order (width - 1)) (composedType width) (order.number (bytesAt M q width))
      ((List.range width).flatMap fun i => es ++ [.read (q + i)]) := by
  obtain ⟨more, rfl⟩ : ∃ more, width = more + 1 := ⟨width - 1, by omega⟩
  have hall := givesNat_composedTerms order hbuf hbase hq hwidth hin (Nat.le_refl _)
  have htype : termsType (more + 1) order more = composedType (more + 1) := by
    rcases more with _ | more
    · cases order <;> rfl
    · rfl
  rwa [order.partialNumber_width (length_bytesAt hin), htype] at hall

end Composition

/-- The base of a place is zero, or a variable that holds it. -/
def BaseIs (scope : Scope α) (ls : List (Local α)) (base : Option String) (start : Nat) : Prop :=
  match base with
  | none => start = 0
  | some b => scope.variable ls b = .int .uint32 start

/-- A name or a missing base gives where its bytes begin without reading any. -/
theorem BaseIs.gives {base : Option String} {width start : Nat} (h : BaseIs scope ls base start) (hfit : start + width ≤ 4294967296) :
    BaseGives M scope ls (base.map .var) width start [] := by
  cases base with
  | none => exact ⟨congrArg Nat.cast h, rfl⟩
  | some b =>
    have hvalue : Gives M scope ls (.var b) (.int .uint32 start) [] := gives_of_eval fun mem => eval_var h
    refine ⟨.uint32, hvalue, fun i hi => ?_⟩
    rw [← Nat.cast_add]
    exact IntType.wrap_natCast (t := .uint32) rfl (Nat.lt_of_lt_of_le (Nat.add_lt_add_left hi start) hfit)

/-- Bytes behind a variable, or from the start of the buffer on, are put together to their number, and nothing else is done. -/
theorem eval_composeBytes {width p start : Nat} {base : Option String} (order : ByteOrder) (hbuf : scope.variable ls "pBuf" = .bytes p)
    (hbase : BaseIs scope ls base start) (hwidth : width ≤ 4) (hfit : start + width ≤ 4294967296)
    (hin : p + start + width ≤ M.buffer.length) (hpos : 0 < width) :
    GivesNat M scope ls (composeBytes width base order) (composedType width) (order.number (bytesAt M (p + start) width))
      (readsFrom (p + start) width) := by
  obtain ⟨more, rfl⟩ : ∃ more, width = more + 1 := ⟨width - 1, by omega⟩
  have hreads : (readsFrom (p + start) (more + 1) : List (Event α)) = (List.range (more + 1)).flatMap fun i => [] ++ [.read (p + start + i)] := by
    rw [readsFrom, List.range'_eq_map_range, List.map_map, List.map_eq_flatMap]
    rfl
  rw [composeBytes_eq, hreads]
  exact givesNat_composed order hbuf (hbase.gives hfit) (Nat.cast_add p start) hwidth hin hpos

end Artifact

end DeviceCatalog
