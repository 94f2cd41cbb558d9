import DeviceCatalog.CSource.Expr

/-!
# Values of C

What decoders compute with: integers of a width and a sign, floating-point numbers, and pointers to the buffer that is decoded and to the
structures that are filled. `int` has 32 bits and integers are two's complement. Floating-point arithmetic, the sizes of types and the
functions that emitted files only name belong to the machine. Where the language does not say what a computation gives, as for a division
by zero or a signed sum that overflows, the value is unknown; no decision and no access to memory can depend on an unknown value.
-/

namespace DeviceCatalog.CSource

/-! ## Integers -/

/-- An integer type. -/
structure IntType where
  signed : Bool
  bits : Nat
deriving DecidableEq

namespace IntType

/-- The type `int`. -/
def int : IntType := ⟨true, 32⟩

/-- The signed type that holds decimal literals too large for `int`. -/
def int64 : IntType := ⟨true, 64⟩

/-- The type `uint8_t`. -/
def uint8 : IntType := ⟨false, 8⟩

/-- The type `uint16_t`. -/
def uint16 : IntType := ⟨false, 16⟩

/-- The type `uint32_t`. -/
def uint32 : IntType := ⟨false, 32⟩

/-- The type `uint64_t`. -/
def uint64 : IntType := ⟨false, 64⟩

/-- The number of values of a type. -/
def modulus (t : IntType) : Nat := Nat.pow 2 t.bits

/-- The value of a type that a number is reduced to. -/
def wrap (t : IntType) (n : Int) : Int :=
  if t.signed then Int.bmod n t.modulus else n % t.modulus

/-- The type in which values of a type are computed with. -/
def promote (t : IntType) : IntType :=
  if t.bits < 32 then int else t

/-- The type in which two operands meet: the wider one, and of two equally wide ones the unsigned one. -/
def common (s t : IntType) : IntType :=
  if s.promote.bits < t.promote.bits then t.promote
  else if t.promote.bits < s.promote.bits then s.promote
  else if s.promote.signed then t.promote
  else s.promote

end IntType

/-- The format of a floating-point number. -/
inductive RealFormat where
  | single
  | double
deriving DecidableEq

/-- A type of numbers. -/
inductive NumberType where
  | int (t : IntType)
  | real (format : RealFormat)

/-- The spellings of the types of numbers. -/
def numberTypes : List (String × NumberType) :=
  [ ("int8_t", .int ⟨true, 8⟩), ("uint8_t", .int .uint8), ("int16_t", .int ⟨true, 16⟩), ("uint16_t", .int .uint16),
    ("int32_t", .int .int), ("uint32_t", .int .uint32), ("int64_t", .int .int64), ("uint64_t", .int .uint64), ("int", .int .int),
    ("float", .real .single), ("double", .real .double) ]

/-- The type of numbers that a type is, if it is one. -/
def CType.number? : CType → Option NumberType
  | .const type => type.number?
  | .pointer _ | .struct _ => none
  | type => numberTypes.lookup type.text

/-! ## Values -/

/-- A value. The numbers of the floating-point formats are those of the machine. -/
inductive Value (α : Type) where
  | int (type : IntType) (n : Int)
  | real (format : RealFormat) (x : α)
  /-- A pointer to a position in the buffer. -/
  | bytes (position : Nat)
  /-- A pointer to the room for decoded structures that does not say what they are. -/
  | room
  /-- A pointer to one of the structures in that room. -/
  | slot (struct : String) (index : Nat)
  /-- The decode state. -/
  | state
  /-- The union that shows the bits of a float. -/
  | bits (n : UInt32)
  | text (s : String)
  /-- Something of which only the name is known. -/
  | foreign (name : String)
  | unknown

namespace Value

variable {α : Type}

/-- The value of a condition. -/
def ofBool (b : Bool) : Value α :=
  .int .int (if b then 1 else 0)

/-- What a condition decides, if it decides anything. -/
def truth? : Value α → Option Bool
  | .int _ n => some (n ≠ 0)
  | .bytes _ | .room | .slot _ _ | .text _ => some true
  | _ => none

/-- The value of a computation in a type: a number that does not fit is reduced when the type is unsigned and unknown otherwise. -/
def computed (t : IntType) (n : Int) : Value α :=
  if t.signed ∧ t.wrap n ≠ n then .unknown else .int t (t.wrap n)

/-- The bits that are set in one of two values of a type. -/
def bitOr (t : IntType) (x y : Int) : Value α :=
  .int t (t.wrap ((x % t.modulus).toNat ||| (y % t.modulus).toNat : Nat))

/-- A value of a type moved left. -/
def shiftLeft (t : IntType) (x y : Int) : Value α :=
  if y < 0 ∨ t.bits ≤ y ∨ t.signed ∧ x < 0 then .unknown else computed t (x * Nat.pow 2 y.toNat)

/-- The value of an operation on integers. -/
def ofIntegers (op : Operator) (s : IntType) (x : Int) (t : IntType) (y : Int) : Value α :=
  let c := s.common t
  match op with
  | .add => computed c (c.wrap x + c.wrap y)
  | .sub => computed c (c.wrap x - c.wrap y)
  | .mul => computed c (c.wrap x * c.wrap y)
  | .div => if c.wrap y = 0 then .unknown else computed c ((c.wrap x).tdiv (c.wrap y))
  | .bitOr => bitOr c (c.wrap x) (c.wrap y)
  | .shiftLeft => shiftLeft s.promote x y
  | .less => ofBool (c.wrap x < c.wrap y)
  | .atLeast => ofBool (c.wrap y ≤ c.wrap x)
  | .equal => ofBool (c.wrap x = c.wrap y)
  | .both | .either => .unknown

/-- The value of a literal integer. -/
def ofDecimal (n : Int) : Value α :=
  if n.natAbs < Nat.pow 2 31 then .int .int n else if n.natAbs < Nat.pow 2 63 then .int .int64 n else .unknown

/-- The union after a value is put into a member. -/
def withMember (name : String) : Value α → Value α
  | .int _ n => if name = "u" then .bits (UInt32.ofInt n) else .unknown
  | _ => .unknown

/-- The format of a floating-point value. -/
def format? : Value α → Option RealFormat
  | .real f _ => some f
  | _ => none

end Value

/-! ## Machines -/

/-- What decoders run on: a buffer to decode, and what the language leaves to the platform. -/
structure Machine (α : Type) where
  buffer : List UInt8
  /-- The bits of the type of sizes. -/
  sizeBits : Nat
  le_sizeBits : 32 ≤ sizeBits
  sizeOf : CType → Nat
  sizeOf_pos : ∀ t, 0 < sizeOf t
  sizeOf_lt : ∀ t, sizeOf t < Nat.pow 2 sizeBits
  /-- The single number with some bits. -/
  ofBits : UInt32 → α
  /-- The number of a literal. -/
  literal : RealFormat → Binary64 → α
  ofInt : RealFormat → Int → α
  round : RealFormat → α → α
  /-- The whole part of a number, if it has one. -/
  truncate? : α → Option Int
  add : RealFormat → α → α → α
  sub : RealFormat → α → α → α
  mul : RealFormat → α → α → α
  div : RealFormat → α → α → α
  /-- The value of a function that no emitted file defines. -/
  external : String → List (Value α) → Value α

namespace Machine

variable {α : Type} (M : Machine α)

/-- The type of sizes. -/
def sizeType : IntType := ⟨false, M.sizeBits⟩

/-- A number in a floating-point format. -/
def real? (f : RealFormat) : Value α → Option α
  | .int _ n => some (M.ofInt f n)
  | .real _ x => some (M.round f x)
  | _ => none

/-- A value as a number of a type. -/
def toNumber : NumberType → Value α → Value α
  | .int t, .int _ n => .int t (t.wrap n)
  | .int t, .real _ x =>
    match M.truncate? x with
    | some n => if t.wrap n = n then .int t n else .unknown
    | none => .unknown
  | .int _, _ => .unknown
  | .real f, v =>
    match M.real? f v with
    | some x => .real f x
    | none => .unknown

/-- A value converted to a type. The room for structures becomes the first structure, and what a number is in a type that is not one
of numbers is unknown. -/
def convert (type : CType) (v : Value α) : Value α :=
  match type.number? with
  | some t => M.toNumber t v
  | none =>
    match type, v with
    | .pointer (.struct name), .room => .slot name 0
    | _, .int _ _ | _, .real _ _ => .unknown
    | _, v => v

/-- The value of an operation on two numbers of which one at least is floating-point. -/
def ofReals (op : Operator) (a b : Value α) : Value α :=
  let f := if a.format? = some .double ∨ b.format? = some .double then .double else .single
  match M.real? f a, M.real? f b with
  | some x, some y =>
    match op with
    | .add => .real f (M.add f x y)
    | .sub => .real f (M.sub f x y)
    | .mul => .real f (M.mul f x y)
    | .div => .real f (M.div f x y)
    | _ => .unknown
  | _, _ => .unknown

/-- The position at a distance from another one. It must be in the buffer or right behind it. -/
def moved? (position : Nat) (distance : Int) : Option (Value α) :=
  let target := position + distance
  if 0 ≤ target ∧ target ≤ M.buffer.length then some (.bytes target.toNat) else none

/-- The value of an operation. A pointer can only be moved. -/
def apply (op : Operator) : Value α → Value α → Option (Value α)
  | .int s x, .int t y => some (.ofIntegers op s x t y)
  | .bytes p, .int _ n => if op = .add then M.moved? p n else none
  | .slot name i, .int _ n => if op = .add ∧ 0 ≤ i + n then some (.slot name (i + n).toNat) else none
  | .bytes _, _ | .slot _ _, _ | _, .bytes _ | _, .slot _ _ => none
  | a, b => some (M.ofReals op a b)

/-- The member of the union that shows the bits of a float. -/
def memberOf (name : String) : Value α → Value α
  | .bits n => if name = "u" then .int .uint32 n.toNat else if name = "f" then .real .single (M.ofBits n) else .unknown
  | _ => .unknown

end Machine

end DeviceCatalog.CSource
