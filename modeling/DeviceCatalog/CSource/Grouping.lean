import DeviceCatalog.CSource.Declaration
import DeviceCatalog.CSource.Expr

/-!
# How the operands of an expression are grouped

The text of an expression, read as a compiler groups it, for the part of C in which bytes are put together: names, decimal literals,
parentheses, casts to types of numbers, subscripts and binary operators. The reader goes from token to token and keeps what still waits
for an operand. When an operator, a closing parenthesis or the end follows an operand, the operand goes to whatever waits and binds at
least as tightly as what follows, the latest first.
-/

namespace DeviceCatalog.CSource

/-- How tightly an operator binds. Operators of one level are grouped from the left. -/
def Operator.level : Operator → Nat
  | .either => 1
  | .both => 2
  | .bitOr => 3
  | .equal => 4
  | .less | .atLeast => 5
  | .shiftLeft => 6
  | .add | .sub => 7
  | .mul | .div => 8

/-- How tightly the outermost part of an expression binds: casts bind tighter than every operator, and what follows an operand tighter
than those. -/
def Expr.level : Expr → Nat
  | .binary op _ _ => op.level
  | .cast _ _ | .not _ => 9
  | _ => 10

/-! ## Words and operators -/

/-- The types that a cast can name. -/
def castTypes : List CType :=
  [.int8, .uint8, .int16, .uint16, .int32, .uint32, .uint64, .int, .float]

/-- The type that a word names. -/
def typeNamed? (word : String) : Option CType :=
  castTypes.find? fun type => type.text = word

/-- The operand that a word is: an identifier, or a number in decimal. Digits with a zero in front would not be decimal. -/
def operandOf? (word : String) : Option Expr :=
  if word ≠ "" ∧ name word = word then some (.var word)
  else
    match (Cell.word word).number? with
    | some n => if Text.decimal n = word then some (.decimal n) else none
    | none => none

/-- Every operator. -/
def Operator.all : List Operator :=
  [.add, .sub, .mul, .div, .bitOr, .shiftLeft, .less, .atLeast, .equal, .both, .either]

/-- The operator that some characters are. -/
def operatorOf? (cs : List Char) : Option Operator :=
  Operator.all.find? fun op => op.text.toList = cs

/-! ## What waits for an operand -/

/-- What stands in front of an operand that is read. -/
inductive Pending where
  | parenthesis
  | subscript (array : Expr)
  | cast (type : CType)
  | operand (op : Operator) (left : Expr)

/-- How tightly it binds the operand. What is closed by a mark of its own does not bind it. -/
def Pending.level : Pending → Nat
  | .parenthesis | .subscript _ => 0
  | .cast _ => 9
  | .operand op _ => op.level

/-- The expression that it makes with its operand. -/
def Pending.complete : Pending → Expr → Expr
  | .parenthesis, e => .group e
  | .subscript array, e => .index array e
  | .cast type, e => .cast type e
  | .operand op left, e => .binary op left e

/-- An operand given to everything that waits and binds at least as tightly as a level, and what waits then. -/
def settle (level : Nat) (e : Expr) : List Pending → Expr × List Pending
  | [] => (e, [])
  | p :: ps => if level ≤ p.level then settle level (p.complete e) ps else (e, p :: ps)

/-! ## The reader -/

/-- How far a reader has come. -/
inductive Reader where
  /-- An operand comes next. -/
  | expecting (pending : List Pending)
  /-- An opening parenthesis and a type have been read. -/
  | casting (type : CType) (pending : List Pending)
  /-- An operand has been read. -/
  | holding (e : Expr) (pending : List Pending)
  /-- An operand and the first character of an operator have been read. -/
  | operating (first : Char) (e : Expr) (pending : List Pending)

namespace Reader

/-- A token where an operand comes next. -/
def expect? (pending : List Pending) : Token → Option Reader
  | .mark '(' => some (.expecting (.parenthesis :: pending))
  | .cell (.word word) =>
    match typeNamed? word, pending with
    | some type, .parenthesis :: pending => some (.casting type pending)
    | some _, _ => none
    | none, _ => (operandOf? word).map (.holding · pending)
  | _ => none

/-- What waits behind an operand and an operator. -/
def operate (op : Operator) (e : Expr) (pending : List Pending) : List Pending :=
  let (left, pending) := settle op.level e pending
  .operand op left :: pending

/-- The next token read. An operator has one or two characters, so it has been read when the token behind its first one is there. -/
def step? : Reader → Token → Option Reader
  | .expecting pending, t => expect? pending t
  | .casting type pending, t => if t = .mark ')' then some (.expecting (.cast type :: pending)) else none
  | .holding e pending, .mark c =>
    if c = '[' then some (.expecting (.subscript e :: pending))
    else if c = ')' then
      match settle 1 e pending with
      | (inner, .parenthesis :: pending) => some (.holding (.group inner) pending)
      | _ => none
    else if c = ']' then
      match settle 1 e pending with
      | (position, .subscript array :: pending) => some (.holding (.index array position) pending)
      | _ => none
    else some (.operating c e pending)
  | .holding _ _, .cell _ => none
  | .operating first e pending, t =>
    match t, operatorOf? [first] with
    | .mark c, single =>
      match operatorOf? [first, c], single with
      | some op, _ => some (.expecting (operate op e pending))
      | none, some op => expect? (operate op e pending) t
      | none, none => none
    | _, some op => expect? (operate op e pending) t
    | _, none => none

/-- The expression that has been read when nothing follows. -/
def finish? : Reader → Option Expr
  | .holding e pending =>
    match settle 1 e pending with
    | (whole, []) => some whole
    | _ => none
  | _ => none

end Reader

/-- The expression that a text is read as. -/
def Expr.read? (text : String) : Option Expr := do
  let ts ← tokens? text.toList
  let r ← ts.foldlM Reader.step? (.expecting [])
  r.finish?

end DeviceCatalog.CSource
