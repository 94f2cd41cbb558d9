import DeviceCatalog.Address
import DeviceCatalog.Binary64.Decimal
import DeviceCatalog.CSource.Literal

/-!
# Types and expressions of C

The part of C in which decoders and tables are written. An expression is printed as it is built: the parentheses of its text are
the `group` nodes of its tree, so whoever builds one puts a group wherever the precedence of C would read the text differently.
-/

namespace DeviceCatalog.CSource

/-- A type, as declarations and casts name it. -/
inductive CType where
  | int8
  | uint8
  | int16
  | uint16
  | int32
  | uint32
  | uint64
  | int
  | float
  | struct (name : String)
  | named (spelling : String)
  | const (type : CType)
  | pointer (target : CType)
deriving DecidableEq

/-- The text of a type. -/
def CType.text : CType → String
  | .int8 => "int8_t"
  | .uint8 => "uint8_t"
  | .int16 => "int16_t"
  | .uint16 => "uint16_t"
  | .int32 => "int32_t"
  | .uint32 => "uint32_t"
  | .uint64 => "uint64_t"
  | .int => "int"
  | .float => "float"
  | .struct name => "struct " ++ name
  | .named spelling => spelling
  | .const type => "const " ++ type.text
  | .pointer target => target.text ++ "*"

/-- The binary operators that decoders use. -/
inductive Operator where
  | add
  | sub
  | mul
  | div
  | bitOr
  | shiftLeft
  | less
  | atLeast
  | equal
  | both
  | either
deriving DecidableEq

/-- The text of an operator. -/
def Operator.text : Operator → String
  | .add => "+"
  | .sub => "-"
  | .mul => "*"
  | .div => "/"
  | .bitOr => "|"
  | .shiftLeft => "<<"
  | .less => "<"
  | .atLeast => ">="
  | .equal => "=="
  | .both => "&&"
  | .either => "||"

/-- An expression. -/
inductive Expr where
  | var (name : String)
  | decimal (n : Int)
  /-- A literal of type `unsigned long long`. -/
  | wide (n : Nat)
  | address (a : Address)
  /-- A literal of type `double`. -/
  | double (x : Binary64)
  /-- A literal of type `float`. -/
  | single (x : Binary64)
  | string (text : String)
  | raw (text : String)
  | group (e : Expr)
  | cast (type : CType) (e : Expr)
  | not (e : Expr)
  | binary (op : Operator) (left right : Expr)
  | index (array position : Expr)
  | member (object : Expr) (name : String)
  | arrow (pointer : Expr) (name : String)
  | call (function : String) (arguments : List Expr)
  | sizeOf (type : CType)

mutual

/-- The text of an expression. -/
def Expr.text : Expr → String
  | .var name => name
  | .decimal n => Text.signedDecimal n
  | .wide n => Text.decimal n ++ "ULL"
  | .address a => a.text
  | .double x => x.text .source
  | .single x => x.text .source ++ "f"
  | .string s => String.ofList (stringLiteral s.toList)
  | .raw s => String.ofList (rawLiteral s.toList)
  | .group e => "(" ++ e.text ++ ")"
  | .cast type e => "(" ++ type.text ++ ")" ++ e.text
  | .not e => "!" ++ e.text
  | .binary op l r => l.text ++ " " ++ op.text ++ " " ++ r.text
  | .index array position => array.text ++ "[" ++ position.text ++ "]"
  | .member object name => object.text ++ "." ++ name
  | .arrow pointer name => pointer.text ++ "->" ++ name
  | .call function arguments => function ++ "(" ++ String.intercalate ", " (Expr.texts arguments) ++ ")"
  | .sizeOf type => "sizeof(" ++ type.text ++ ")"

/-- The texts of arguments. -/
def Expr.texts : List Expr → List String
  | [] => []
  | e :: es => e.text :: Expr.texts es

end

/-- A number as integer arithmetic writes it: a whole number below `10 ^ 15` is an integer literal, any other one a literal of type
`double`. -/
def Expr.number (x : Binary64) : Expr :=
  match x.whole? with
  | some n => if n.natAbs < Nat.pow 10 15 then .decimal n else .double x
  | none => .double x

end DeviceCatalog.CSource
