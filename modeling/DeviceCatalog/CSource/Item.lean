import DeviceCatalog.CSource.Stmt

/-!
# Items of a source file

What an emitted file consists of: directives, comments, constants, structures, tables, functions. A file is the text of its items,
one behind the other.
-/

namespace DeviceCatalog.CSource

/-- A parameter of a function. -/
structure Param where
  type : CType
  name : String

/-- The text of a parameter. -/
def Param.text (p : Param) : String :=
  p.type.text ++ " " ++ p.name

/-- The head of a function. Its parameters may be spread over several lines. -/
structure Signature where
  /-- What stands before the result type, such as `static inline`. -/
  qualifiers : List String := []
  result : CType
  name : String
  params : List (List Param)

/-- The text of a head; every line of parameters after the first is indented by three levels. -/
def Signature.text (s : Signature) : String :=
  let lines := s.params.map fun ps => String.intercalate ", " (ps.map Param.text)
  String.join (s.qualifiers.map (· ++ " ")) ++ s.result.text ++ " " ++ s.name ++ "(" ++
    String.intercalate (",\n" ++ indented 3 "") lines ++ ")"

/-- The cells of a table and how they are laid out. -/
inductive Cells where
  /-- All in the line of the declaration. -/
  | inline (cells : List Expr)
  /-- All in one line of their own, a comma behind each. -/
  | row (cells : List Expr)
  /-- One to a line, a comma behind each. -/
  | column (cells : List Expr)
  /-- Records between braces, the cells of a record one to a line. -/
  | records (rows : List (List Expr))

/-- An array with its initial values. -/
structure Table where
  type : CType
  name : String
  cells : Cells

/-- The text of one record of a table. -/
def recordText (cells : List Expr) : String :=
  indented 1 "\x7b\n" ++ String.intercalate ",\n" (cells.map fun e => indented 2 e.text) ++ "\n" ++
    indented 1 "\x7d,\n"

/-- The text of the cells between their braces. -/
def Cells.text : Cells → String
  | .inline cells => " \x7b" ++ String.intercalate ", " (cells.map Expr.text) ++ "\x7d"
  | .row cells => "\n\x7b\n" ++ indented 1 "" ++ String.join (cells.map (·.text ++ ",")) ++ "\n\x7d"
  | .column cells => "\n\x7b\n" ++ String.join (cells.map fun e => indented 1 (e.text ++ ",\n")) ++ "\x7d"
  | .records rows => "\n\x7b\n" ++ String.join (rows.map recordText) ++ "\x7d"

/-- An item of a source file. -/
inductive Item where
  | blank
  | pragmaOnce
  | includeSystem (header : String)
  | includeLocal (header : String)
  | usingNamespace (name : String)
  | comment (text : String)
  | constant (type : CType) (name : String) (value : Expr)
  | struct (name : String) (members : List (CType × String))
  | table (t : Table)
  | prototype (s : Signature)
  | function (style : Braces) (s : Signature) (body : List Block)
  /-- An entry of a symbol table. -/
  | symbol (name : String)

/-- A line with its end. -/
def line (s : String) : String :=
  s ++ "\n"

/-- The text of an item with its line ends. -/
def Item.text : Item → String
  | .blank => line ""
  | .pragmaOnce => line "#pragma once"
  | .includeSystem header => line ("#include <" ++ header ++ ">")
  | .includeLocal header => line ("#include \"" ++ header ++ "\"")
  | .usingNamespace name => line ("using namespace " ++ name ++ ";")
  | .comment text => line ("// " ++ text)
  | .constant type name value => line ("static const " ++ type.text ++ " " ++ name ++ " = " ++ value.text ++ ";")
  | .struct name members =>
    let memberLines := members.map fun (type, member) => indented 1 (type.text ++ " " ++ member ++ ";")
    String.join ((["struct " ++ name, "\x7b"] ++ memberLines ++ ["\x7d;"]).map line)
  | .table t => line ("static " ++ t.type.text ++ " " ++ t.name ++ "[] =" ++ t.cells.text ++ ";")
  | .prototype s => line (s.text ++ ";")
  | .function style s body => String.join ((style.enclose 0 s.text (body.flatMap (Block.lines style))).map line)
  | .symbol name => line ("Q(" ++ name ++ ")")

/-- The text of a file. -/
def fileText (items : List Item) : String :=
  String.join (items.map Item.text)

/-- The name that an item defines at file scope, if it defines one. -/
def Item.defines? : Item → Option String
  | .constant _ name _ => some name
  | .struct name _ => some name
  | .table t => some t.name
  | .function _ s _ => some s.name
  | _ => none

/-- The name of the function that an item declares without defining it. -/
def Item.declares? : Item → Option String
  | .prototype s => some s.name
  | _ => none

end DeviceCatalog.CSource
