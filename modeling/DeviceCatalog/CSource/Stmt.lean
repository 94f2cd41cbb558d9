import DeviceCatalog.CSource.Expr

/-!
# Statements of C

The statements of decoders and the lines they are printed on. A block is what a function body is made of; inside a loop or a branch
there are only simple statements.
-/

namespace DeviceCatalog.CSource

/-- A simple statement. -/
inductive Stmt where
  | declare (type : CType) (name : String)
  | define (type : CType) (name : String) (value : Expr)
  | assign (target value : Expr)
  | increase (target amount : Expr)
  | decrease (target amount : Expr)
  | increment (target : Expr)
  | run (e : Expr)
  | ret (value : Expr)

/-- The text of a statement with its semicolon. -/
def Stmt.text : Stmt → String
  | .declare type name => type.text ++ " " ++ name ++ ";"
  | .define type name value => type.text ++ " " ++ name ++ " = " ++ value.text ++ ";"
  | .assign target value => target.text ++ " = " ++ value.text ++ ";"
  | .increase target amount => target.text ++ " += " ++ amount.text ++ ";"
  | .decrease target amount => target.text ++ " -= " ++ amount.text ++ ";"
  | .increment target => target.text ++ "++;"
  | .run e => e.text ++ ";"
  | .ret value => "return " ++ value.text ++ ";"

/-- A part of a function body. -/
inductive Block where
  | blank
  | simple (s : Stmt)
  /-- A branch without braces. -/
  | when (condition : Expr) (s : Stmt)
  | loop (condition : Expr) (body : List Stmt)
  /-- The first branch whose condition holds. -/
  | choose (branches : List (Expr × List Stmt))

/-- Where the brace that opens a body stands. -/
inductive Braces where
  | ownLine
  | sameLine
deriving DecidableEq

/-- A line indented by a number of levels. -/
def indented (levels : Nat) (line : String) : String :=
  String.ofList (List.replicate (4 * levels) ' ') ++ line

/-- The lines of a body between braces, behind the line that introduces it. -/
def Braces.enclose (style : Braces) (levels : Nat) (head : String) (body : List String) : List String :=
  match style with
  | .ownLine => [indented levels head, indented levels "\x7b"] ++ body ++ [indented levels "\x7d"]
  | .sameLine => [indented levels (head ++ " \x7b")] ++ body ++ [indented levels "\x7d"]

/-- The lines of simple statements. -/
def Stmt.lines (levels : Nat) (body : List Stmt) : List String :=
  body.map fun s => indented levels s.text

/-- The lines of the branches of a choice, the first one with its own keyword. -/
def branchLines (style : Braces) (levels : Nat) (keyword : String) : List (Expr × List Stmt) → List String
  | [] => []
  | (condition, body) :: rest =>
    style.enclose levels (keyword ++ " (" ++ condition.text ++ ")") (Stmt.lines (levels + 1) body) ++
      branchLines style levels "else if" rest

/-- The lines of a block one level inside a function. -/
def Block.lines (style : Braces) : Block → List String
  | .blank => [""]
  | .simple s => [indented 1 s.text]
  | .when condition s => [indented 1 ("if (" ++ condition.text ++ ")"), indented 2 s.text]
  | .loop condition body =>
    style.enclose 1 ("while (" ++ condition.text ++ ")") (Stmt.lines 2 body)
  | .choose branches => branchLines style 1 "if" branches

end DeviceCatalog.CSource
