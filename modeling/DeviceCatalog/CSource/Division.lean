import DeviceCatalog.CSource.Item

/-!
# Divisions in a source file

What the functions of a file divide by, in the order of its text, and which of these are literals for zero.
-/

namespace DeviceCatalog.CSource

mutual

/-- The right operands of the divisions in an expression, each behind those inside the operands of its division. -/
def Expr.divisors : Expr → List Expr
  | .group e => e.divisors
  | .cast _ e => e.divisors
  | .not e => e.divisors
  | .binary op left right => left.divisors ++ right.divisors ++ if op = .div then [right] else []
  | .index array position => array.divisors ++ position.divisors
  | .member object _ => object.divisors
  | .arrow pointer _ => pointer.divisors
  | .call _ arguments => Expr.divisorsOfAll arguments
  | _ => []

/-- The divisors of some expressions, one after the other. -/
def Expr.divisorsOfAll : List Expr → List Expr
  | [] => []
  | e :: es => e.divisors ++ Expr.divisorsOfAll es

end

/-- The divisors of a simple statement. -/
def Stmt.divisors : Stmt → List Expr
  | .declare _ _ => []
  | .define _ _ value => value.divisors
  | .assign target value => target.divisors ++ value.divisors
  | .increase target amount => target.divisors ++ amount.divisors
  | .decrease target amount => target.divisors ++ amount.divisors
  | .increment target => target.divisors
  | .run e => e.divisors
  | .ret value => value.divisors

/-- The divisors of a block. -/
def Block.divisors : Block → List Expr
  | .blank => []
  | .simple s => s.divisors
  | .when condition s => condition.divisors ++ s.divisors
  | .loop condition body => condition.divisors ++ body.flatMap Stmt.divisors
  | .choose branches => branches.flatMap fun branch => branch.1.divisors ++ branch.2.flatMap Stmt.divisors

/-- The divisors in the functions of a file. -/
def divisors (items : List Item) : List Expr :=
  items.flatMap fun item =>
    match item with
    | .function _ _ body => body.flatMap Block.divisors
    | _ => []

/-- The expression is a literal for zero. -/
def Expr.isZeroLiteral : Expr → Bool
  | .decimal n => n == 0
  | .wide n => n == 0
  | .double x => x.isZero
  | .single x => x.isZero
  | .group e => e.isZeroLiteral
  | _ => false

/-- Some function of the file divides by a literal for zero. -/
def DividesByZero (items : List Item) : Prop :=
  ∃ e ∈ divisors items, e.isZeroLiteral = true

end DeviceCatalog.CSource
