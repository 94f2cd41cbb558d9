import DeviceCatalog.CSource.Item

/-!
# Calls in a source file

The calls that a function body makes, in the order of its text, each with the arguments it passes.
-/

namespace DeviceCatalog.CSource

/-- A function with the arguments that it is called with. -/
abbrev Call := String × List Expr

mutual

/-- The calls of an expression, an outer one before those in its arguments. -/
def Expr.calls : Expr → List Call
  | .group e => e.calls
  | .cast _ e => e.calls
  | .not e => e.calls
  | .binary _ left right => left.calls ++ right.calls
  | .index array position => array.calls ++ position.calls
  | .member object _ => object.calls
  | .arrow pointer _ => pointer.calls
  | .call function arguments => (function, arguments) :: Expr.callsOfAll arguments
  | _ => []

/-- The calls of some expressions, one after the other. -/
def Expr.callsOfAll : List Expr → List Call
  | [] => []
  | e :: es => e.calls ++ Expr.callsOfAll es

end

/-- The calls of a simple statement. -/
def Stmt.calls : Stmt → List Call
  | .declare _ _ => []
  | .define _ _ value => value.calls
  | .assign target value => target.calls ++ value.calls
  | .increase target amount => target.calls ++ amount.calls
  | .decrease target amount => target.calls ++ amount.calls
  | .increment target => target.calls
  | .run e => e.calls
  | .ret value => value.calls

/-- The calls of a block. -/
def Block.calls : Block → List Call
  | .blank => []
  | .simple s => s.calls
  | .when condition s => condition.calls ++ s.calls
  | .loop condition body => condition.calls ++ body.flatMap Stmt.calls
  | .choose branches => branches.flatMap fun branch => branch.1.calls ++ branch.2.flatMap Stmt.calls

end DeviceCatalog.CSource
