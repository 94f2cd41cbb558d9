import DeviceCatalog.CSource.Item
import DeviceCatalog.CSource.Texts

/-!
# String literals in a source file

The texts of the string literals on the lines of a function, read as a compiler reads them, and the texts that a function is built with, in
the order of its text.
-/

namespace DeviceCatalog.CSource

/-! ## The literals of lines -/

/-- What stands behind a literal is shorter than what stands behind its opening quote. -/
theorem length_of_readQuoted? {cs text rest : List Char} (h : readQuoted? cs = some (text, rest)) : rest.length < cs.length := by
  fun_induction readQuoted? cs generalizing text rest with
  | case1 => cases h
  | case2 cs =>
    cases h
    exact Nat.lt_succ_self _
  | case3 c cs d tail behind hread _ ih =>
    cases h
    have hlen := ih hread
    rw [List.length_cons, List.length_cons]
    omega
  | case4 => cases h
  | case5 => cases h
  | case6 c cs _ _ _ ih =>
    obtain ⟨⟨tail, behind⟩, hread, hpair⟩ := Option.map_eq_some_iff.1 h
    cases hpair
    exact Nat.lt_succ_of_lt (ih hread)

/-- The texts of the string literals of a line, in order; there are none when a literal does not end in the line. -/
def literals? : List Char → Option (List String)
  | [] => some []
  | c :: cs =>
    if c = '"' then
      match _h : readQuoted? cs with
      | some (text, rest) => (literals? rest).map (String.ofList text :: ·)
      | none => none
    else literals? cs
termination_by cs => cs.length
decreasing_by
  · exact Nat.lt_succ_of_lt (length_of_readQuoted? _h)
  · exact Nat.lt_succ_self _

/-- The texts of the string literals of some lines; every literal has to end in its line. -/
def literalsOfLines? : List (List Char) → Option (List String)
  | [] => some []
  | l :: ls =>
    match literals? l, literalsOfLines? ls with
    | some texts, some rest => some (texts ++ rest)
    | _, _ => none

/-! ## The texts of a function -/

mutual

/-- The texts of an expression that are printed as string literals. -/
def Expr.strings : Expr → List String
  | .string text => [text]
  | .group e => e.strings
  | .cast _ e => e.strings
  | .not e => e.strings
  | .binary _ left right => left.strings ++ right.strings
  | .index array position => array.strings ++ position.strings
  | .member object _ => object.strings
  | .arrow pointer _ => pointer.strings
  | .call _ arguments => Expr.stringsOfAll arguments
  | _ => []

/-- The texts of some expressions, one after the other. -/
def Expr.stringsOfAll : List Expr → List String
  | [] => []
  | e :: es => e.strings ++ Expr.stringsOfAll es

end

/-- The texts of a simple statement. -/
def Stmt.strings : Stmt → List String
  | .declare _ _ => []
  | .define _ _ value => value.strings
  | .assign target value => target.strings ++ value.strings
  | .increase target amount => target.strings ++ amount.strings
  | .decrease target amount => target.strings ++ amount.strings
  | .increment target => target.strings
  | .run e => e.strings
  | .ret value => value.strings

/-- The texts of a block. -/
def Block.strings : Block → List String
  | .blank => []
  | .simple s => s.strings
  | .when condition s => condition.strings ++ s.strings
  | .loop condition body => condition.strings ++ body.flatMap Stmt.strings
  | .choose branches => branches.flatMap fun branch => branch.1.strings ++ branch.2.flatMap Stmt.strings

end DeviceCatalog.CSource
