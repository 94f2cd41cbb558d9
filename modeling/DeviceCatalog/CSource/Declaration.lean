import DeviceCatalog.CSource.Token
import DeviceCatalog.Address.Spec

/-!
# Declarations of tables and constants

The tokens of a file that declares constants and tables, read back as names with their cells. An initialiser is one cell or a list of
cells between braces, a comma between them and possibly one behind the last; the table of records has one such list for every row.
-/

namespace DeviceCatalog.CSource

/-- The number that a cell writes in decimal. -/
def Cell.number? : Cell → Option Nat
  | .word w => if w.toList.all Char.isDigit && !w.isEmpty then some (Nat.ofDigitChars 10 w.toList 0) else none
  | .text _ => none

/-- The address that a cell writes. -/
def Cell.address? : Cell → Option Address
  | .word w => Address.parse? w.toList
  | .text _ => none

/-- The cells up to the closing brace, and what stands behind it. -/
def readCells? : List Token → Option (List Cell × List Token)
  | .mark '\x7d' :: rest => some ([], rest)
  | .cell c :: .mark '\x7d' :: rest => some ([c], rest)
  | .cell c :: .mark ',' :: rest => (readCells? rest).map fun (cells, rest) => (c :: cells, rest)
  | _ => none

/-- Reading cells takes tokens. -/
theorem length_of_readCells? {ts rest : List Token} {cells : List Cell} (h : readCells? ts = some (cells, rest)) :
    rest.length < ts.length := by
  fun_induction readCells? ts generalizing cells with
  | case1 =>
    cases h
    simp
  | case2 =>
    cases h
    simp only [List.length_cons]
    omega
  | case3 c ts ih =>
    obtain ⟨⟨cells', rest'⟩, hread, heq⟩ := Option.map_eq_some_iff.1 h
    cases heq
    have hlen := ih hread
    simp only [List.length_cons]
    omega
  | case4 => cases h

/-- The rows up to the closing brace, and what stands behind it. -/
def readRows? : List Token → Option (List (List Cell) × List Token)
  | .mark '\x7d' :: rest => some ([], rest)
  | .mark '\x7b' :: ts =>
    match _h : readCells? ts with
    | some (row, .mark '\x7d' :: rest) => some ([row], rest)
    | some (row, .mark ',' :: rest) => (readRows? rest).map fun (rows, rest) => (row :: rows, rest)
    | _ => none
  | _ => none
termination_by ts => ts.length
decreasing_by
  have hlen := length_of_readCells? _h
  simp only [List.length_cons] at hlen ⊢
  omega

/-- The name that a declaration gives, whether it is an array, and what stands behind the equals sign. -/
def readDeclarator? : List Token → Option (String × Bool × List Token)
  | .cell (.word name) :: .mark '[' :: .mark ']' :: .mark '=' :: rest => some (name, true, rest)
  | .cell (.word name) :: .mark '=' :: rest => some (name, false, rest)
  | _ :: rest => readDeclarator? rest
  | [] => none

/-- Reading the name of a declaration takes tokens. -/
theorem length_of_readDeclarator? {ts rest : List Token} {name : String} {array : Bool}
    (h : readDeclarator? ts = some (name, array, rest)) : rest.length < ts.length := by
  fun_induction readDeclarator? ts with
  | case1 =>
    cases h
    simp only [List.length_cons]
    omega
  | case2 =>
    cases h
    simp only [List.length_cons]
    omega
  | case3 t ts _ _ ih =>
    have hlen := ih h
    rw [List.length_cons]
    omega
  | case4 => cases h

/-- The first declaration, of a table or of a constant, with its cells, and what stands behind its semicolon. -/
def readDeclaration? (ts : List Token) : Option ((String × List Cell) × List Token) :=
  match readDeclarator? ts with
  | some (name, true, .mark '\x7b' :: rest) =>
    match readCells? rest with
    | some (cells, .mark ';' :: rest) => some ((name, cells), rest)
    | _ => none
  | some (name, false, .cell c :: .mark ';' :: rest) => some ((name, [c]), rest)
  | _ => none

/-- Reading a declaration takes tokens. -/
theorem length_of_readDeclaration? {ts rest : List Token} {d : String × List Cell} (h : readDeclaration? ts = some (d, rest)) :
    rest.length < ts.length := by
  unfold readDeclaration? at h
  split at h
  · rename_i name inside hdeclarator
    have hlen := length_of_readDeclarator? hdeclarator
    split at h
    · rename_i cells behind hcells
      have hcells := length_of_readCells? hcells
      cases h
      simp only [List.length_cons] at hlen hcells
      omega
    · cases h
  · rename_i name c behind hdeclarator
    have hlen := length_of_readDeclarator? hdeclarator
    cases h
    simp only [List.length_cons] at hlen
    omega
  · cases h

/-- All declarations, in order. -/
def readDeclarations? : List Token → Option (List (String × List Cell))
  | [] => some []
  | t :: ts =>
    match _h : readDeclaration? (t :: ts) with
    | some (d, rest) => (readDeclarations? rest).map (d :: ·)
    | none => none
termination_by ts => ts.length
decreasing_by exact length_of_readDeclaration? _h

/-- The constants and tables that a text declares, in order, with their cells. -/
def declarations? (text : String) : Option (List (String × List Cell)) :=
  (tokens? text.toList).bind readDeclarations?

/-- The rows of the one table that a text declares, with the table's name. -/
def rows? (text : String) : Option (String × List (List Cell)) :=
  match (tokens? text.toList).bind readDeclarator? with
  | some (name, true, .mark '\x7b' :: ts) =>
    match readRows? ts with
    | some (rows, [.mark ';']) => some (name, rows)
    | _ => none
  | _ => none

end DeviceCatalog.CSource
