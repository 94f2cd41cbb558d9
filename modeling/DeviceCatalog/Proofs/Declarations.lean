import DeviceCatalog.Proofs.Tokens

/-!
# Emitted declarations read back

Every item that declares constants and tables reads as its tokens (`readsAs_data`), and its tokens read as its name and its cells
(`readDeclaration?_dataTokens`); so a file of such items reads as what the items declare, in order (`declarations?_fileText`). The
table of records reads as its rows (`rows?_records`).
-/

namespace DeviceCatalog.CSource

/-! ## Reading on -/

/-- A row with a comma behind it comes before the rows that follow. -/
theorem readRows?_of_cells {ts rest : List Token} {row : List Cell} (h : readCells? ts = some (row, .mark ',' :: rest)) :
    readRows? (.mark '\x7b' :: ts) = (readRows? rest).map fun (rows, rest) => (row :: rows, rest) := by
  rw [readRows?]
  split
  · rename_i heq
    cases h.symm.trans heq
  · rename_i heq
    cases h.symm.trans heq
    rfl
  · rename_i hne
    exact absurd h (hne _ _)

/-- A declaration that is read comes before those that follow. -/
theorem readDeclarations?_of_declaration {ts rest : List Token} {d : String × List Cell} (h : readDeclaration? ts = some (d, rest)) :
    readDeclarations? ts = (readDeclarations? rest).map (d :: ·) := by
  cases ts with
  | nil => cases h
  | cons t ts =>
    rw [readDeclarations?]
    split
    · rename_i heq
      cases h.symm.trans heq
      rfl
    · rename_i heq
      cases h.symm.trans heq

/-! ## Cells -/

/-- The cell that an expression is printed as. -/
def Expr.cell : Expr → Cell
  | .raw s => .text s
  | e => .word e.text

@[simp] theorem Expr.cell_var (name : String) : (Expr.var name).cell = .word name := rfl

@[simp] theorem Expr.cell_decimal (n : Nat) : (Expr.decimal n).cell = .word (Text.decimal n) := rfl

@[simp] theorem Expr.cell_address (a : Address) : (Expr.address a).cell = .word a.text := rfl

/-- The expression is printed as a single cell. -/
def Expr.IsPlain (e : Expr) : Prop :=
  (∃ s, e = .raw s) ∨ (∀ s, e ≠ .raw s) ∧ IsWord e.text.toList

theorem isPlain_raw (s : String) : (Expr.raw s).IsPlain :=
  Or.inl ⟨s, rfl⟩

theorem isPlain_var {name : String} (h : IsWord name.toList) : (Expr.var name).IsPlain :=
  Or.inr ⟨nofun, h⟩

theorem isWord_decimal (n : Nat) : IsWord (Text.decimal n).toList := by
  rw [Text.decimal, String.toList_ofList]
  refine ⟨Nat.toDigits_ne_nil, List.all_eq_true.2 fun c hc => ?_⟩
  have hdigit : c.isDigit = true := Nat.isDigit_of_mem_toDigits (by decide) (by decide) hc
  simp [isNameChar, Char.isAlphanum, hdigit]

/-- A number in decimal reads as the number. -/
theorem Cell.number?_decimal (n : Nat) : (Cell.word (Text.decimal n)).number? = some n := by
  have hdigits : (Nat.toDigits 10 n).all Char.isDigit = true :=
    List.all_eq_true.2 fun c hc => Nat.isDigit_of_mem_toDigits (by decide) (by decide) hc
  simp [Cell.number?, Text.decimal, hdigits, Nat.ofDigitChars_ten_toDigits]

theorem isPlain_decimal (n : Nat) : (Expr.decimal n).IsPlain :=
  Or.inr ⟨nofun, isWord_decimal n⟩

/-- A hexadecimal digit can stand in a word. -/
theorem isNameChar_digitChar {n : Nat} (h : n < 16) : isNameChar (Nat.digitChar n) = true := by
  revert n
  decide

theorem isWord_address (a : Address) : IsWord a.text.toList := by
  have hlt := a.toNat_lt
  have hhigh : isNameChar (Nat.digitChar (a.toNat / 16)) = true := isNameChar_digitChar (by omega)
  have hlow : isNameChar (Nat.digitChar (a.toNat % 16)) = true := isNameChar_digitChar (by omega)
  have htext : a.text.toList = ['0', 'x', Nat.digitChar (a.toNat / 16), Nat.digitChar (a.toNat % 16)] := by
    simp [Address.text, Text.hexByte]
  rw [htext]
  refine ⟨nofun, ?_⟩
  rw [List.all_cons, List.all_cons, List.all_cons, List.all_cons, hhigh, hlow]
  decide

theorem isPlain_address (a : Address) : (Expr.address a).IsPlain :=
  Or.inr ⟨nofun, isWord_address a⟩

/-- A single cell in front of a mark reads as the cell and the mark. -/
theorem readsAs_cell {e : Expr} (he : e.IsPlain) {c : Char} (hc : isNameChar c = false) (hquote : c ≠ '"') :
    ReadsAs (e.text.toList ++ [c]) (.cell e.cell :: markTokens c) := by
  rcases he with ⟨s, rfl⟩ | ⟨hraw, hword⟩
  · have hliteral := (readsAs_rawLiteral s.toList).append (readsAs_mark hc)
    rw [String.ofList_toList] at hliteral
    simpa [Expr.text, Expr.cell] using hliteral
  · have hcell : e.cell = .word e.text := by
      cases e
      case raw s => exact absurd rfl (hraw s)
      all_goals rfl
    have hw := readsAs_word hword hc hquote
    rw [String.ofList_toList] at hw
    rwa [hcell]

/-! ## Lists of cells -/

/-- The tokens of cells with a comma behind each. -/
def trailingTokens (cells : List Cell) : List Token :=
  cells.flatMap fun c => [.cell c, .mark ',']

/-- The tokens of cells with a comma between them. -/
def separatedTokens (cells : List Cell) : List Token :=
  (cells.map Token.cell).intersperse (.mark ',')

/-- The tokens of a row of the table of records. -/
def rowTokens (cells : List Cell) : List Token :=
  .mark '\x7b' :: separatedTokens cells ++ [.mark '\x7d', .mark ',']

/-- Cells with a comma behind each of them read as the cells. -/
theorem readCells?_trailing (cells : List Cell) (rest : List Token) :
    readCells? (trailingTokens cells ++ .mark '\x7d' :: rest) = some (cells, rest) := by
  induction cells with
  | nil => rfl
  | cons c cells ih =>
    rw [trailingTokens, List.flatMap_cons, List.append_assoc]
    rw [trailingTokens] at ih
    simp [readCells?, ih]

/-- Cells with commas between them read as the cells. -/
theorem readCells?_separated (cells : List Cell) (rest : List Token) :
    readCells? (separatedTokens cells ++ .mark '\x7d' :: rest) = some (cells, rest) := by
  induction cells with
  | nil => rfl
  | cons c cells ih =>
    cases cells with
    | nil => rfl
    | cons d cells =>
      rw [separatedTokens] at ih ⊢
      simp only [List.map_cons, List.intersperse_cons_cons, List.cons_append] at ih ⊢
      rw [readCells?, ih]
      rfl

/-- Expressions with a comma behind each of them read as their cells, whatever blanks stand around them. -/
theorem readsAs_trailing {es : List Expr} (hes : ∀ e ∈ es, e.IsPlain) (indent tail : List Char)
    (hindent : ∀ c ∈ indent, isSpace c = true) (htail : ∀ c ∈ tail, isSpace c = true) :
    ReadsAs (es.flatMap fun e => indent ++ (e.text.toList ++ [',']) ++ tail) (trailingTokens (es.map Expr.cell)) := by
  rw [trailingTokens, List.flatMap_map]
  refine ReadsAs.flatMap fun e he => ?_
  exact ((readsAs_spaces hindent).append (readsAs_cell (hes e he) (by decide) (by decide))).append (readsAs_spaces htail)

/-- Expressions with commas between them read as their cells, whatever blanks stand around them. -/
theorem readsAs_separated {es : List Expr} (hes : ∀ e ∈ es, e.IsPlain) (indent blanks : List Char)
    (hindent : ∀ c ∈ indent, isSpace c = true) (hblanks : ∀ c ∈ blanks, isSpace c = true) {c : Char}
    (hc : isNameChar c = false) (hquote : c ≠ '"') :
    ReadsAs (List.intercalate (',' :: blanks) (es.map fun e => indent ++ e.text.toList) ++ [c])
      (separatedTokens (es.map Expr.cell) ++ markTokens c) := by
  induction es with
  | nil => exact readsAs_mark hc
  | cons e es ih =>
    have he := hes e List.mem_cons_self
    have hindent' := readsAs_spaces hindent
    cases es with
    | nil => simpa [separatedTokens] using hindent'.append (readsAs_cell he hc hquote)
    | cons d es =>
      have hrest := ih fun x hx => hes x (List.mem_cons_of_mem e hx)
      have hcomma : ReadsAs (e.text.toList ++ [',']) (.cell e.cell :: [.mark ',']) := readsAs_cell he (by decide) (by decide)
      have hall := ((hindent'.append hcomma).append (readsAs_spaces hblanks)).append hrest
      simpa [separatedTokens, List.intercalate] using hall

/-! ## Declarators -/

/-- The tokens of a type. -/
def CType.tokens : CType → List Token
  | .struct name => [.cell (.word "struct"), .cell (.word name)]
  | .const type => .cell (.word "const") :: type.tokens
  | .pointer target => target.tokens ++ [.mark '*']
  | type => [.cell (.word type.text)]

/-- The type is printed as words and stars. -/
def CType.IsPlain : CType → Prop
  | .struct name => IsWord name.toList
  | .named spelling => IsWord spelling.toList
  | .const type => type.IsPlain
  | .pointer target => target.IsPlain
  | _ => True

/-- A type in front of a mark reads as its tokens and the mark. -/
theorem readsAs_type {type : CType} (h : type.IsPlain) {c : Char} (hc : isNameChar c = false) (hquote : c ≠ '"') :
    ReadsAs (type.text.toList ++ [c]) (type.tokens ++ markTokens c) := by
  have hword : ∀ w : String, IsWord w.toList → ReadsAs (w.toList ++ [c]) (.cell (.word w) :: markTokens c) := by
    intro w hw
    simpa using readsAs_word hw hc hquote
  induction type generalizing c with
  | struct name =>
    have hstruct : ReadsAs ("struct".toList ++ [' ']) [.cell (.word "struct")] :=
      readsAs_word ⟨by decide, by decide⟩ (by decide) (by decide)
    simpa [CType.text, CType.tokens] using hstruct.append (hword name h)
  | named spelling => exact hword spelling h
  | const type ih =>
    have hconst : ReadsAs ("const".toList ++ [' ']) [.cell (.word "const")] :=
      readsAs_word ⟨by decide, by decide⟩ (by decide) (by decide)
    simpa [CType.text, CType.tokens] using hconst.append (ih h hc hquote hword)
  | pointer target ih =>
    have hstar : ReadsAs (target.text.toList ++ ['*']) (target.tokens ++ [.mark '*']) :=
      ih h (by decide) (by decide) fun w hw => by simpa using readsAs_word hw (by decide) (by decide)
    simpa [CType.text, CType.tokens] using hstar.append (readsAs_mark hc)
  | _ => exact hword _ ⟨by decide, by decide⟩

/-- The tokens are those of types: words and stars. -/
def OfTypes (ts : List Token) : Prop :=
  ∀ t ∈ ts, (∃ w, t = .cell (.word w)) ∨ t = .mark '*'

/-- The tokens of a type are words and stars. -/
theorem CType.ofTypes_tokens (type : CType) : OfTypes type.tokens := by
  intro t ht
  induction type with
  | struct name =>
    simp only [tokens, List.mem_cons, List.not_mem_nil, or_false] at ht
    rcases ht with rfl | rfl
    · exact Or.inl ⟨_, rfl⟩
    · exact Or.inl ⟨_, rfl⟩
  | const type ih =>
    rcases List.mem_cons.1 ht with rfl | ht
    · exact Or.inl ⟨_, rfl⟩
    · exact ih ht
  | pointer target ih =>
    rcases List.mem_append.1 ht with ht | ht
    · exact ih ht
    · exact Or.inr (List.mem_singleton.1 ht)
  | _ => exact Or.inl ⟨_, List.mem_singleton.1 ht⟩

/-- What stands before the declared name is passed over. -/
theorem readDeclarator?_append {ts : List Token} (hts : OfTypes ts) {name : String} {array : Bool} {rest behind : List Token}
    (hname : readDeclarator? (.cell (.word name) :: rest) = some (name, array, behind)) :
    readDeclarator? (ts ++ .cell (.word name) :: rest) = some (name, array, behind) := by
  induction ts with
  | nil => exact hname
  | cons t ts ih =>
    have htail := ih fun u hu => hts u (List.mem_cons_of_mem t hu)
    have hnext : ∃ u us, ts ++ .cell (.word name) :: rest = u :: us ∧ ((∃ w, u = .cell (.word w)) ∨ u = .mark '*') := by
      cases ts with
      | nil => exact ⟨_, _, rfl, Or.inl ⟨name, rfl⟩⟩
      | cons u us => exact ⟨u, _, rfl, hts u (by simp)⟩
    obtain ⟨u, us, heq, hu⟩ := hnext
    rw [heq] at htail
    rw [List.cons_append, heq]
    rcases hu with ⟨w, rfl⟩ | rfl
    · simpa [readDeclarator?] using htail
    · simpa [readDeclarator?] using htail

/-- The tokens of a declaration up to its name. -/
def headTokens (type : CType) (name : String) : List Token :=
  .cell (.word "static") :: type.tokens ++ [.cell (.word name)]

/-- What comes before the equals sign of a declaration reads as the tokens of its type and its name. -/
theorem readsAs_head {type : CType} (htype : type.IsPlain) {name : String} (hname : IsWord name.toList) {c : Char}
    (hc : isNameChar c = false) (hquote : c ≠ '"') :
    ReadsAs (("static " ++ type.text ++ " " ++ name).toList ++ [c]) (headTokens type name ++ markTokens c) := by
  have hstatic : ReadsAs ("static".toList ++ [' ']) [.cell (.word "static")] :=
    readsAs_word ⟨by decide, by decide⟩ (by decide) (by decide)
  have htype' : ReadsAs (type.text.toList ++ [' ']) (type.tokens ++ []) := readsAs_type htype (by decide) (by decide)
  have hname' := readsAs_word hname hc hquote
  have hall := (hstatic.append htype').append hname'
  simpa [headTokens] using hall

/-- The name of a declaration is found behind its type, for a table and for a constant. -/
theorem readDeclarator?_head (type : CType) (name : String) (rest : List Token) :
    readDeclarator? (headTokens type name ++ .mark '[' :: .mark ']' :: .mark '=' :: rest) = some (name, true, rest) ∧
      readDeclarator? (headTokens type name ++ .mark '=' :: rest) = some (name, false, rest) := by
  have htypes : OfTypes (.cell (.word "static") :: type.tokens) := by
    intro t ht
    rcases List.mem_cons.1 ht with rfl | ht
    · exact Or.inl ⟨_, rfl⟩
    · exact type.ofTypes_tokens t ht
  rw [headTokens, List.append_assoc, List.append_assoc]
  exact ⟨readDeclarator?_append htypes rfl, readDeclarator?_append htypes (by simp [readDeclarator?])⟩

/-! ## Items -/

/-- The cells of a table are printed as single cells, however they are laid out. -/
def Cells.IsPlain : Cells → Prop
  | .inline es | .row es | .column es => ∀ e ∈ es, e.IsPlain
  | .records _ => False

/-- The item declares a constant or a table of cells, or it is blank. -/
def Item.IsData : Item → Prop
  | .blank => True
  | .constant type name value => type.IsPlain ∧ IsWord name.toList ∧ value.IsPlain
  | .table t => t.type.IsPlain ∧ IsWord t.name.toList ∧ t.cells.IsPlain
  | _ => False

/-- What an item declares: a name and its cells. -/
def Item.declared? : Item → Option (String × List Cell)
  | .constant _ name value => some (name, [value.cell])
  | .table ⟨_, name, .inline es⟩ | .table ⟨_, name, .row es⟩ | .table ⟨_, name, .column es⟩ => some (name, es.map Expr.cell)
  | _ => none

/-- The tokens of the cells of a table. -/
def Cells.tokens : Cells → List Token
  | .inline es => separatedTokens (es.map Expr.cell)
  | .row es | .column es => trailingTokens (es.map Expr.cell)
  | .records rows => rows.flatMap fun row => rowTokens (row.map Expr.cell)

/-- The tokens of an item that declares data. -/
def Item.dataTokens : Item → List Token
  | .constant type name value => headTokens (.const type) name ++ [.mark '=', .cell value.cell, .mark ';']
  | .table t => headTokens t.type t.name ++ .mark '[' :: .mark ']' :: .mark '=' :: .mark '\x7b' :: t.cells.tokens ++
      [.mark '\x7d', .mark ';']
  | _ => []

theorem readsAs_indent (levels : Nat) : ReadsAs (List.replicate (4 * levels) ' ') [] :=
  readsAs_spaces fun c hc => by rw [(List.mem_replicate.1 hc).2]; rfl

/-- An indented line is its text behind four blanks for every level. -/
theorem toList_indented (levels : Nat) (text : String) :
    (indented levels text).toList = List.replicate (4 * levels) ' ' ++ text.toList := by
  simp [indented]

/-- One record between its braces. -/
theorem readsAs_record {es : List Expr} (hes : ∀ e ∈ es, e.IsPlain) :
    ReadsAs (recordText es).toList (rowTokens (es.map Expr.cell)) := by
  have hspaces : ∀ levels, ∀ c ∈ List.replicate (4 * levels) ' ', isSpace c = true := by
    intro levels c hc
    rw [(List.mem_replicate.1 hc).2]
    rfl
  have hopen : ReadsAs ['\x7b'] [.mark '\x7b'] := readsAs_mark (by decide)
  have hline : ReadsAs ['\n'] [] := readsAs_mark (by decide)
  have hcells := readsAs_separated hes _ ['\n'] (hspaces 2) (by simp [isSpace]) (c := '\n') (by decide) (by decide)
  have hclose : ReadsAs ['\x7d'] [.mark '\x7d'] := readsAs_mark (by decide)
  have hcomma : ReadsAs [','] [.mark ','] := readsAs_mark (by decide)
  have hall := (((((((readsAs_indent 1).append hopen).append hline).append hcells).append (readsAs_indent 1)).append hclose).append
    hcomma).append hline
  simpa [recordText, rowTokens, toList_indented, markTokens, isSpace, Function.comp_def] using hall

/-- Cells on one line read as their tokens between braces. -/
theorem readsAs_inline {es : List Expr} (hes : ∀ e ∈ es, e.IsPlain) :
    ReadsAs (Cells.inline es).text.toList (.mark '\x7b' :: (Cells.inline es).tokens ++ [.mark '\x7d']) := by
  have hspace : ReadsAs [' '] [] := readsAs_mark (by decide)
  have hopen : ReadsAs ['\x7b'] [.mark '\x7b'] := readsAs_mark (by decide)
  have hcells := readsAs_separated hes [] [' '] nofun (by simp [isSpace]) (c := '\x7d') (by decide) (by decide)
  have hall := (hspace.append hopen).append hcells
  simpa [Cells.text, Cells.tokens, markTokens, isSpace, Function.comp_def] using hall

/-- The line that opens the braces of a table, and the brace. -/
theorem readsAs_open : ReadsAs "\n\x7b\n".toList [.mark '\x7b'] := by
  have hline : ReadsAs ['\n'] [] := readsAs_mark (by decide)
  have hopen : ReadsAs ['\x7b'] [.mark '\x7b'] := readsAs_mark (by decide)
  simpa using (hline.append hopen).append hline

theorem readsAs_row {es : List Expr} (hes : ∀ e ∈ es, e.IsPlain) :
    ReadsAs (Cells.row es).text.toList (.mark '\x7b' :: (Cells.row es).tokens ++ [.mark '\x7d']) := by
  have hcells := readsAs_trailing hes [] [] nofun nofun
  have hline : ReadsAs ['\n'] [] := readsAs_mark (by decide)
  have hclose : ReadsAs ['\x7d'] [.mark '\x7d'] := readsAs_mark (by decide)
  have hall := (((readsAs_open.append (readsAs_indent 1)).append hcells).append hline).append hclose
  simpa [Cells.text, Cells.tokens, toList_indented, Function.comp_def, List.flatMap_map] using hall

theorem readsAs_column {es : List Expr} (hes : ∀ e ∈ es, e.IsPlain) :
    ReadsAs (Cells.column es).text.toList (.mark '\x7b' :: (Cells.column es).tokens ++ [.mark '\x7d']) := by
  have hcells := readsAs_trailing hes (List.replicate (4 * 1) ' ') ['\n'] (by simp [isSpace]) (by simp [isSpace])
  have hclose : ReadsAs ['\x7d'] [.mark '\x7d'] := readsAs_mark (by decide)
  have hall := (readsAs_open.append hcells).append hclose
  simpa [Cells.text, Cells.tokens, toList_indented, Function.comp_def, List.flatMap_map] using hall

/-- The table of records reads as the tokens of its rows between braces. -/
theorem readsAs_records {rows : List (List Expr)} (hrows : ∀ row ∈ rows, ∀ e ∈ row, e.IsPlain) :
    ReadsAs (Cells.records rows).text.toList (.mark '\x7b' :: (Cells.records rows).tokens ++ [.mark '\x7d']) := by
  have hcells := ReadsAs.flatMap fun row hrow => readsAs_record (hrows row hrow)
  have hclose : ReadsAs ['\x7d'] [.mark '\x7d'] := readsAs_mark (by decide)
  have hall := (readsAs_open.append hcells).append hclose
  simpa [Cells.text, Cells.tokens, Function.comp_def, List.flatMap_map] using hall

/-- A table reads as its head, its cells between braces and a semicolon. -/
theorem readsAs_table {t : Table} (htype : t.type.IsPlain) (hname : IsWord t.name.toList)
    (hcells : ReadsAs t.cells.text.toList (.mark '\x7b' :: t.cells.tokens ++ [.mark '\x7d'])) :
    ReadsAs (Item.table t).text.toList (Item.table t).dataTokens := by
  have hhead := readsAs_head htype hname (c := '[') (by decide) (by decide)
  have hclose : ReadsAs [']'] [.mark ']'] := readsAs_mark (by decide)
  have hspace : ReadsAs [' '] [] := readsAs_mark (by decide)
  have hequals : ReadsAs ['='] [.mark '='] := readsAs_mark (by decide)
  have hend : ReadsAs [';'] [.mark ';'] := readsAs_mark (by decide)
  have hline : ReadsAs ['\n'] [] := readsAs_mark (by decide)
  have hall := ((((((hhead.append hclose).append hspace).append hequals).append hcells).append hend).append hline)
  simpa [Item.text, Item.dataTokens, line, markTokens, isSpace] using hall

/-- The declaration of a constant reads as its tokens. -/
theorem readsAs_constant {type : CType} (htype : type.IsPlain) {name : String} (hname : IsWord name.toList) {value : Expr}
    (hvalue : value.IsPlain) : ReadsAs (Item.constant type name value).text.toList (Item.constant type name value).dataTokens := by
  have hconst : (CType.const type).IsPlain := htype
  have hhead := readsAs_head hconst hname (c := ' ') (by decide) (by decide)
  have hequals : ReadsAs ['='] [.mark '='] := readsAs_mark (by decide)
  have hspace : ReadsAs [' '] [] := readsAs_mark (by decide)
  have hcell := readsAs_cell hvalue (c := ';') (by decide) (by decide)
  have hline : ReadsAs ['\n'] [] := readsAs_mark (by decide)
  have hall := (((hhead.append hequals).append hspace).append hcell).append hline
  simpa [Item.text, Item.dataTokens, line, markTokens, isSpace, CType.text] using hall

/-- An item that declares data reads as its tokens. -/
theorem readsAs_data {item : Item} (h : item.IsData) : ReadsAs item.text.toList item.dataTokens := by
  cases item with
  | blank => exact readsAs_mark (c := '\n') (by decide)
  | constant type name value =>
    obtain ⟨htype, hname, hvalue⟩ := h
    exact readsAs_constant htype hname hvalue
  | table t =>
    obtain ⟨htype, hname, hcells⟩ := h
    refine readsAs_table htype hname ?_
    obtain ⟨type, name, es | es | es | rows⟩ := t
    · exact readsAs_inline hcells
    · exact readsAs_row hcells
    · exact readsAs_column hcells
    · exact hcells.elim
  | _ => exact h.elim

/-! ## Declarations -/

/-- The declaration of a table reads as its name and its cells. -/
theorem readDeclaration?_table {type : CType} {name : String} {ts rest : List Token} {cells : List Cell}
    (h : readCells? (ts ++ .mark '\x7d' :: .mark ';' :: rest) = some (cells, .mark ';' :: rest)) :
    readDeclaration? (headTokens type name ++ .mark '[' :: .mark ']' :: .mark '=' :: .mark '\x7b' :: ts ++ [.mark '\x7d', .mark ';'] ++
      rest) = some ((name, cells), rest) := by
  have hhead := (readDeclarator?_head type name (.mark '\x7b' :: (ts ++ .mark '\x7d' :: .mark ';' :: rest))).1
  simp only [List.append_assoc, List.cons_append, List.nil_append, readDeclaration?, hhead, h]

/-- The tokens of an item that declares something are read as what it declares. -/
theorem readDeclaration?_dataTokens {item : Item} {d : String × List Cell} (hd : item.declared? = some d) (rest : List Token) :
    readDeclaration? (item.dataTokens ++ rest) = some (d, rest) := by
  cases item with
  | constant type name value =>
    cases hd
    have hhead := (readDeclarator?_head (.const type) name (.cell value.cell :: .mark ';' :: rest)).2
    simp [Item.dataTokens, readDeclaration?, hhead]
  | table t =>
    obtain ⟨type, name, es | es | es | rows⟩ := t
    case records => cases hd
    case inline =>
      cases hd
      exact readDeclaration?_table (readCells?_separated _ _)
    case row | column =>
      cases hd
      exact readDeclaration?_table (readCells?_trailing _ _)
  | _ => cases hd

/-- An item of data that declares nothing has no tokens. -/
theorem dataTokens_eq_nil {item : Item} (h : item.IsData) (hd : item.declared? = none) : item.dataTokens = [] := by
  cases item with
  | constant type name value => cases hd
  | table t =>
    obtain ⟨type, name, es | es | es | rows⟩ := t
    case records => exact h.2.2.elim
    all_goals cases hd
  | _ => rfl

/-- Declarations one behind the other read as what they declare, in order. -/
theorem readDeclarations?_flatMap {items : List Item} (h : ∀ item ∈ items, item.IsData) :
    readDeclarations? (items.flatMap Item.dataTokens) = some (items.filterMap Item.declared?) := by
  induction items with
  | nil => rw [List.flatMap_nil, readDeclarations?, List.filterMap_nil]
  | cons item items ih =>
    have hrest := ih fun x hx => h x (List.mem_cons_of_mem item hx)
    rw [List.flatMap_cons]
    cases hd : item.declared? with
    | none =>
      rw [dataTokens_eq_nil (h item List.mem_cons_self) hd, List.filterMap_cons_none hd]
      exact hrest
    | some d =>
      rw [List.filterMap_cons_some hd, readDeclarations?_of_declaration (readDeclaration?_dataTokens hd _), hrest]
      rfl

/-- A file of such items reads as what they declare, in order. -/
theorem declarations?_fileText {items : List Item} (h : ∀ item ∈ items, item.IsData) :
    declarations? (fileText items) = some (items.filterMap Item.declared?) := by
  have hreads : ReadsAs (items.flatMap fun item => item.text.toList) (items.flatMap Item.dataTokens) :=
    ReadsAs.flatMap fun item hitem => readsAs_data (h item hitem)
  have htext : (fileText items).toList = items.flatMap fun item => item.text.toList := by
    rw [fileText, String.toList_join, List.flatMap_map]
  rw [declarations?, htext, hreads.tokens?_eq, Option.bind_some]
  exact readDeclarations?_flatMap h

/-! ## Rows -/

/-- Rows one behind the other read as the rows. -/
theorem readRows?_flatMap (rows : List (List Cell)) (rest : List Token) :
    readRows? (rows.flatMap rowTokens ++ .mark '\x7d' :: rest) = some (rows, rest) := by
  induction rows with
  | nil => rw [List.flatMap_nil, List.nil_append, readRows?]
  | cons row rows ih =>
    have hrow := readCells?_separated row (.mark ',' :: (rows.flatMap rowTokens ++ .mark '\x7d' :: rest))
    have hrows := readRows?_of_cells hrow
    rw [ih] at hrows
    simpa [rowTokens] using hrows

/-- The table of records reads as its name and its rows. -/
theorem rows?_records {type : CType} (htype : type.IsPlain) {name : String} (hname : IsWord name.toList) {rows : List (List Expr)}
    (hrows : ∀ row ∈ rows, ∀ e ∈ row, e.IsPlain) :
    rows? (Item.table ⟨type, name, .records rows⟩).text = some (name, rows.map fun row => row.map Expr.cell) := by
  have hreads := readsAs_table (t := ⟨type, name, .records rows⟩) htype hname (readsAs_records hrows)
  have hhead := (readDeclarator?_head type name (.mark '\x7b' :: ((Cells.records rows).tokens ++ .mark '\x7d' :: [.mark ';']))).1
  have htokens := readRows?_flatMap (rows.map fun row => row.map Expr.cell) [.mark ';']
  rw [List.flatMap_map] at htokens
  simp only [Cells.tokens] at hhead
  simp only [rows?, hreads.tokens?_eq, Option.bind_some, Item.dataTokens, Cells.tokens, List.append_assoc, List.cons_append,
    hhead, htokens]

end DeviceCatalog.CSource
