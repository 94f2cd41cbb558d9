import DeviceCatalog.Proofs.CommentLines
import DeviceCatalog.Proofs.Declarations
import DeviceCatalog.Proofs.QuotedTexts

/-!
# String literals read back

A piece of code holds texts (`Holds`) when it fits on one line and its string literals read as these texts, whatever stands behind it; such
pieces can be put one behind the other. Names and numbers hold no texts as long as they are quiet, a string literal holds its text, whatever
that is, and by induction an expression holds the texts of its tree (`Expr.holds`). So a function with quiet names is printed on the lines
that are meant, and the literals on these lines read as its texts in order (`printsTexts_of_quiet`).
-/

namespace DeviceCatalog.CSource

/-! ## Literals -/

/-- A literal ends in its line. -/
theorem unbroken_stringLiteral (text : List Char) : Unbroken (stringLiteral text) := by
  have hchar : ∀ c, Unbroken (literalChar c) := by
    intro c
    rcases literalChar_cases c with ⟨d, hd, hchar⟩ | ⟨hchar, -, -, hfeed, hreturn⟩
    · have hplain : endsLine d = false := by
        by_contra hends
        rw [Bool.not_eq_false, endsLine, Bool.or_eq_true, beq_iff_eq, beq_iff_eq] at hends
        rcases hends with rfl | rfl <;> cases hd
      rw [hchar]
      exact List.forall_mem_cons.2 ⟨rfl, List.forall_mem_singleton.2 hplain⟩
    · rw [hchar]
      refine List.forall_mem_singleton.2 ?_
      rw [endsLine, beq_false_of_ne hfeed, beq_false_of_ne hreturn]
      rfl
  refine unbroken_append_iff.2 ⟨List.forall_mem_cons.2 ⟨rfl, fun c hc => ?_⟩, List.forall_mem_singleton.2 rfl⟩
  obtain ⟨d, -, hd⟩ := List.mem_flatMap.1 hc
  exact hchar d c hd

/-- Different texts have different literals. -/
theorem stringLiteral_injective : Function.Injective stringLiteral := by
  intro text text' h
  have hread := readLiteral?_stringLiteral text []
  rw [h, readLiteral?_stringLiteral] at hread
  exact (Prod.mk.inj (Option.some.inj hread)).1.symm

/-! ## Pieces of code -/

/-- The character neither begins a literal nor ends a line, and the line does not go on behind it. -/
def isQuiet (c : Char) : Bool := c ≠ '"' && c ≠ '\\' && !endsLine c

/-- Nothing in the text begins a literal, ends a line or makes it go on. -/
def Quiet (s : String) : Prop := s.toList.all isQuiet = true

instance (s : String) : Decidable (Quiet s) := inferInstanceAs (Decidable (_ = true))

/-- Two pieces are quiet together when each of them is. -/
theorem quiet_append_iff {s t : String} : Quiet (s ++ t) ↔ Quiet s ∧ Quiet t := by
  rw [Quiet, String.toList_append, List.all_append, Bool.and_eq_true]
  rfl

theorem isQuiet_of_isNameChar {c : Char} (h : isNameChar c = true) : isQuiet c = true := by
  by_contra hloud
  simp only [isQuiet, endsLine, ne_eq, decide_not, Bool.not_or, Bool.and_eq_true, Bool.not_eq_true', decide_eq_false_iff_not,
    beq_eq_false_iff_ne, not_and_or, not_not] at hloud
  rcases hloud with (rfl | rfl) | (rfl | rfl) <;> exact absurd h (by decide)

/-- Names and numbers without a point are quiet. -/
theorem quiet_of_forall {cs : List Char} (h : ∀ c ∈ cs, isNameChar c = true) : Quiet (String.ofList cs) := by
  rw [Quiet, String.toList_ofList, List.all_eq_true]
  exact fun c hc => isQuiet_of_isNameChar (h c hc)

/-- The identifier for a name is quiet, whatever the name. -/
theorem quiet_name (s : String) : Quiet (CSource.name s) := by
  rw [← String.ofList_toList (s := CSource.name s)]
  exact quiet_of_forall fun c hc => isNameChar_of_mem_name hc

theorem quiet_of_isWord {s : String} (h : IsWord s.toList) : Quiet s := by
  rw [← String.ofList_toList (s := s)]
  exact quiet_of_forall (List.all_eq_true.1 h.2)

theorem quiet_decimal (n : Nat) : Quiet (Text.decimal n) := quiet_of_isWord (isWord_decimal n)

theorem quiet_signedDecimal (n : Int) : Quiet (Text.signedDecimal n) := by
  cases n with
  | ofNat n => exact quiet_decimal n
  | negSucc n => exact quiet_append_iff.2 ⟨by decide, quiet_decimal (n + 1)⟩

theorem quiet_address (a : Address) : Quiet a.text := quiet_of_isWord (isWord_address a)

/-! ## Numbers with a point -/

/-- The characters of numbers with a point. -/
def isNumberChar (c : Char) : Bool := c.isDigit || c == '.'

theorem isQuiet_of_isNumberChar {c : Char} (h : isNumberChar c = true) : isQuiet c = true := by
  rcases Bool.or_eq_true_iff.1 h with hdigit | hpoint
  · exact isQuiet_of_isNameChar (by simp [isNameChar, Char.isAlphanum, hdigit])
  · rw [eq_of_beq hpoint]
    decide

theorem quiet_of_all {cs : List Char} (h : cs.all isNumberChar = true) : Quiet (String.ofList cs) := by
  rw [Quiet, String.toList_ofList, List.all_eq_true]
  exact fun c hc => isQuiet_of_isNumberChar (List.all_eq_true.1 h c hc)

theorem isDigit_ofGrid (c : Nat) (k : Int) : ∀ d ∈ (Binary64.Digits.ofGrid c k).digits, d.isDigit = true := by
  intro d hd
  have hkept := (List.dropWhile_sublist _).subset (List.mem_reverse.1 hd)
  exact Nat.isDigit_of_mem_toDigits (by decide) (by decide) (List.mem_reverse.1 hkept)

/-- The shortest digits that give a number back are digits. -/
theorem isDigit_shortest (tie : Binary64.Tie) (m : Nat) (e : Int) : ∀ d ∈ (Binary64.shortest tie m e).digits, d.isDigit = true := by
  unfold Binary64.shortest
  dsimp only
  split <;> exact isDigit_ofGrid _ _

variable {d : Binary64.Digits}

theorem all_isNumberChar_of_subset (h : ∀ c ∈ d.digits, c.isDigit = true) {cs : List Char} (hcs : cs ⊆ d.digits) :
    cs.all isNumberChar = true :=
  List.all_eq_true.2 fun c hc => by simp [isNumberChar, h c (hcs hc)]

theorem quiet_positional (h : ∀ c ∈ d.digits, c.isDigit = true) : Quiet d.positional := by
  have hdigits := all_isNumberChar_of_subset h (List.Subset.refl _)
  have htake := fun n => all_isNumberChar_of_subset h (List.take_subset n d.digits)
  have hdrop := fun n => all_isNumberChar_of_subset h (List.drop_subset n d.digits)
  have hzeros : ∀ n, (List.replicate n '0').all isNumberChar = true := fun n =>
    List.all_eq_true.2 fun c hc => by rw [List.eq_of_mem_replicate hc]; rfl
  have hpoint : isNumberChar '.' = true := rfl
  have hzero : isNumberChar '0' = true := rfl
  unfold Binary64.Digits.positional
  dsimp only
  split
  · exact quiet_of_all (by simp [List.all_append, hpoint, hzero, hzeros, hdigits])
  · split
    · exact quiet_of_all (by simp [List.all_append, hpoint, hzero, hzeros, hdigits])
    · exact quiet_of_all (by simp [List.all_append, hpoint, htake, hdrop])

theorem quiet_scientific (h : ∀ c ∈ d.digits, c.isDigit = true) (plus : Bool) : Quiet (d.scientific plus) := by
  have hmantissa : (d.digits.take 1 ++ (if d.digits.length ≤ 1 then [] else '.' :: d.digits.drop 1)).all isNumberChar = true := by
    rw [List.all_append, all_isNumberChar_of_subset h (List.take_subset 1 d.digits)]
    split
    · rfl
    · rw [List.all_cons, all_isNumberChar_of_subset h (List.drop_subset 1 d.digits)]
      rfl
  have hsign : Quiet (if (d.digits.length : Int) + d.exponent - 1 < 0 then "-" else if plus then "+" else "") := by
    split
    · decide
    · split <;> decide
  unfold Binary64.Digits.scientific
  simp only [quiet_append_iff]
  exact ⟨⟨⟨quiet_of_all hmantissa, by decide⟩, hsign⟩, quiet_decimal _⟩

theorem quiet_digits (h : ∀ c ∈ d.digits, c.isDigit = true) (style : Binary64.DecimalStyle) : Quiet (d.text style) := by
  unfold Binary64.Digits.text
  dsimp only
  split
  · exact quiet_positional h
  · exact quiet_scientific h _

/-- The text of a number is quiet in every style. -/
theorem quiet_number (x : Binary64) (style : Binary64.DecimalStyle) : Quiet (x.text style) := by
  have hsign : Quiet (if x.negative then "-" else "") := by split <;> decide
  unfold Binary64.text
  dsimp only
  split
  · decide
  · exact quiet_append_iff.2 ⟨hsign, by decide⟩
  · rw [quiet_append_iff]
    refine ⟨hsign, ?_⟩
    split
    · decide
    · exact quiet_digits (isDigit_shortest _ _ _) style

/-! ## Holding texts -/

/-- The piece of code fits on one line, and its literals read as the texts, whatever stands behind it. -/
structure Holds (s : String) (texts : List String) : Prop where
  oneLine : OneLine s.toList
  reads : ∀ rest, literals? (s.toList ++ rest) = (literals? rest).map (texts ++ ·)

variable {s t : String} {texts others : List String}

/-- Pieces one behind the other hold the texts of the first one, then those of the second one. -/
theorem Holds.append (hs : Holds s texts) (ht : Holds t others) : Holds (s ++ t) (texts ++ others) where
  oneLine := by
    rw [String.toList_append, oneLine_append_left_iff hs.oneLine]
    exact ht.oneLine
  reads := by
    intro rest
    rw [String.toList_append, List.append_assoc, hs.reads, ht.reads, Option.map_map]
    refine congrArg (Option.map · _) (funext fun behind => ?_)
    exact (List.append_assoc texts others behind).symm

theorem oneLine_of_quiet (h : Quiet s) : OneLine s.toList := by
  rw [Quiet, List.all_eq_true] at h
  simp only [isQuiet, Bool.and_eq_true, Bool.not_eq_true', decide_eq_true_eq] at h
  refine ⟨fun c hc => (h c hc).2, Bool.eq_false_iff.2 fun hlast => ?_⟩
  exact (h _ (List.mem_of_getLast? (eq_of_beq hlast))).1.2 rfl

/-- A quiet piece of code holds no texts. -/
theorem Quiet.holds (h : Quiet s) : Holds s [] where
  oneLine := oneLine_of_quiet h
  reads := by
    intro rest
    rw [show (literals? rest).map ([] ++ ·) = literals? rest from Option.map_id']
    rw [Quiet] at h
    generalize s.toList = cs at h
    induction cs with
    | nil => rfl
    | cons c cs ih =>
      rw [List.all_cons, Bool.and_eq_true] at h
      have hquote : c ≠ '"' := by
        rintro rfl
        exact absurd h.1 (by decide)
      rw [List.cons_append, literals?_cons_of_ne hquote]
      exact ih h.2

/-- A quiet piece adds no text behind another one. -/
theorem Holds.append_quiet (hs : Holds s texts) (ht : Quiet t) : Holds (s ++ t) texts := by
  have h := hs.append ht.holds
  rwa [List.append_nil] at h

/-- A quiet piece adds no text in front of another one. -/
theorem Quiet.append_holds (hs : Quiet s) (ht : Holds t texts) : Holds (s ++ t) texts :=
  hs.holds.append ht

/-- A literal holds its text. -/
theorem holds_stringLiteral (text : String) : Holds (String.ofList (stringLiteral text.toList)) [text] where
  oneLine := by
    rw [String.toList_ofList]
    refine ⟨unbroken_stringLiteral _, ?_⟩
    rw [continues, stringLiteral, List.getLast?_append_of_ne_nil _ (List.cons_ne_nil _ _)]
    rfl
  reads := by
    intro rest
    have hread := readLiteral?_stringLiteral text.toList rest
    rw [stringLiteral, List.cons_append, List.cons_append, readLiteral?] at hread
    rw [String.toList_ofList, stringLiteral, List.cons_append, List.cons_append, literals?_quote hread, String.ofList_toList]
    rfl

/-! ## Expressions -/

mutual

/-- The names of an expression are quiet, and it holds no raw literal. -/
def Expr.IsQuiet : Expr → Prop
  | .var name => Quiet name
  | .decimal _ => True
  | .wide _ => True
  | .address _ => True
  | .double _ => True
  | .single _ => True
  | .string _ => True
  | .raw _ => False
  | .group e => e.IsQuiet
  | .cast type e => Quiet type.text ∧ e.IsQuiet
  | .not e => e.IsQuiet
  | .binary _ left right => left.IsQuiet ∧ right.IsQuiet
  | .index array position => array.IsQuiet ∧ position.IsQuiet
  | .member object name => object.IsQuiet ∧ Quiet name
  | .arrow pointer name => pointer.IsQuiet ∧ Quiet name
  | .call function arguments => Quiet function ∧ Expr.AreQuiet arguments
  | .sizeOf type => Quiet type.text

/-- The names of some expressions are quiet, and none of them holds a raw literal. -/
def Expr.AreQuiet : List Expr → Prop
  | [] => True
  | e :: es => e.IsQuiet ∧ Expr.AreQuiet es

end

theorem quiet_operator (op : Operator) : Quiet op.text := by
  cases op <;> decide

mutual

/-- An expression with quiet names holds the texts of its tree. -/
theorem Expr.holds : (e : Expr) → e.IsQuiet → Holds e.text e.strings
  | .var _, h => Quiet.holds h
  | .decimal n, _ => (quiet_signedDecimal n).holds
  | .wide n, _ => (quiet_append_iff.2 ⟨quiet_decimal n, by decide⟩).holds
  | .address a, _ => (quiet_address a).holds
  | .double x, _ => (quiet_number x .source).holds
  | .single x, _ => (quiet_append_iff.2 ⟨quiet_number x .source, by decide⟩).holds
  | .string text, _ => holds_stringLiteral text
  | .raw _, h => h.elim
  | .group e, h => (Quiet.append_holds (by decide) (Expr.holds e h)).append_quiet (by decide)
  | .cast _ e, h =>
    Quiet.append_holds (quiet_append_iff.2 ⟨quiet_append_iff.2 ⟨by decide, h.1⟩, by decide⟩) (Expr.holds e h.2)
  | .not e, h => Quiet.append_holds (by decide) (Expr.holds e h)
  | .binary op left right, h =>
    ((((Expr.holds left h.1).append_quiet (by decide)).append_quiet (quiet_operator op)).append_quiet (by decide)).append
      (Expr.holds right h.2)
  | .index array position, h =>
    (((Expr.holds array h.1).append_quiet (by decide)).append (Expr.holds position h.2)).append_quiet (by decide)
  | .member object _, h => ((Expr.holds object h.1).append_quiet (by decide)).append_quiet h.2
  | .arrow pointer _, h => ((Expr.holds pointer h.1).append_quiet (by decide)).append_quiet h.2
  | .call _ arguments, h =>
    (Quiet.append_holds (quiet_append_iff.2 ⟨h.1, by decide⟩) (Expr.holds_texts arguments h.2)).append_quiet (by decide)
  | .sizeOf _, h => (quiet_append_iff.2 ⟨quiet_append_iff.2 ⟨by decide, h⟩, by decide⟩).holds

/-- Arguments hold their texts one after the other. -/
theorem Expr.holds_texts : (es : List Expr) → Expr.AreQuiet es → Holds (String.intercalate ", " (Expr.texts es)) (Expr.stringsOfAll es)
  | [], _ => Quiet.holds (by decide)
  | [e], h => by
    have he := Expr.holds e h.1
    rw [Expr.texts, Expr.texts, String.intercalate_singleton, Expr.stringsOfAll, Expr.stringsOfAll, List.append_nil]
    exact he
  | e :: d :: es, h => by
    have he := Expr.holds e h.1
    have hes := Expr.holds_texts (d :: es) h.2
    rw [Expr.texts, Expr.texts, String.intercalate_cons_cons, Expr.stringsOfAll]
    rw [Expr.texts] at hes
    rw [String.append_assoc]
    exact he.append (Quiet.append_holds (by decide) hes)

end

/-! ## Statements -/

/-- The names of a simple statement are quiet, and it holds no raw literal. -/
def Stmt.IsQuiet : Stmt → Prop
  | .declare type name => Quiet type.text ∧ Quiet name
  | .define type name value => Quiet type.text ∧ Quiet name ∧ value.IsQuiet
  | .assign target value => target.IsQuiet ∧ value.IsQuiet
  | .increase target amount => target.IsQuiet ∧ amount.IsQuiet
  | .decrease target amount => target.IsQuiet ∧ amount.IsQuiet
  | .increment target => target.IsQuiet
  | .run e => e.IsQuiet
  | .ret value => value.IsQuiet

/-- The names of a block are quiet, and it holds no raw literal. -/
def Block.IsQuiet : Block → Prop
  | .blank => True
  | .simple s => s.IsQuiet
  | .when condition s => condition.IsQuiet ∧ s.IsQuiet
  | .loop condition body => condition.IsQuiet ∧ ∀ s ∈ body, s.IsQuiet
  | .choose branches => ∀ branch ∈ branches, branch.1.IsQuiet ∧ ∀ s ∈ branch.2, s.IsQuiet

/-- The blocks have quiet names, and these are their texts in order. -/
structure QuietWith (bs : List Block) (texts : List String) : Prop where
  quiet : ∀ b ∈ bs, b.IsQuiet
  strings : bs.flatMap Block.strings = texts

theorem QuietWith.append {bs cs : List Block} (hbs : QuietWith bs texts) (hcs : QuietWith cs others) : QuietWith (bs ++ cs) (texts ++ others) where
  quiet := List.forall_mem_append.2 ⟨hbs.quiet, hcs.quiet⟩
  strings := by rw [List.flatMap_append, hbs.strings, hcs.strings]

/-- Blocks made for the items of a list have the texts of these items, in order. -/
theorem QuietWith.flatMap {α : Type} {f : α → List Block} {g : α → List String} {xs : List α} (h : ∀ x ∈ xs, QuietWith (f x) (g x)) :
    QuietWith (xs.flatMap f) (xs.flatMap g) := by
  induction xs with
  | nil => exact ⟨nofun, rfl⟩
  | cons x xs ih =>
    rw [List.flatMap_cons, List.flatMap_cons]
    exact (h x List.mem_cons_self).append (ih fun y hy => h y (List.mem_cons_of_mem x hy))

/-- A quiet statement makes a block with its texts. -/
theorem quietWith_simple {s : Stmt} (h : s.IsQuiet) : QuietWith [.simple s] s.strings :=
  ⟨List.forall_mem_singleton.2 h, List.append_nil _⟩

theorem quietWith_blank : QuietWith [.blank] [] :=
  ⟨List.forall_mem_singleton.2 trivial, rfl⟩

/-- A statement with quiet names holds the texts of its expressions. -/
theorem Stmt.holds {s : Stmt} (h : s.IsQuiet) : Holds s.text s.strings := by
  have hpair : ∀ {left right : Expr} (between : String), left.IsQuiet ∧ right.IsQuiet → Quiet between →
      Holds (left.text ++ between ++ right.text ++ ";") (left.strings ++ right.strings) := fun _ h hbetween =>
    (((Expr.holds _ h.1).append_quiet hbetween).append (Expr.holds _ h.2)).append_quiet (by decide)
  cases s with
  | declare type name =>
    have hname : Quiet (type.text ++ " " ++ name ++ ";") := by
      simp only [quiet_append_iff]
      exact ⟨⟨⟨h.1, by decide⟩, h.2⟩, by decide⟩
    exact hname.holds
  | define type name value =>
    have hname : Quiet (type.text ++ " " ++ name ++ " = ") := by
      simp only [quiet_append_iff]
      exact ⟨⟨⟨h.1, by decide⟩, h.2.1⟩, by decide⟩
    exact (hname.append_holds (Expr.holds value h.2.2)).append_quiet (by decide)
  | assign target value => exact hpair " = " h (by decide)
  | increase target amount => exact hpair " += " h (by decide)
  | decrease target amount => exact hpair " -= " h (by decide)
  | increment target => exact (Expr.holds target h).append_quiet (by decide)
  | run e => exact (Expr.holds e h).append_quiet (by decide)
  | ret value => exact (Quiet.append_holds (by decide) (Expr.holds value h)).append_quiet (by decide)

/-! ## Lines -/

/-- The lines of code hold the texts, one line after the other. -/
inductive HoldLines : List String → List String → Prop where
  | nil : HoldLines [] []
  | cons {l : String} {ls texts others : List String} (hl : Holds l texts) (hls : HoldLines ls others) : HoldLines (l :: ls) (texts ++ others)

theorem HoldLines.append {ls ms : List String} (hls : HoldLines ls texts) (hms : HoldLines ms others) :
    HoldLines (ls ++ ms) (texts ++ others) := by
  induction hls with
  | nil => exact hms
  | cons hl _ ih =>
    rw [List.append_assoc]
    exact ih.cons hl

/-- Lines made for the items of a list hold the texts of these items, in order. -/
theorem HoldLines.flatMap {α : Type} {f : α → List String} {g : α → List String} {xs : List α} (h : ∀ x ∈ xs, HoldLines (f x) (g x)) :
    HoldLines (xs.flatMap f) (xs.flatMap g) := by
  induction xs with
  | nil => exact .nil
  | cons x xs ih =>
    rw [List.flatMap_cons, List.flatMap_cons]
    exact (h x List.mem_cons_self).append (ih fun y hy => h y (List.mem_cons_of_mem x hy))

theorem Holds.line (h : Holds s texts) : HoldLines [s] texts := by
  have hline := HoldLines.nil.cons h
  rwa [List.append_nil] at hline

theorem Holds.indented (h : Holds s texts) (levels : Nat) : Holds (indented levels s) texts := by
  have hspaces : Quiet (String.ofList (List.replicate (4 * levels) ' ')) := by
    rw [Quiet, String.toList_ofList, List.all_eq_true]
    intro c hc
    rw [List.eq_of_mem_replicate hc]
    rfl
  exact hspaces.append_holds h

/-- A body between braces holds the texts of its head, then those of its lines. -/
theorem holdLines_enclose (style : Braces) (levels : Nat) {head : String} {body : List String} (hhead : Holds head texts)
    (hbody : HoldLines body others) : HoldLines (style.enclose levels head body) (texts ++ others) := by
  have hopen : HoldLines [indented levels "\x7b"] [] := ((Quiet.holds (by decide)).indented levels).line
  have hclose : HoldLines [indented levels "\x7d"] [] := ((Quiet.holds (by decide)).indented levels).line
  cases style with
  | ownLine =>
    have h := (((hhead.indented levels).line.append hopen).append hbody).append hclose
    rwa [List.append_nil, List.append_nil] at h
  | sameLine =>
    have hbrace : Quiet " \x7b" := by decide
    have h := (((hhead.append_quiet hbrace).indented levels).line.append hbody).append hclose
    rwa [List.append_nil] at h

/-- The lines of quiet statements hold the texts of the statements. -/
theorem holdLines_stmts (levels : Nat) {body : List Stmt} (h : ∀ s ∈ body, s.IsQuiet) :
    HoldLines (Stmt.lines levels body) (body.flatMap Stmt.strings) := by
  rw [Stmt.lines, ← List.flatMap_singleton' (List.map _ body), List.flatMap_map]
  exact HoldLines.flatMap fun s hs => ((Stmt.holds (h s hs)).indented levels).line

/-- The lines of a choice hold the texts of its branches, each condition before what it guards. -/
theorem holdLines_branchLines (style : Braces) (levels : Nat) {keyword : String} (hkeyword : Quiet keyword)
    {branches : List (Expr × List Stmt)} (h : ∀ branch ∈ branches, branch.1.IsQuiet ∧ ∀ s ∈ branch.2, s.IsQuiet) :
    HoldLines (branchLines style levels keyword branches)
      (branches.flatMap fun branch => branch.1.strings ++ branch.2.flatMap Stmt.strings) := by
  induction branches generalizing keyword with
  | nil => exact .nil
  | cons branch branches ih =>
    obtain ⟨condition, body⟩ := branch
    obtain ⟨⟨hcondition, hbody⟩, hbranches⟩ := List.forall_mem_cons.1 h
    have hhead : Holds (keyword ++ " (" ++ condition.text ++ ")") condition.strings :=
      (Quiet.append_holds (quiet_append_iff.2 ⟨hkeyword, by decide⟩) (Expr.holds condition hcondition)).append_quiet (by decide)
    have helse : Quiet "else if" := by decide
    exact (holdLines_enclose style levels hhead (holdLines_stmts (levels + 1) hbody)).append (ih helse hbranches)

/-- The lines of a block with quiet names hold its texts. -/
theorem Block.holdLines (style : Braces) {b : Block} (h : b.IsQuiet) : HoldLines (b.lines style) b.strings := by
  cases b with
  | blank => exact (Quiet.holds (by decide)).line
  | simple s => exact ((Stmt.holds h).indented 1).line
  | when condition s =>
    have hhead : Holds ("if (" ++ condition.text ++ ")") condition.strings :=
      (Quiet.append_holds (by decide) (Expr.holds condition h.1)).append_quiet (by decide)
    exact (hhead.indented 1).line.append ((Stmt.holds h.2).indented 2).line
  | loop condition body =>
    have hhead : Holds ("while (" ++ condition.text ++ ")") condition.strings :=
      (Quiet.append_holds (by decide) (Expr.holds condition h.1)).append_quiet (by decide)
    exact holdLines_enclose style 1 hhead (holdLines_stmts 2 h.2)
  | choose branches => exact holdLines_branchLines style 1 (by decide) h

/-! ## Functions -/

/-- Lines that hold texts are source lines. -/
theorem HoldLines.sourceLines_eq {ls : List String} (h : HoldLines ls texts) :
    sourceLines (String.join (ls.map CSource.line)) = ls.map String.toList := by
  induction h with
  | nil => rfl
  | @cons l ls _ _ hl _ ih =>
    have htext : (String.join ((l :: ls).map CSource.line)).toList = l.toList ++ '\n' :: (String.join (ls.map CSource.line)).toList := by
      rw [List.map_cons, String.join_cons, CSource.line, String.toList_append, String.toList_append, List.append_assoc]
      rfl
    rw [sourceLines, htext, lines_append_newline hl.oneLine.1, splice_cons_of_not_continues hl.oneLine.2]
    exact congrArg (l.toList :: ·) ih

/-- Lines that hold texts read as these texts. -/
theorem HoldLines.literalsOfLines?_eq {ls : List String} (h : HoldLines ls texts) : literalsOfLines? (ls.map String.toList) = some texts := by
  induction h with
  | nil => rfl
  | @cons l ls texts others hl _ ih =>
    have hread : literals? l.toList = some texts := by
      have hend := hl.reads []
      rwa [List.append_nil, literals?, Option.map_some, List.append_nil] at hend
    rw [List.map_cons, literalsOfLines?, hread, ih]

/-- The lines that a function is printed on. -/
def functionLines (style : Braces) (s : Signature) (body : List Block) : List String :=
  style.enclose 0 s.text (body.flatMap (Block.lines style))

/-- The function is printed on the lines that are meant, and the literals on these lines read as the texts in order. -/
structure PrintsTexts (style : Braces) (s : Signature) (body : List Block) (texts : List String) : Prop where
  lines : sourceLines (Item.function style s body).text = (functionLines style s body).map String.toList
  literals : literalsOfLines? (sourceLines (Item.function style s body).text) = some texts

/-- A function with quiet names prints its texts. -/
theorem printsTexts_of_quiet (style : Braces) {s : Signature} (hs : Quiet s.text) {body : List Block} (hbody : QuietWith body texts) :
    PrintsTexts style s body texts := by
  have hlines : HoldLines (functionLines style s body) (body.flatMap Block.strings) :=
    holdLines_enclose style 0 hs.holds (HoldLines.flatMap fun b hb => Block.holdLines style (hbody.quiet b hb))
  have hsource : sourceLines (Item.function style s body).text = (functionLines style s body).map String.toList := hlines.sourceLines_eq
  exact ⟨hsource, by rw [hsource, hlines.literalsOfLines?_eq, hbody.strings]⟩

end DeviceCatalog.CSource
