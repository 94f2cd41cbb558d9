import DeviceCatalog.CSource.Grouping
import DeviceCatalog.Proofs.Declarations
import DeviceCatalog.Proofs.Identifiers

/-!
# Well-grouped expressions are read back

An expression is well grouped when its parentheses stand wherever the levels of its operators would have its text read in another way. The
text of such an expression is read as the expression (`WellGrouped.read?_text`). The induction is on how the expression is built: behind its
tokens the reader holds an operand, and the operand together with what the expression has left waiting makes the expression
(`WellGrouped.reads`).
-/

namespace DeviceCatalog.CSource

/-- The parentheses of the expression stand where the levels of its operators need them. -/
inductive WellGrouped : Expr → Prop where
  | var {name : String} : IsIdentifier name → typeNamed? name = none → WellGrouped (.var name)
  | decimal (n : Nat) : WellGrouped (.decimal n)
  | group {e : Expr} : WellGrouped e → WellGrouped (.group e)
  | cast {type : CType} {e : Expr} : type ∈ castTypes → 9 ≤ e.level → WellGrouped e → WellGrouped (.cast type e)
  | index {array position : Expr} : array.level = 10 → WellGrouped array → WellGrouped position → WellGrouped (.index array position)
  | binary {op : Operator} {l r : Expr} : op.level ≤ l.level → op.level < r.level → WellGrouped l → WellGrouped r →
      WellGrouped (.binary op l r)

theorem Operator.level_pos (op : Operator) : 0 < op.level := by
  cases op <;> decide

theorem Operator.level_lt (op : Operator) : op.level < 9 := by
  cases op <;> decide

theorem Pending.level_lt (p : Pending) : p.level < 10 := by
  cases p with
  | parenthesis => decide
  | subscript array => exact Nat.succ_pos _
  | cast type => exact Nat.lt_succ_self 9
  | operand op left => exact Nat.lt_succ_of_lt op.level_lt

theorem Expr.level_pos (e : Expr) : 0 < e.level := by
  cases e with
  | binary op l r => exact op.level_pos
  | _ => exact Nat.succ_pos _

/-! ## Tokens -/

/-- The tokens of an operator. -/
def Operator.tokens (op : Operator) : List Token :=
  op.text.toList.map .mark

/-- The tokens of an expression. -/
def Expr.tokens : Expr → List Token
  | .var name => [.cell (.word name)]
  | .decimal n => [.cell (.word (Text.signedDecimal n))]
  | .group e => .mark '(' :: (e.tokens ++ [.mark ')'])
  | .cast type e => .mark '(' :: .cell (.word type.text) :: .mark ')' :: e.tokens
  | .index array position => array.tokens ++ .mark '[' :: (position.tokens ++ [.mark ']'])
  | .binary op l r => l.tokens ++ (op.tokens ++ r.tokens)
  | _ => []

/-- Characters that no word has read as themselves. -/
theorem readsAs_marks {cs : List Char} (h : ∀ c ∈ cs, isNameChar c = false ∧ isSpace c = false) : ReadsAs cs (cs.map .mark) := by
  have hmarks : ∀ c ∈ cs, ReadsAs [c] [.mark c] := by
    intro c hc
    have hmark := readsAs_mark (h c hc).1
    rwa [markTokens, if_neg (by simp [(h c hc).2])] at hmark
  have hall := ReadsAs.flatMap hmarks
  rwa [List.flatMap_singleton', ← List.map_eq_flatMap] at hall

/-- An operator reads as its tokens. -/
theorem readsAs_operator (op : Operator) : ReadsAs op.text.toList op.tokens := by
  have hmarks : (op.text.toList.all fun c => !isNameChar c && !isSpace c) = true := by cases op <;> decide
  refine readsAs_marks fun c hc => ?_
  simpa using List.all_eq_true.1 hmarks c hc

theorem isWord_of_isIdentifier {name : String} (h : IsIdentifier name) : IsWord name.toList := by
  obtain ⟨c, cs, hname, hc, hcs⟩ := h
  rw [hname]
  refine ⟨List.cons_ne_nil _ _, List.all_eq_true.2 (List.forall_mem_cons.2 ⟨?_, fun d hd => ?_⟩)⟩
  · rcases hc with hc | rfl
    · simp [isNameChar, Char.isAlphanum, hc]
    · decide
  · rcases hcs d hd with hd | rfl
    · simp [isNameChar, hd]
    · decide

theorem isWord_castType {type : CType} (h : type ∈ castTypes) : IsWord type.text.toList := by
  have hall : ∀ type ∈ castTypes, type.text.toList ≠ [] ∧ type.text.toList.all isNameChar = true := by decide
  exact hall type h

/-- The text of an expression has the tokens of an expression. -/
def Spells (e e' : Expr) : Prop :=
  ReadsBefore e.text.toList e'.tokens

namespace Spells

variable {e e' l l' r r' : Expr}

/-- Parentheses go around the tokens of an expression. -/
theorem group (h : Spells e e') : Spells (.group e) (.group e') := by
  have hopen : ReadsAs ['('] [.mark '('] := readsAs_mark (by decide)
  have hclose : ReadsAs (e.text.toList ++ [')']) (e'.tokens ++ [.mark ')']) := h.append_mark (by decide) (by decide)
  have hall := (hopen.append hclose).before
  simpa [Spells, Expr.text, Expr.tokens] using hall

/-- A cast comes before the tokens of its expression. -/
theorem cast {type : CType} (htype : type ∈ castTypes) (h : Spells e e') : Spells (.cast type e) (.cast type e') := by
  have hopen : ReadsAs ['('] [.mark '('] := readsAs_mark (by decide)
  have hname : ReadsAs (type.text.toList ++ [')']) [.cell (.word (String.ofList type.text.toList)), .mark ')'] :=
    readsAs_word (isWord_castType htype) (by decide) (by decide)
  have hall := (hopen.append hname).append_before h
  simpa [Spells, Expr.text, Expr.tokens] using hall

/-- A subscript comes behind the tokens of its array. -/
theorem index (hl : Spells l l') (hr : Spells r r') : Spells (.index l r) (.index l' r') := by
  have hopen : ReadsAs (l.text.toList ++ ['[']) (l'.tokens ++ [.mark '[']) := hl.append_mark (by decide) (by decide)
  have hclose : ReadsAs (r.text.toList ++ [']']) (r'.tokens ++ [.mark ']']) := hr.append_mark (by decide) (by decide)
  have hall := (hopen.append hclose).before
  simpa [Spells, Expr.text, Expr.tokens] using hall

/-- An operator stands between the tokens of its operands. -/
theorem binary (op : Operator) (hl : Spells l l') (hr : Spells r r') : Spells (.binary op l r) (.binary op l' r') := by
  have hleft : ReadsAs (l.text.toList ++ [' ']) (l'.tokens ++ []) := hl.append_mark (by decide) (by decide)
  have hblank : ReadsAs [' '] [] := readsAs_mark (by decide)
  have hall := (hleft.append ((readsAs_operator op).append hblank)).append_before hr
  simpa [Spells, Expr.text, Expr.tokens] using hall

end Spells

/-- The text of a well-grouped expression has its tokens. -/
theorem WellGrouped.spells {e : Expr} (h : WellGrouped e) : Spells e e := by
  induction h with
  | var hname _ =>
    have hword := readsBefore_word (isWord_of_isIdentifier hname)
    rwa [String.ofList_toList] at hword
  | decimal n =>
    have hword := readsBefore_word (isWord_decimal n)
    rwa [String.ofList_toList] at hword
  | group _ ih => exact ih.group
  | cast htype _ _ ih => exact ih.cast htype
  | index _ _ _ iharray ihposition => exact iharray.index ihposition
  | @binary op _ _ _ _ _ _ ihl ihr => exact ihl.binary op ihr

/-! ## Reading -/

/-- An operand completes everything that waits, the latest first. -/
def completeAll (e : Expr) (ps : List Pending) : Expr :=
  ps.foldl (fun e p => p.complete e) e

/-- What binds as tightly as the level is completed before anything behind it is looked at. -/
theorem settle_append {k : Nat} {front : List Pending} (h : ∀ p ∈ front, k ≤ p.level) (e : Expr) (ps : List Pending) :
    settle k e (front ++ ps) = settle k (completeAll e front) ps := by
  induction front generalizing e with
  | nil => rfl
  | cons p front ih =>
    obtain ⟨hp, hfront⟩ := List.forall_mem_cons.1 h
    rw [List.cons_append, settle, if_pos hp]
    exact ih hfront (p.complete e)

/-- Nothing is completed when what comes next binds less tightly than the level. -/
theorem settle_of_lt {k : Nat} {ps : List Pending} (h : ∀ p ∈ ps.head?, p.level < k) (e : Expr) : settle k e ps = (e, ps) := by
  cases ps with
  | nil => rfl
  | cons p ps => exact if_neg (Nat.not_le.2 (h p rfl))

/-- The reader has read an expression behind what waited: it holds an operand that makes the expression together with what the expression has
left waiting, and all of that binds at least as tightly as the expression does. -/
def Reader.HasRead (r : Reader) (e : Expr) (ps : List Pending) : Prop :=
  ∃ x front, r = .holding x (front ++ ps) ∧ completeAll x front = e ∧ ∀ p ∈ front, e.level ≤ p.level

theorem Reader.hasRead_self (e : Expr) (ps : List Pending) : (Reader.holding e ps).HasRead e ps :=
  ⟨e, [], rfl, rfl, by simp⟩

/-- Behind an expression that something looser waits for, settling down to the level of the expression gives the expression. -/
theorem settle_of_hasRead {e x : Expr} {front ps : List Pending} (hcomplete : completeAll x front = e)
    (hfront : ∀ p ∈ front, e.level ≤ p.level) {k : Nat} (hk : k ≤ e.level) (hps : ∀ p ∈ ps.head?, p.level < k) :
    settle k x (front ++ ps) = (e, ps) := by
  rw [settle_append (fun p hp => Nat.le_trans hk (hfront p hp)), hcomplete, settle_of_lt hps]

/-- What an expression made with its last operand leaves waiting, if it binds the operand as tightly as the whole binds. -/
theorem Reader.HasRead.complete {r : Reader} {e : Expr} {p : Pending} {ps : List Pending} (h : r.HasRead e (p :: ps))
    (hwhole : (p.complete e).level = p.level) (hlevel : p.level ≤ e.level) : r.HasRead (p.complete e) ps := by
  obtain ⟨x, front, hr, rfl, hfront⟩ := h
  refine ⟨x, front ++ [p], by simpa using hr, by simp [completeAll], ?_⟩
  rw [hwhole]
  refine List.forall_mem_append.2 ⟨fun q hq => Nat.le_trans hlevel (hfront q hq), ?_⟩
  simp

/-- An expression begins with a word or an opening parenthesis. -/
theorem WellGrouped.exists_tokens_eq {e : Expr} (h : WellGrouped e) :
    ∃ t ts, e.tokens = t :: ts ∧ (t = .mark '(' ∨ ∃ word, t = .cell (.word word)) := by
  induction h with
  | var => exact ⟨_, _, rfl, Or.inr ⟨_, rfl⟩⟩
  | decimal n => exact ⟨_, _, rfl, Or.inr ⟨_, rfl⟩⟩
  | group => exact ⟨_, _, rfl, Or.inl rfl⟩
  | cast => exact ⟨_, _, rfl, Or.inl rfl⟩
  | index _ _ _ ih _ =>
    obtain ⟨t, ts, htokens, ht⟩ := ih
    exact ⟨t, _, by rw [Expr.tokens, htokens, List.cons_append], ht⟩
  | binary _ _ _ _ ih _ =>
    obtain ⟨t, ts, htokens, ht⟩ := ih
    exact ⟨t, _, by rw [Expr.tokens, htokens, List.cons_append], ht⟩

/-- Behind an operand and an operator a reader expects an operand. -/
theorem foldlM_operator (op : Operator) (x : Expr) (ps : List Pending) {t : Token} (ht : t = .mark '(' ∨ ∃ word, t = .cell (.word word))
    (ts : List Token) : (op.tokens ++ t :: ts).foldlM Reader.step? (.holding x ps) =
      (t :: ts).foldlM Reader.step? (.expecting (Reader.operate op x ps)) := by
  rcases ht with rfl | ⟨word, rfl⟩ <;> cases op <;> rfl

theorem operandOf?_var {name : String} (h : IsIdentifier name) : operandOf? name = some (.var name) :=
  if_pos (isIdentifier_iff.1 h)

theorem not_isIdentifier_decimal (n : Nat) : ¬ IsIdentifier (Text.decimal n) := by
  rintro ⟨c, cs, hchars, hfirst, -⟩
  have hc : c ∈ Nat.toDigits 10 n := by
    have hdigits : Nat.toDigits 10 n = c :: cs := by rw [← hchars, Text.decimal, String.toList_ofList]
    rw [hdigits]
    exact List.mem_cons_self
  have hdigit : c.isDigit = true := Nat.isDigit_of_mem_toDigits (by decide) (by decide) hc
  rcases hfirst with halpha | rfl
  · exact not_isDigit_of_isAlpha halpha hdigit
  · cases hdigit

theorem operandOf?_decimal (n : Nat) : operandOf? (Text.decimal n) = some (.decimal n) := by
  rw [operandOf?, if_neg fun h => not_isIdentifier_decimal n (isIdentifier_iff.2 h), Cell.number?_decimal]
  exact if_pos rfl

theorem typeNamed?_decimal (n : Nat) : typeNamed? (Text.decimal n) = none := by
  have hwords : ∀ type ∈ castTypes, (Cell.word type.text).number? = none := by decide
  refine List.find?_eq_none.2 fun type htype hsame => ?_
  have hnumber := hwords type htype
  rw [of_decide_eq_true hsame, Cell.number?_decimal] at hnumber
  cases hnumber

theorem typeNamed?_text {type : CType} (h : type ∈ castTypes) : typeNamed? type.text = some type := by
  have hall : ∀ type ∈ castTypes, typeNamed? type.text = some type := by decide
  exact hall type h

/-- Reading the tokens of an expression behind what waits reads the expression. -/
def Reads (e : Expr) (ps : List Pending) : Prop :=
  ∃ r, e.tokens.foldlM Reader.step? (.expecting ps) = some r ∧ r.HasRead e ps

namespace Reads

variable {ps : List Pending} {e : Expr}

theorem var {name : String} (hname : IsIdentifier name) (htype : typeNamed? name = none) : Reads (.var name) ps := by
  have hexpect : Reader.expect? ps (.cell (.word name)) = some (.holding (.var name) ps) := by
    simp [Reader.expect?, htype, operandOf?_var hname]
  exact ⟨.holding (.var name) ps, by simp [Expr.tokens, Reader.step?, hexpect], Reader.hasRead_self _ _⟩

theorem decimal (n : Nat) : Reads (.decimal n) ps := by
  have hexpect : Reader.expect? ps (.cell (.word (Text.decimal n))) = some (.holding (.decimal n) ps) := by
    simp [Reader.expect?, typeNamed?_decimal, operandOf?_decimal]
  exact ⟨.holding (.decimal n) ps, by simp [Expr.tokens, Text.signedDecimal, Reader.step?, hexpect], Reader.hasRead_self _ _⟩

/-- What is read inside of something that a mark of its own closes is settled by the mark. -/
theorem exists_holding {p : Pending} (h : Reads e (p :: ps)) (hp : p.level = 0) :
    ∃ x front, e.tokens.foldlM Reader.step? (.expecting (p :: ps)) = some (.holding x (front ++ p :: ps)) ∧
      settle 1 x (front ++ p :: ps) = (e, p :: ps) := by
  obtain ⟨_, hr, x, front, rfl, hx, hfront⟩ := h
  exact ⟨x, front, hr, settle_of_hasRead hx hfront e.level_pos fun q hq => Option.some.inj hq ▸ hp ▸ Nat.one_pos⟩

/-- An expression between parentheses is read when it is read inside them. -/
theorem group (h : Reads e (.parenthesis :: ps)) : Reads (.group e) ps := by
  obtain ⟨x, front, hread, hsettle⟩ := h.exists_holding rfl
  have hclose : Reader.step? (.holding x (front ++ .parenthesis :: ps)) (.mark ')') = some (.holding (.group e) ps) := by
    simp [Reader.step?, hsettle]
  refine ⟨.holding (.group e) ps, ?_, Reader.hasRead_self _ _⟩
  calc (Expr.group e).tokens.foldlM Reader.step? (.expecting ps)
    _ = (e.tokens ++ [Token.mark ')']).foldlM Reader.step? (.expecting (.parenthesis :: ps)) := rfl
    _ = some (.holding (.group e) ps) := by simp [List.foldlM_append, hread, hclose]

/-- A cast is read when what it casts binds tightly enough to be read behind it. -/
theorem cast {type : CType} (htype : type ∈ castTypes) (hlevel : 9 ≤ e.level) (h : Reads e (.cast type :: ps)) :
    Reads (.cast type e) ps := by
  obtain ⟨r, hr, hread⟩ := h
  have hname : Reader.expect? (.parenthesis :: ps) (.cell (.word type.text)) = some (.casting type ps) := by
    simp [Reader.expect?, typeNamed?_text htype]
  refine ⟨r, ?_, hread.complete rfl hlevel⟩
  calc (Expr.cast type e).tokens.foldlM Reader.step? (.expecting ps)
    _ = (.cell (.word type.text) :: .mark ')' :: e.tokens).foldlM Reader.step? (.expecting (.parenthesis :: ps)) := rfl
    _ = e.tokens.foldlM Reader.step? (.expecting (.cast type :: ps)) := by simp [Reader.step?, hname]
    _ = some r := hr

/-- Nothing binds more tightly than a subscript, so nothing waits behind the array. -/
theorem eq_holding (h : Reads e ps) (hlevel : e.level = 10) : e.tokens.foldlM Reader.step? (.expecting ps) = some (.holding e ps) := by
  obtain ⟨_, hr, x, front, rfl, hx, hfront⟩ := h
  have hnothing : front = [] := by
    refine List.eq_nil_iff_forall_not_mem.2 fun p hp => ?_
    exact absurd (hlevel ▸ hfront p hp) (Nat.not_le.2 p.level_lt)
  subst hnothing
  obtain rfl : x = e := hx
  exact hr

/-- A subscript is read when its array and its position are. -/
theorem index {array position : Expr} (hlevel : array.level = 10) (harray : Reads array ps)
    (hposition : Reads position (.subscript array :: ps)) : Reads (.index array position) ps := by
  obtain ⟨x, front, hread, hsettle⟩ := hposition.exists_holding rfl
  have hclose : Reader.step? (.holding x (front ++ .subscript array :: ps)) (.mark ']') = some (.holding (.index array position) ps) := by
    simp [Reader.step?, hsettle]
  refine ⟨.holding (.index array position) ps, ?_, Reader.hasRead_self _ _⟩
  calc (Expr.index array position).tokens.foldlM Reader.step? (.expecting ps)
    _ = (position.tokens ++ [Token.mark ']']).foldlM Reader.step? (.expecting (.subscript array :: ps)) := by
      rw [Expr.tokens, List.foldlM_append, harray.eq_holding hlevel]
      rfl
    _ = some (.holding (.index array position) ps) := by simp [List.foldlM_append, hread, hclose]

/-- What waits binds more loosely than the operator, so the operator takes the whole of its left operand and nothing else. -/
theorem binary {op : Operator} {l r : Expr} (hps : ∀ p ∈ ps.head?, p.level < op.level) (hleft : op.level ≤ l.level)
    (hright : op.level < r.level) (hwell : WellGrouped r) (hl : Reads l ps) (hr : Reads r (.operand op l :: ps)) :
    Reads (.binary op l r) ps := by
  obtain ⟨_, hfirst, x, front, rfl, hx, hfront⟩ := hl
  have hoperate : Reader.operate op x (front ++ ps) = .operand op l :: ps := by
    rw [Reader.operate, settle_of_hasRead hx hfront hleft hps]
  obtain ⟨last, hlast, hread⟩ := hr
  obtain ⟨t, ts, htokens, ht⟩ := hwell.exists_tokens_eq
  refine ⟨last, ?_, hread.complete rfl (Nat.le_of_lt hright)⟩
  calc (Expr.binary op l r).tokens.foldlM Reader.step? (.expecting ps)
    _ = (op.tokens ++ t :: ts).foldlM Reader.step? (.holding x (front ++ ps)) := by
      rw [Expr.tokens, htokens, List.foldlM_append, hfirst]
      rfl
    _ = some last := by rw [foldlM_operator op x _ ht, hoperate, ← htokens, hlast]

end Reads

/-- Where nothing that waits binds an expression more tightly than the expression binds its own parts, reading its tokens reads the
expression. An expression whose outermost part is no operator takes what comes next before anything that waits does. -/
theorem WellGrouped.reads {e : Expr} (h : WellGrouped e) (ps : List Pending) (hps : 9 ≤ e.level ∨ ∀ p ∈ ps.head?, p.level < e.level) :
    Reads e ps := by
  induction h generalizing ps with
  | var hname htype => exact Reads.var hname htype
  | decimal n => exact Reads.decimal n
  | @group e _ ih => exact (ih (.parenthesis :: ps) (Or.inr fun p hp => Option.some.inj hp ▸ e.level_pos)).group
  | @cast type e htype hlevel _ ih => exact (ih (.cast type :: ps) (Or.inl hlevel)).cast htype hlevel
  | @index array position hlevel _ _ iharray ihposition =>
    have harray : Reads array ps := iharray ps (Or.inl (by rw [hlevel]; decide))
    exact harray.index hlevel (ihposition (.subscript array :: ps) (Or.inr fun p hp => Option.some.inj hp ▸ position.level_pos))
  | @binary op l r hleft hright hl hr ihl ihr =>
    have hps : ∀ p ∈ ps.head?, p.level < op.level := hps.resolve_left (Nat.not_le.2 op.level_lt)
    have hfirst : Reads l ps := ihl ps (Or.inr fun p hp => Nat.lt_of_lt_of_le (hps p hp) hleft)
    exact hfirst.binary hps hleft hright hr (ihr (.operand op l :: ps) (Or.inr fun p hp => Option.some.inj hp ▸ hright))

/-- The text of a well-grouped expression is read as the expression. -/
theorem WellGrouped.read?_text {e : Expr} (h : WellGrouped e) : Expr.read? e.text = some e := by
  obtain ⟨_, hread, x, front, rfl, hx, hfront⟩ := h.reads [] (Or.inr (by simp))
  have hsettle : settle 1 x (front ++ []) = (e, []) := settle_of_hasRead hx hfront e.level_pos (by simp)
  rw [List.append_nil] at hread hsettle
  simp [Expr.read?, h.spells.tokens?_eq, hread, Reader.finish?, hsettle]

end DeviceCatalog.CSource
