import DeviceCatalog.Proofs.Composition
import DeviceCatalog.Proofs.ReadExpressions

/-!
# The text that puts bytes together

The text is read as the terms of the bytes, one behind the other between bars (`read?_composeBytes`, `orTerms_composedTerms`). The base is any
text that is read as an expression and can have a `+` behind it; one that binds more loosely would lose a part of itself to the `+`
(`read?_add_of_loose`), unless it stands in parentheses. Each term has bits of its own (`byteShift_inside`, `byteShift_apart`).
-/

namespace DeviceCatalog.Artifact

open CSource

/-- The expression that the text of a base is read as binds at least as tightly as the `+` that can follow. An empty base has none. -/
def ReadsAsBase (base : Option String) (place : Option Expr) : Prop :=
  match base, place with
  | none, none => True
  | some text, some e => Expr.read? text = some e ∧ Operator.add.level ≤ e.level
  | _, _ => False

/-- The buffer is well-grouped. -/
theorem wellGrouped_buffer : WellGrouped (.var "pBuf") :=
  .var (isIdentifier_iff.2 (by decide)) (by decide)

section Text

variable {base : Option String} {place : Option Expr} (h : ReadsAsBase base place) (width : Nat) (order : ByteOrder)

include h

/-- The place of a byte is written behind the base as it is behind what the base stands for. -/
theorem spells_placeBehind (i : Nat) : Spells (placeBehind (base.map .var) i) (placeBehind place i) := by
  have hdecimal : ∀ n : Nat, Spells (.decimal n) (.decimal n) := fun n => (WellGrouped.decimal n).spells
  match base, place with
  | none, none => exact hdecimal i
  | some text, some e =>
    have hbase : Spells (.var text) e := readsBefore_of_tokens? (Expr.read?_eq_some_iff.1 h.1).2
    cases i with
    | zero => exact hbase
    | succ i => exact hbase.binary .add (hdecimal (i + 1))

/-- The place of a byte is well-grouped when its base is. -/
theorem wellGrouped_placeBehind (i : Nat) : WellGrouped (placeBehind place i) := by
  match base, place with
  | none, none => exact .decimal i
  | some text, some e =>
    have hbase : WellGrouped e := (Expr.read?_eq_some_iff.1 h.1).1
    cases i with
    | zero => exact hbase
    | succ i => exact .binary h.2 (by simp [Operator.level, Expr.level]) hbase (.decimal (i + 1))

omit h in
/-- The term of a byte stands between parentheses. -/
theorem level_byteTerm (place : Option Expr) (i : Nat) : (byteTerm width place order i).level = 10 := by
  unfold byteTerm shiftedByte
  split <;> rfl

/-- The term of a byte is written with the base as it is with what the base stands for. -/
theorem spells_byteTerm (i : Nat) : Spells (byteTerm width (base.map .var) order i) (byteTerm width place order i) := by
  have hbyte : Spells (byteBehind (base.map .var) i) (byteBehind place i) := wellGrouped_buffer.spells.index (spells_placeBehind h i)
  unfold byteTerm shiftedByte
  split
  · exact hbyte
  · exact ((hbyte.cast (by decide)).binary .shiftLeft (WellGrouped.decimal _).spells).group

/-- The term of a byte is well-grouped when its base is. -/
theorem wellGrouped_byteTerm (i : Nat) : WellGrouped (byteTerm width place order i) := by
  have hbyte : WellGrouped (byteBehind place i) := .index rfl wellGrouped_buffer (wellGrouped_placeBehind h i)
  unfold byteTerm shiftedByte
  split
  · exact hbyte
  · have hcast : WellGrouped (.cast .uint32 (byteBehind place i)) := .cast (by decide) (Nat.le_succ 9) hbyte
    exact .group (.binary (by simp [Operator.level, Expr.level]) (by simp [Operator.level, Expr.level]) hcast (.decimal _))

/-- The joined terms are written with the base as they are with what the base stands for. -/
theorem spells_composedTerms (more : Nat) :
    Spells (composedTerms width (base.map .var) order more) (composedTerms width place order more) := by
  induction more with
  | zero => exact spells_byteTerm h width order 0
  | succ more ih =>
    rw [composedTerms_succ, composedTerms_succ]
    exact ih.binary .bitOr (spells_byteTerm h width order (more + 1))

omit h in
/-- Joined terms bind as tightly as the joining operator at least. -/
theorem level_composedTerms (place : Option Expr) (more : Nat) : Operator.bitOr.level ≤ (composedTerms width place order more).level := by
  cases more with
  | zero =>
    have hlevel : (composedTerms width place order 0).level = 10 := level_byteTerm width order place 0
    rw [hlevel]
    decide
  | succ more =>
    rw [composedTerms_succ]
    exact Nat.le_refl _

/-- Joined terms are well-grouped when the base is. -/
theorem wellGrouped_composedTerms (more : Nat) : WellGrouped (composedTerms width place order more) := by
  induction more with
  | zero => exact wellGrouped_byteTerm h width order 0
  | succ more ih =>
    rw [composedTerms_succ]
    refine .binary (level_composedTerms width order place more) ?_ ih (wellGrouped_byteTerm h width order (more + 1))
    rw [level_byteTerm]
    decide

/-- The text that puts bytes together is read as the terms of the bytes put together. -/
theorem read?_composeBytes (hpos : 0 < width) :
    Expr.read? (composeBytes width base order).text = some (composedTerms width place order (width - 1)) := by
  obtain ⟨more, rfl⟩ : ∃ more, width = more + 1 := ⟨width - 1, by omega⟩
  rw [composeBytes_eq, Expr.read?_eq_some_iff]
  exact ⟨wellGrouped_composedTerms h (more + 1) order more, (spells_composedTerms h (more + 1) order more).tokens?_eq⟩

end Text

/-- Behind a base that binds more loosely a `+` would take a part of the base for itself. -/
theorem read?_add_of_loose {op : Operator} {l r : Expr} (h : WellGrouped (.binary op l r)) (hloose : op.level < Operator.add.level)
    (hr : Operator.add.level ≤ r.level) (i : Nat) :
    Expr.read? (Expr.binary .add (.binary op l r) (.decimal i)).text = some (.binary op l (.binary .add r (.decimal i))) := by
  obtain ⟨hl, hlGrouped, hrGrouped⟩ : op.level ≤ l.level ∧ WellGrouped l ∧ WellGrouped r := by
    cases h with
    | binary hl _ hlGrouped hrGrouped => exact ⟨hl, hlGrouped, hrGrouped⟩
  have hsum : WellGrouped (.binary .add r (.decimal i)) := .binary hr (by simp [Operator.level, Expr.level]) hrGrouped (.decimal i)
  have hwhole : WellGrouped (.binary op l (.binary .add r (.decimal i))) := .binary hl hloose hlGrouped hsum
  have htext : (Expr.binary .add (.binary op l r) (.decimal i)).text = (Expr.binary op l (.binary .add r (.decimal i))).text := by
    simp only [Expr.text, String.append_assoc]
  rw [htext]
  exact hwhole.read?_text

/-! ## Terms -/

/-- The operands between the bars of an expression. -/
def orTerms : Expr → List Expr
  | .binary .bitOr l r => orTerms l ++ [r]
  | e => [e]

/-- The joined terms are those of the bytes, in order. -/
theorem orTerms_composedTerms (width : Nat) (place : Option Expr) (order : ByteOrder) (more : Nat) :
    orTerms (composedTerms width place order more) = (List.range (more + 1)).map (byteTerm width place order) := by
  induction more with
  | zero =>
    have hfirst : orTerms (byteTerm width place order 0) = [byteTerm width place order 0] := by
      unfold byteTerm shiftedByte
      split <;> rfl
    exact hfirst
  | succ more ih =>
    have hlast : orTerms (composedTerms width place order (more + 1)) =
        orTerms (composedTerms width place order more) ++ [byteTerm width place order (more + 1)] := by
      rw [composedTerms_succ]
      rfl
    rw [hlast, ih, @List.range_succ (more + 1), List.map_append, List.map_singleton]

/-- The bits of a byte are those of the number. -/
theorem byteShift_inside {width i : Nat} (order : ByteOrder) (hi : i < width) : byteShift width order i + 8 ≤ 8 * width := by
  cases order <;> simp only [byteShift] <;> omega

/-- Two bytes have no bits in common. -/
theorem byteShift_apart {width i j : Nat} (order : ByteOrder) (hi : i < width) (hj : j < width) (hne : i ≠ j) :
    byteShift width order i + 8 ≤ byteShift width order j ∨ byteShift width order j + 8 ≤ byteShift width order i := by
  cases order <;> simp only [byteShift] <;> omega

/-- An expression puts some bytes of the buffer together, the first one at a position. -/
structure JoinsBytes {α : Type} (M : Machine α) (scope : Scope α) (ls : List (Local α)) (width : Nat) (order : ByteOrder) (q : Nat)
    (es : List (Event α)) (e : Expr) : Prop where
  /-- There is one operand for each byte. -/
  count : (orTerms e).length = width
  /-- The operand of a byte reads that byte and no other, apart from what its base does, and gives it moved to its bits. -/
  operand : ∀ i < width, ∃ operand t b, (orTerms e)[i]? = some operand ∧ M.buffer[q + i]? = some b ∧
    GivesNat M scope ls operand t (b.toNat * 2 ^ byteShift width order i) (es ++ [.read (q + i)])
  /-- The bits of a byte are bits of the number. -/
  inside : ∀ i < width, byteShift width order i + 8 ≤ 8 * width
  /-- Two bytes have no bits in common. -/
  apart : ∀ i < width, ∀ j < width, i ≠ j →
    byteShift width order i + 8 ≤ byteShift width order j ∨ byteShift width order j + 8 ≤ byteShift width order i
  /-- The expression reads the bytes in turn, each once, and gives their number. -/
  value : GivesNat M scope ls e (composedType width) (order.number (bytesAt M q width))
    ((List.range width).flatMap fun i => es ++ [.read (q + i)])

/-- The terms of up to four bytes take up bits apart from each other, and each term reads its own byte: joined they are the number that the
bytes make. -/
theorem joinsBytes_composedTerms {α : Type} {M : Machine α} {scope : Scope α} {ls : List (Local α)} {width p q : Nat} {start : Int}
    {place : Option Expr} {es : List (Event α)} (order : ByteOrder) (hbuf : scope.variable ls "pBuf" = .bytes p)
    (hplace : BaseGives M scope ls place width start es) (hq : (q : Int) = p + start) (hpos : 0 < width) (hwidth : width ≤ 4)
    (hin : q + width ≤ M.buffer.length) : JoinsBytes M scope ls width order q es (composedTerms width place order (width - 1)) where
  count := by
    rw [orTerms_composedTerms, List.length_map, List.length_range]
    omega
  operand i hi := by
    have hbyte : i < (bytesAt M q width).length := by rwa [length_bytesAt hin]
    have hterm := givesNat_byteTerm order hbuf hplace hq hwidth hin hbyte
    rw [getElem_bytesAt hbyte (by omega)] at hterm
    refine ⟨_, _, _, ?_, List.getElem?_eq_getElem (by omega), hterm⟩
    rw [orTerms_composedTerms, List.getElem?_map, List.getElem?_range (by omega)]
    rfl
  inside _ hi := byteShift_inside order hi
  apart _ hi _ hj := byteShift_apart order hi hj
  value := givesNat_composed order hbuf hplace hq hwidth hin hpos

end DeviceCatalog.Artifact
