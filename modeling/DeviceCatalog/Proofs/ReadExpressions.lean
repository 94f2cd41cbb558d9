import DeviceCatalog.Proofs.Grouping

/-!
# What is read is well grouped

An expression that is read from a text is well grouped, and the text has its tokens and no others, so that reading and writing undo each other
up to blanks (`Expr.read?_eq_some_iff`). Each step of the reader keeps the tokens it has read, and what waits for an operand can take whatever
is made behind it (`ReadFrom.step`).
-/

namespace DeviceCatalog.CSource

/-! ## What waits -/

/-- The tokens that have been read of what waits for an operand. -/
def Pending.tokens : Pending → List Token
  | .parenthesis => [.mark '(']
  | .subscript array => array.tokens ++ [.mark '[']
  | .cast type => [.mark '(', .cell (.word type.text), .mark ')']
  | .operand op left => left.tokens ++ op.tokens

/-- The tokens that have been read of all that waits. -/
def pendingTokens : List Pending → List Token
  | [] => []
  | p :: ps => pendingTokens ps ++ p.tokens

/-- What waits for an operand is well grouped so far. -/
def Pending.WellBegun : Pending → Prop
  | .parenthesis => True
  | .subscript array => array.level = 10 ∧ WellGrouped array
  | .cast type => type ∈ castTypes
  | .operand op left => op.level ≤ left.level ∧ WellGrouped left

/-- The expression binds its parts as tightly as the operand must that is waited for. -/
def Pending.Takes : Pending → Expr → Prop
  | .parenthesis, _ | .subscript _, _ => True
  | .cast _, e => 9 ≤ e.level
  | .operand op _, e => op.level < e.level

/-- All that waits is well grouped so far, and what waits longer can take what is made behind it. -/
def WellPending : List Pending → Prop
  | [] => True
  | p :: ps => p.WellBegun ∧ (∀ q ∈ ps.head?, ∀ e, q.Takes (p.complete e)) ∧ WellPending ps

namespace Pending

variable {p : Pending} {e : Expr}

/-- What is begun takes an expression that binds more tightly. -/
theorem takes_of_level_lt (h : p.level < e.level) : p.Takes e := by
  cases p with
  | parenthesis | subscript _ => trivial
  | cast _ => exact Nat.le_of_lt h
  | operand _ _ => exact h

theorem takes_of_le (h : 9 ≤ e.level) : p.Takes e := by
  cases p with
  | parenthesis | subscript _ => trivial
  | cast _ => exact h
  | operand op _ => exact Nat.lt_of_lt_of_le op.level_lt h

theorem level_complete (h : 0 < p.level) : (p.complete e).level = p.level := by
  cases p with
  | parenthesis | subscript _ => cases h
  | cast _ | operand _ _ => rfl

/-- The tokens of a completed expression are those of its beginning and of what completes it. -/
theorem tokens_complete (h : 0 < p.level) : (p.complete e).tokens = p.tokens ++ e.tokens := by
  cases p with
  | parenthesis | subscript _ => cases h
  | cast _ => rfl
  | operand _ _ => simp [complete, Expr.tokens, tokens]

/-- Completing what is well begun with a well-grouped expression that it takes makes a well-grouped one. -/
theorem wellGrouped_complete (hp : p.WellBegun) (htakes : p.Takes e) (he : WellGrouped e) : WellGrouped (p.complete e) := by
  cases p with
  | parenthesis => exact .group he
  | subscript _ => exact .index hp.1 hp.2 he
  | cast _ => exact .cast hp htakes he
  | operand _ _ => exact .binary hp.1 htakes hp.2 he

end Pending

/-! ## Operands and what waits for them -/

/-- An operand and what waits for it, well grouped and read from some tokens. -/
structure Held (ts : List Token) (e : Expr) (ps : List Pending) : Prop where
  tokens : pendingTokens ps ++ e.tokens = ts
  grouped : WellGrouped e
  pending : WellPending ps
  takes : ∀ p ∈ ps.head?, p.Takes e

namespace Held

variable {ts : List Token} {e : Expr} {p : Pending} {ps : List Pending} {k : Nat}

/-- A reader that holds an expression behind something begun may complete that. -/
theorem complete (h : Held ts e (p :: ps)) (hp : 0 < p.level) : Held ts (p.complete e) ps where
  tokens := by
    rw [Pending.tokens_complete hp, ← List.append_assoc]
    exact h.tokens
  grouped := Pending.wellGrouped_complete h.pending.1 (h.takes p rfl) h.grouped
  pending := h.pending.2.2
  takes q hq := h.pending.2.1 q hq e

/-- A reader may complete whatever binds as tightly as the level. -/
theorem settle (h : Held ts e ps) (hk : 0 < k) : Held ts (settle k e ps).1 (settle k e ps).2 := by
  induction ps generalizing e with
  | nil => exact h
  | cons p ps ih =>
    rw [CSource.settle]
    split
    · rename_i hp
      exact ih (h.complete (Nat.lt_of_lt_of_le hk hp))
    · exact h

end Held

/-- What is completed down to a level binds as tightly as the level. -/
theorem level_le_settle {k : Nat} (hk : 0 < k) {e : Expr} (he : k ≤ e.level) (ps : List Pending) : k ≤ (settle k e ps).1.level := by
  induction ps generalizing e with
  | nil => exact he
  | cons p ps ih =>
    rw [settle]
    split
    · rename_i hp
      exact ih (by rwa [Pending.level_complete (Nat.lt_of_lt_of_le hk hp)])
    · exact he

/-- What stays begun binds less tightly than the level. -/
theorem level_lt_of_mem_settle {k : Nat} {e : Expr} {ps : List Pending} {p : Pending} (h : p ∈ (settle k e ps).2.head?) : p.level < k := by
  induction ps generalizing e with
  | nil => cases h
  | cons q ps ih =>
    rw [settle] at h
    split at h
    · exact ih h
    · rename_i hq
      cases Option.some.inj h
      exact Nat.lt_of_not_le hq

/-- A word that names a type is the word of one that can be cast to. -/
theorem mem_castTypes_of_typeNamed? {word : String} {type : CType} (h : typeNamed? word = some type) : type ∈ castTypes ∧ type.text = word :=
  ⟨List.mem_of_find?_eq_some h, of_decide_eq_true (List.find?_some (p := fun t : CType => decide (t.text = word)) h)⟩

/-- The characters that make an operator are those of its text. -/
theorem text_of_operatorOf? {cs : List Char} {op : Operator} (h : operatorOf? cs = some op) : op.text.toList = cs :=
  of_decide_eq_true (List.find?_some (p := fun o : Operator => decide (o.text.toList = cs)) h)

/-- The word that is an operand reads as a well-grouped expression of this one token. -/
theorem wellGrouped_of_operandOf? {word : String} {e : Expr} (htype : typeNamed? word = none) (h : operandOf? word = some e) :
    WellGrouped e ∧ e.level = 10 ∧ e.tokens = [.cell (.word word)] := by
  unfold operandOf? at h
  split at h
  · rename_i hname
    cases h
    exact ⟨.var (isIdentifier_iff.2 hname) htype, rfl, rfl⟩
  · split at h
    · split at h
      · rename_i n _ hdecimal
        cases h
        exact ⟨.decimal n, rfl, by rw [← hdecimal]; rfl⟩
      · cases h
    · cases h

/-! ## Steps -/

namespace Reader

/-- The reader has come from some tokens. -/
def ReadFrom (ts : List Token) : Reader → Prop
  | .expecting ps => pendingTokens ps = ts ∧ WellPending ps
  | .casting type ps => pendingTokens ps ++ [.mark '(', .cell (.word type.text)] = ts ∧ type ∈ castTypes ∧ WellPending ps
  | .holding e ps => Held ts e ps ∧ e.level = 10
  | .operating c e ps => ∃ us, Held us e ps ∧ e.level = 10 ∧ us ++ [.mark c] = ts

variable {ts : List Token} {t : Token} {r r' : Reader} {e : Expr} {ps : List Pending}

/-- A reader that expects an operand takes one token more. -/
theorem readFrom_expect (hts : pendingTokens ps = ts) (hps : WellPending ps) (h : expect? ps t = some r) : ReadFrom (ts ++ [t]) r := by
  subst hts
  unfold expect? at h
  split at h
  · cases h
    exact ⟨rfl, trivial, fun q _ e => Pending.takes_of_le (Nat.le_succ 9), hps⟩
  · split at h
    · rename_i type rest htype
      cases h
      obtain ⟨hmem, rfl⟩ := mem_castTypes_of_typeNamed? htype
      exact ⟨by simp [pendingTokens, Pending.tokens], hmem, hps.2.2⟩
    · cases h
    · rename_i htype
      obtain ⟨e, he, rfl⟩ := Option.map_eq_some_iff.1 h
      obtain ⟨hgrouped, hlevel, htokens⟩ := wellGrouped_of_operandOf? htype he
      exact ⟨⟨by rw [htokens], hgrouped, hps, fun p _ => Pending.takes_of_le (by omega)⟩, hlevel⟩
  · cases h

/-- An operator behind an expression is begun with everything that binds as tightly completed. -/
theorem readFrom_operate (op : Operator) (h : Held ts e ps) (he : e.level = 10) :
    pendingTokens (operate op e ps) = ts ++ op.tokens ∧ WellPending (operate op e ps) := by
  have hsettled := h.settle op.level_pos
  refine ⟨?_, ⟨level_le_settle op.level_pos (by have := op.level_lt; omega) ps, hsettled.grouped⟩, fun q hq e => ?_, hsettled.pending⟩
  · rw [← hsettled.tokens, List.append_assoc]
    rfl
  · exact Pending.takes_of_level_lt (level_lt_of_mem_settle hq)

/-- What is held is settled down to the mark that closes it. -/
theorem held_of_settle {p : Pending} {inner : Expr} {rest : List Pending} (h : Held ts e ps) (hsettle : settle 1 e ps = (inner, p :: rest)) :
    Held ts inner (p :: rest) := by
  have hsettled := h.settle Nat.one_pos
  rwa [hsettle] at hsettled

/-- A reader that holds an operand has read it behind what is begun. -/
theorem readFrom_holding (htokens : pendingTokens ps ++ e.tokens = ts) (hgrouped : WellGrouped e) (hlevel : e.level = 10) (hps : WellPending ps) :
    ReadFrom ts (.holding e ps) :=
  ⟨⟨htokens, hgrouped, hps, fun _ _ => Pending.takes_of_le (by omega)⟩, hlevel⟩

/-- Behind an operand a mark closes what is open, opens a subscript or begins an operator. -/
theorem ReadFrom.step_holding (hr : ReadFrom ts (.holding e ps)) (h : step? (.holding e ps) t = some r) : ReadFrom (ts ++ [t]) r := by
  -- The cases are an opening parenthesis, its end, the end of a subscript, and anything that may begin an operator.
  obtain ⟨hheld, hlevel⟩ := hr
  cases t with
  | cell _ => cases h
  | mark c =>
    simp only [step?] at h
    split at h
    · rename_i hopen
      cases h
      exact ⟨by simp [← hheld.tokens, pendingTokens, Pending.tokens, hopen], ⟨hlevel, hheld.grouped⟩,
        fun q _ e => Pending.takes_of_le (Nat.le_succ 9), hheld.pending⟩
    · split at h
      · rename_i hclose
        split at h
        · rename_i inner rest hsettle
          cases h
          have hinner := held_of_settle hheld hsettle
          exact readFrom_holding (by simp [← hinner.tokens, pendingTokens, Pending.tokens, Expr.tokens, hclose]) (.group hinner.grouped) rfl
            hinner.pending.2.2
        · cases h
      · split at h
        · rename_i hclose
          split at h
          · rename_i position array rest hsettle
            cases h
            have hposition := held_of_settle hheld hsettle
            obtain ⟨⟨harray, harrayGrouped⟩, -, hrest⟩ := hposition.pending
            exact readFrom_holding (by simp [← hposition.tokens, pendingTokens, Pending.tokens, Expr.tokens, hclose])
              (.index harray harrayGrouped hposition.grouped) rfl hrest
          · cases h
        · cases h
          exact ⟨ts, hheld, hlevel, rfl⟩

/-- Behind the first character of an operator its second one comes, or what the operand behind it begins with. -/
theorem ReadFrom.step_operating {first : Char} (hr : ReadFrom ts (.operating first e ps)) (h : step? (.operating first e ps) t = some r) :
    ReadFrom (ts ++ [t]) r := by
  obtain ⟨us, hheld, hlevel, rfl⟩ := hr
  have hoperate : ∀ {op : Operator} {cs : List Char}, operatorOf? cs = some op →
      pendingTokens (operate op e ps) = us ++ cs.map .mark ∧ WellPending (operate op e ps) := by
    intro op cs hop
    rw [← text_of_operatorOf? hop]
    exact readFrom_operate op hheld hlevel
  simp only [step?] at h
  split at h
  · split at h
    · rename_i hop
      cases h
      obtain ⟨htokens, hpending⟩ := hoperate hop
      exact ⟨by rw [htokens]; simp, hpending⟩
    · rename_i hop
      obtain ⟨htokens, hpending⟩ := hoperate hop
      exact readFrom_expect htokens hpending h
    · cases h
  · rename_i hop
    obtain ⟨htokens, hpending⟩ := hoperate hop
    exact readFrom_expect htokens hpending h
  · cases h

/-- Every step reads the next token. -/
theorem ReadFrom.step (hr : ReadFrom ts r) (h : step? r t = some r') : ReadFrom (ts ++ [t]) r' := by
  cases r with
  | expecting ps => exact readFrom_expect hr.1 hr.2 h
  | casting type ps =>
    obtain ⟨rfl, htype, hps⟩ := hr
    simp only [step?] at h
    split at h
    · rename_i hclose
      cases h
      exact ⟨by simp [pendingTokens, Pending.tokens, hclose], htype, fun q _ e => Pending.takes_of_le (Nat.le_refl 9), hps⟩
    · cases h
  | holding e ps => exact hr.step_holding h
  | operating first e ps => exact hr.step_operating h

/-- Reading token after token reads all of them. -/
theorem ReadFrom.foldlM {us : List Token} (hr : ReadFrom ts r) (h : us.foldlM step? r = some r') : ReadFrom (ts ++ us) r' := by
  induction us generalizing ts r with
  | nil =>
    cases h
    rwa [List.append_nil]
  | cons t us ih =>
    rw [List.foldlM_cons] at h
    obtain ⟨next, hnext, hlater⟩ := Option.bind_eq_some_iff.1 h
    rw [← List.singleton_append, ← List.append_assoc]
    exact ih (hr.step hnext) hlater

/-- What a reader finishes with is well-grouped, and its tokens are those that were read. -/
theorem ReadFrom.finish (hr : ReadFrom ts r) (h : r.finish? = some e) : WellGrouped e ∧ e.tokens = ts := by
  unfold finish? at h
  split at h
  · rename_i x ps
    split at h
    · rename_i hsettle
      cases h
      have hsettled := hr.1.settle Nat.one_pos
      rw [hsettle] at hsettled
      exact ⟨hsettled.grouped, hsettled.tokens⟩
    · cases h
  · cases h

end Reader

/-- What is read is well grouped, and the text has its tokens and no others. -/
theorem Expr.read?_eq_some_iff {text : String} {e : Expr} :
    Expr.read? text = some e ↔ WellGrouped e ∧ tokens? text.toList = some e.tokens := by
  constructor
  · intro h
    obtain ⟨ts, htokens, h⟩ := Option.bind_eq_some_iff.1 h
    obtain ⟨r, hr, hfinish⟩ := Option.bind_eq_some_iff.1 h
    have hstart : Reader.ReadFrom [] (.expecting []) := ⟨rfl, trivial⟩
    obtain ⟨hgrouped, htext⟩ := (hstart.foldlM hr).finish hfinish
    exact ⟨hgrouped, by rw [htokens, htext]; rfl⟩
  · rintro ⟨hgrouped, htokens⟩
    have hread := hgrouped.read?_text
    rw [Expr.read?, hgrouped.spells.tokens?_eq] at hread
    rw [Expr.read?, htokens]
    exact hread

end DeviceCatalog.CSource
