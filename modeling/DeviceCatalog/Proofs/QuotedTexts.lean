import DeviceCatalog.CSource.Strings

/-!
# String literals read back

A string literal reads as the text that it is written for, whatever stands behind it, so the literals of a line can be read one after the
other.
-/

namespace DeviceCatalog.CSource

/-- A character is written with a backslash, or as it is when it neither ends the literal nor its line. -/
theorem literalChar_cases (c : Char) : (∃ d, escaped? d = some c ∧ literalChar c = ['\\', d]) ∨
    literalChar c = [c] ∧ c ≠ '"' ∧ c ≠ '\\' ∧ c ≠ '\n' ∧ c ≠ '\r' := by
  unfold literalChar
  by_cases hquote : c = '"'
  · exact Or.inl ⟨'"', by rw [hquote]; rfl, if_pos hquote⟩
  by_cases hbackslash : c = '\\'
  · exact Or.inl ⟨'\\', by rw [hbackslash]; rfl, by rw [if_neg hquote, if_pos hbackslash]⟩
  by_cases hline : c = '\n'
  · exact Or.inl ⟨'n', by rw [hline]; rfl, by rw [if_neg hquote, if_neg hbackslash, if_pos hline]⟩
  by_cases hreturn : c = '\r'
  · exact Or.inl ⟨'r', by rw [hreturn]; rfl, by rw [if_neg hquote, if_neg hbackslash, if_neg hline, if_pos hreturn]⟩
  rw [if_neg hquote, if_neg hbackslash, if_neg hline, if_neg hreturn]
  by_cases htab : c = '\t'
  · exact Or.inl ⟨'t', by rw [htab]; rfl, if_pos htab⟩
  · exact Or.inr ⟨if_neg htab, hquote, hbackslash, hline, hreturn⟩

/-- What is written for a character reads as the character, whatever stands behind it. -/
theorem readQuoted?_literalChar (c : Char) {rest text behind : List Char} (h : readQuoted? rest = some (text, behind)) :
    readQuoted? (literalChar c ++ rest) = some (c :: text, behind) := by
  rcases literalChar_cases c with ⟨d, hd, hchar⟩ | ⟨hchar, hquote, hbackslash, hline, hreturn⟩
  · rw [hchar, List.cons_append, List.singleton_append, readQuoted?, hd, h]
  · simp [hchar, readQuoted?, hbackslash, hline, hreturn, h]

/-- A literal reads as its text and leaves what stands behind it. -/
theorem readLiteral?_stringLiteral (text rest : List Char) : readLiteral? (stringLiteral text ++ rest) = some (text, rest) := by
  have hquoted : readQuoted? (text.flatMap literalChar ++ '"' :: rest) = some (text, rest) := by
    induction text with
    | nil => rfl
    | cons c text ih =>
      rw [List.flatMap_cons, List.append_assoc]
      exact readQuoted?_literalChar c ih
  have hsplit : stringLiteral text ++ rest = '"' :: (text.flatMap literalChar ++ '"' :: rest) := by
    simp [stringLiteral]
  rw [hsplit]
  exact hquoted

/-- A character that is no quote begins no literal. -/
theorem literals?_cons_of_ne {c : Char} (h : c ≠ '"') (cs : List Char) : literals? (c :: cs) = literals? cs := by
  rw [literals?, if_neg h]

/-- A literal that is read comes before those that stand behind it. -/
theorem literals?_quote {cs text rest : List Char} (h : readQuoted? cs = some (text, rest)) :
    literals? ('"' :: cs) = (literals? rest).map (String.ofList text :: ·) := by
  rw [literals?, if_pos rfl]
  split
  · rename_i heq
    cases h.symm.trans heq
    rfl
  · rename_i heq
    cases h.symm.trans heq

/-- A text without NUL is seen whole. -/
theorem beforeNul_of_notMem {s : String} (h : '\x00' ∉ s.toList) : beforeNul s = s.toList := by
  have hall : ∀ c ∈ s.toList, decide (c ≠ '\x00') = true := fun c hc => decide_eq_true fun hnul => h (hnul ▸ hc)
  have htake : (s.toList ++ []).takeWhile (fun c => decide (c ≠ '\x00')) = s.toList ++ [] := by
    rw [List.takeWhile_append_of_pos hall, List.takeWhile_nil]
  rwa [List.append_nil] at htake

end DeviceCatalog.CSource
