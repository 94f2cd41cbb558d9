import DeviceCatalog.CSource.Literal
import Mathlib.Data.List.Infix

/-!
# The search for a delimiter

A raw literal whose text holds the plain ending gets a named delimiter, which grows by one underscore as long as the text holds its
ending too. `DelimiterSearch` is this search, step by step. It ends for every text, since the endings grow and the text does not, and
it is what `rawDelimiter` computes (`rawDelimiter_cases`).
-/

namespace DeviceCatalog

namespace Text

/-- A needle stands somewhere in a text when the text is the needle with something around it. -/
theorem occursIn_iff {needle text : List Char} : occursIn needle text = true ↔ needle <:+: text := by
  induction text with
  | nil => rw [occursIn, List.isEmpty_iff, List.infix_nil]
  | cons c cs ih => rw [occursIn, Bool.or_eq_true, ih, List.isPrefixOf_iff_prefix, List.infix_cons_iff]

end Text

namespace CSource

/-- The search for a delimiter, from a number of underscores on: it ends when the text does not hold the ending of the delimiter, and
goes on with one underscore more when it does. -/
inductive DelimiterSearch (text : List Char) : Nat → Nat → Prop where
  | stop {n : Nat} (h : ¬ rawEnding (namedDelimiter n) <:+: text) : DelimiterSearch text n n
  | lengthen {n m : Nat} (h : rawEnding (namedDelimiter n) <:+: text) (hnext : DelimiterSearch text (n + 1) m) :
      DelimiterSearch text n m

theorem length_rawEnding (delimiter : List Char) : (rawEnding delimiter).length = delimiter.length + 2 := by
  simp [rawEnding]

theorem length_namedDelimiter (n : Nat) : (namedDelimiter n).length = n + 3 := by
  simp [namedDelimiter]

/-- A text holds no ending that is longer than itself. -/
theorem le_length_of_taken {text : List Char} {n : Nat} (h : rawEnding (namedDelimiter n) <:+: text) : n + 5 ≤ text.length := by
  have hlength := h.length_le
  rwa [length_rawEnding, length_namedDelimiter] at hlength

/-- The search ends wherever it begins. -/
theorem exists_delimiterSearch (text : List Char) (n : Nat) : ∃ m, DelimiterSearch text n m := by
  by_cases h : rawEnding (namedDelimiter n) <:+: text
  · have hlength := le_length_of_taken h
    obtain ⟨m, hm⟩ := exists_delimiterSearch text (n + 1)
    exact ⟨m, .lengthen h hm⟩
  · exact ⟨n, .stop h⟩
termination_by text.length - n

/-- The search ends at an ending that the text does not hold. -/
theorem DelimiterSearch.ending_free {text : List Char} {n m : Nat} (h : DelimiterSearch text n m) :
    ¬ rawEnding (namedDelimiter m) <:+: text := by
  induction h with
  | stop h => exact h
  | lengthen _ _ ih => exact ih

/-- The text holds every ending that the search passed. -/
theorem DelimiterSearch.ending_taken {text : List Char} {n m : Nat} (h : DelimiterSearch text n m) {k : Nat} (hn : n ≤ k) (hm : k < m) :
    rawEnding (namedDelimiter k) <:+: text := by
  induction h with
  | stop h => omega
  | lengthen h _ ih =>
    rcases Nat.eq_or_lt_of_le hn with rfl | hn
    · exact h
    · exact ih hn hm

/-- A text that holds the plain ending gets the delimiter at which the search ends. -/
theorem rawDelimiter_eq {text : List Char} {m : Nat} (h : DelimiterSearch text 0 m) :
    rawDelimiter text = if Text.occursIn (rawEnding []) text then namedDelimiter m else [] := by
  have hfound : (List.range (text.length + 1)).find? (fun n => !Text.occursIn (rawEnding (namedDelimiter n)) text) = some m := by
    have hbound : m < text.length + 1 := by
      rcases Nat.eq_zero_or_pos m with rfl | hpos
      · exact Nat.succ_pos _
      · have hlength := le_length_of_taken (h.ending_taken (Nat.zero_le (m - 1)) (by omega))
        omega
    rw [List.find?_range_eq_some]
    refine ⟨?_, List.mem_range.2 hbound, ?_⟩
    · simpa [← Bool.not_eq_true, Text.occursIn_iff] using h.ending_free
    · intro k hk
      simpa [Text.occursIn_iff] using h.ending_taken (Nat.zero_le k) hk
  simp only [rawDelimiter, hfound, Option.getD_some]

/-- The plain delimiter is chosen when its ending is free, and else the one at which the search ends. -/
theorem rawDelimiter_cases (text : List Char) :
    ¬ rawEnding [] <:+: text ∧ rawDelimiter text = [] ∨
      rawEnding [] <:+: text ∧ ∃ n, DelimiterSearch text 0 n ∧ rawDelimiter text = namedDelimiter n := by
  obtain ⟨n, hn⟩ := exists_delimiterSearch text 0
  rw [rawDelimiter_eq hn, ← Text.occursIn_iff]
  split
  · rename_i hplain
    exact Or.inr ⟨hplain, n, hn, rfl⟩
  · rename_i hplain
    exact Or.inl ⟨hplain, rfl⟩

end CSource

end DeviceCatalog
