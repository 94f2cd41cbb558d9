import DeviceCatalog.Text.Blank
import Mathlib.Data.List.DropRight

/-!
# Trimmed texts

Trimming cuts the blank characters off both ends of a text and nothing else, and there is only one text that this leaves.
-/

namespace DeviceCatalog.Text

/-- The text is the trimmed one with blank characters around it, and the trimmed one neither starts nor ends with one. -/
def TrimsTo (cs trimmed : List Char) : Prop :=
  ∃ before after, cs = before ++ trimmed ++ after ∧ (∀ c ∈ before, isBlank c = true) ∧ (∀ c ∈ after, isBlank c = true) ∧
    (∀ c ∈ trimmed.head?, isBlank c = false) ∧ ∀ c ∈ trimmed.getLast?, isBlank c = false

/-- What is left of a text behind its blanks does not start with one. -/
theorem isBlank_of_head?_dropWhile (cs : List Char) : ∀ c ∈ (cs.dropWhile isBlank).head?, isBlank c = false := by
  intro c hc
  have hnot := List.head?_dropWhile_not isBlank cs
  rw [Option.mem_def.1 hc] at hnot
  simpa using hnot

/-- A text that does not start with a blank keeps its front. -/
theorem dropWhile_of_head? {cs : List Char} (h : ∀ c ∈ cs.head?, isBlank c = false) : cs.dropWhile isBlank = cs := by
  cases cs with
  | nil => rfl
  | cons c cs =>
    have hc : isBlank c = false := h c rfl
    rw [List.dropWhile_cons_of_neg (by simp [hc])]

/-- Trimming cuts off the blanks around a text. -/
theorem trimsTo_trimList (cs : List Char) : TrimsTo cs (trimList cs) := by
  have hsplit : trimList cs ++ (cs.dropWhile isBlank).rtakeWhile isBlank = cs.dropWhile isBlank :=
    List.rdropWhile_append_rtakeWhile
  refine ⟨cs.takeWhile isBlank, (cs.dropWhile isBlank).rtakeWhile isBlank, ?_, ?_, ?_, ?_, ?_⟩
  · rw [List.append_assoc, hsplit, List.takeWhile_append_dropWhile]
  · intro c hc
    exact List.mem_takeWhile_imp hc
  · intro c hc
    exact List.mem_rtakeWhile_imp hc
  · intro c hc
    refine isBlank_of_head?_dropWhile cs c ?_
    rw [← hsplit, List.head?_append, Option.mem_def.1 hc]
    rfl
  · intro c hc
    rw [trimList, List.getLast?_reverse] at hc
    exact isBlank_of_head?_dropWhile _ c hc

/-- A text trims in one way only. -/
theorem TrimsTo.trimList_eq {cs trimmed : List Char} (h : TrimsTo cs trimmed) : trimList cs = trimmed := by
  obtain ⟨before, after, rfl, hbefore, hafter, hfirst, hlast⟩ := h
  rw [trimList, List.append_assoc, List.dropWhile_append_of_pos hbefore]
  cases trimmed with
  | nil =>
    have hnil : after.dropWhile isBlank = [] := List.dropWhile_eq_nil_iff.2 hafter
    rw [List.nil_append, hnil]
    rfl
  | cons c cs =>
    have hfront : (c :: cs ++ after).dropWhile isBlank = c :: cs ++ after := dropWhile_of_head? hfirst
    have hback : (c :: cs ++ after).reverse.dropWhile isBlank = (c :: cs).reverse := by
      rw [List.reverse_append, List.dropWhile_append_of_pos (by simpa using hafter)]
      exact dropWhile_of_head? (by rwa [List.head?_reverse])
    rw [hfront, hback, List.reverse_reverse]

/-- There is only one text that a text trims to. -/
theorem trimList_eq_iff {cs trimmed : List Char} : trimList cs = trimmed ↔ TrimsTo cs trimmed := by
  constructor
  · rintro rfl
    exact trimsTo_trimList cs
  · exact TrimsTo.trimList_eq

end DeviceCatalog.Text
