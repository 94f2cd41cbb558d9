import DeviceCatalog.Text.Pieces

/-!
# Pieces of a text

A text is its pieces with the separator between them, and they are the only parts without the separator that make the text. Cutting at the
first separator finds what stands before it.
-/

namespace DeviceCatalog.Text

/-! ## Cutting at every separator -/

theorem pieces_cons_self (sep : Char) (cs : List Char) : pieces sep (sep :: cs) = [] :: pieces sep cs :=
  if_pos rfl

/-- Another character in front belongs to the first piece. -/
theorem pieces_cons_of_ne {sep c : Char} (hc : c ≠ sep) {cs p : List Char} {ps : List (List Char)} (h : pieces sep cs = p :: ps) :
    pieces sep (c :: cs) = (c :: p) :: ps :=
  (if_neg hc).trans (by rw [h])

theorem pieces_ne_nil (sep : Char) (cs : List Char) : pieces sep cs ≠ [] := by
  induction cs with
  | nil => exact List.cons_ne_nil _ _
  | cons c cs ih =>
    by_cases hc : c = sep
    · rw [hc, pieces_cons_self]
      exact List.cons_ne_nil _ _
    · obtain ⟨p, ps, h⟩ := List.exists_cons_of_ne_nil ih
      rw [pieces_cons_of_ne hc h]
      exact List.cons_ne_nil _ _

theorem exists_pieces_eq (sep : Char) (cs : List Char) : ∃ p ps, pieces sep cs = p :: ps :=
  List.exists_cons_of_ne_nil (pieces_ne_nil sep cs)

/-- Joining the pieces with the separator gives the text back. -/
theorem intercalate_pieces (sep : Char) (cs : List Char) : List.intercalate [sep] (pieces sep cs) = cs := by
  induction cs with
  | nil => rfl
  | cons c cs ih =>
    obtain ⟨p, ps, h⟩ := exists_pieces_eq sep cs
    rw [h] at ih
    by_cases hc : c = sep
    · rw [hc, pieces_cons_self, h, List.intercalate_cons_cons, ih]
      rfl
    · rw [pieces_cons_of_ne hc h]
      cases ps with
      | nil => simpa [List.intercalate] using ih
      | cons q qs => simpa [List.intercalate] using ih

/-- No piece holds the separator. -/
theorem not_mem_of_mem_pieces {sep : Char} {cs p : List Char} (h : p ∈ pieces sep cs) : sep ∉ p := by
  induction cs generalizing p with
  | nil =>
    rw [List.mem_singleton.1 h]
    exact List.not_mem_nil
  | cons c cs ih =>
    by_cases hc : c = sep
    · rw [hc, pieces_cons_self] at h
      rcases List.mem_cons.1 h with rfl | h
      · exact List.not_mem_nil
      · exact ih h
    · obtain ⟨q, qs, hq⟩ := exists_pieces_eq sep cs
      rw [pieces_cons_of_ne hc hq] at h
      rcases List.mem_cons.1 h with rfl | h
      · intro hmem
        rcases List.mem_cons.1 hmem with rfl | hmem
        · exact hc rfl
        · exact ih (hq ▸ List.mem_cons_self) hmem
      · exact ih (hq ▸ List.mem_cons_of_mem q h)

/-- A text without the separator is one piece. -/
theorem pieces_of_not_mem {sep : Char} {cs : List Char} (h : sep ∉ cs) : pieces sep cs = [cs] := by
  induction cs with
  | nil => rfl
  | cons c cs ih =>
    rw [List.mem_cons, not_or] at h
    exact pieces_cons_of_ne (fun e => h.1 e.symm) (ih h.2)

/-- What stands before the first separator is the first piece. -/
theorem pieces_append {sep : Char} {cs : List Char} (h : sep ∉ cs) (ds : List Char) :
    pieces sep (cs ++ sep :: ds) = cs :: pieces sep ds := by
  induction cs with
  | nil => exact pieces_cons_self sep ds
  | cons c cs ih =>
    rw [List.mem_cons, not_or] at h
    exact pieces_cons_of_ne (fun e => h.1 e.symm) (ih h.2)

/-- The pieces of a text are the one way to write it as parts that do not hold the separator. -/
theorem pieces_eq_iff {sep : Char} {cs : List Char} {ps : List (List Char)} :
    pieces sep cs = ps ↔ ps ≠ [] ∧ (∀ p ∈ ps, sep ∉ p) ∧ List.intercalate [sep] ps = cs := by
  constructor
  · rintro rfl
    exact ⟨pieces_ne_nil sep cs, fun p hp => not_mem_of_mem_pieces hp, intercalate_pieces sep cs⟩
  · rintro ⟨hne, hsep, rfl⟩
    induction ps with
    | nil => exact absurd rfl hne
    | cons p ps ih =>
      have hp : sep ∉ p := hsep p List.mem_cons_self
      cases ps with
      | nil =>
        rw [List.intercalate_singleton]
        exact pieces_of_not_mem hp
      | cons q qs =>
        rw [List.intercalate_cons_cons, List.append_assoc, List.singleton_append, pieces_append hp]
        refine congrArg (p :: ·) (ih nofun ?_)
        exact fun r hr => hsep r (List.mem_cons_of_mem p hr)

/-! ## Cutting at the first separator -/

/-- A text cannot be cut when it does not hold the separator. -/
theorem cutFirst?_eq_none_iff {sep : Char} {cs : List Char} : cutFirst? sep cs = none ↔ sep ∉ cs := by
  induction cs with
  | nil => exact ⟨fun _ => List.not_mem_nil, fun _ => rfl⟩
  | cons c cs ih =>
    rw [List.mem_cons, not_or]
    by_cases hc : c = sep
    · rw [hc, cutFirst?_cons_self]
      exact ⟨nofun, fun h => absurd rfl h.1⟩
    · rw [cutFirst?_cons_of_ne hc, Option.map_eq_none_iff, ih]
      exact ⟨fun hcs => ⟨fun e => hc e.symm, hcs⟩, And.right⟩

/-- A text is cut at its first separator. -/
theorem cutFirst?_append {sep : Char} {cs : List Char} (h : sep ∉ cs) (ds : List Char) :
    cutFirst? sep (cs ++ sep :: ds) = some (cs, ds) := by
  induction cs with
  | nil => exact cutFirst?_cons_self sep ds
  | cons c cs ih =>
    rw [List.mem_cons, not_or] at h
    rw [List.cons_append, cutFirst?_cons_of_ne fun e => h.1 e.symm, ih h.2]
    rfl

end DeviceCatalog.Text
