/-!
# Cutting a text into pieces

`pieces` cuts at every occurrence of a separator and `cutFirst?` at the first one only. What is cut off at the first one is shorter than
the text, so a text can be read piece by piece.
-/

namespace DeviceCatalog.Text

/-- The pieces between the separators, in order; there is always at least one. -/
def pieces (sep : Char) : List Char → List (List Char)
  | [] => [[]]
  | c :: cs =>
    if c = sep then [] :: pieces sep cs
    else
      match pieces sep cs with
      | [] => [[c]]
      | p :: ps => (c :: p) :: ps

/-- What stands before the first separator and what stands after it. -/
def cutFirst? (sep : Char) : List Char → Option (List Char × List Char)
  | [] => none
  | c :: cs => if c = sep then some ([], cs) else (cutFirst? sep cs).map fun (a, b) => (c :: a, b)

/-- The needle stands somewhere in the text. -/
def occursIn (needle : List Char) : List Char → Bool
  | [] => needle.isEmpty
  | c :: cs => needle.isPrefixOf (c :: cs) || occursIn needle cs

/-- A text that begins with the separator is cut there. -/
theorem cutFirst?_cons_self (sep : Char) (cs : List Char) : cutFirst? sep (sep :: cs) = some ([], cs) :=
  if_pos rfl

/-- Another character in front stands before the cut. -/
theorem cutFirst?_cons_of_ne {sep c : Char} (hc : c ≠ sep) (cs : List Char) :
    cutFirst? sep (c :: cs) = (cutFirst? sep cs).map fun (a, b) => (c :: a, b) :=
  if_neg hc

/-- What was cut makes the text again. -/
theorem eq_append_of_cutFirst? {sep : Char} {cs a b : List Char} (h : cutFirst? sep cs = some (a, b)) : cs = a ++ sep :: b := by
  induction cs generalizing a with
  | nil => cases h
  | cons c cs ih =>
    by_cases hc : c = sep
    · rw [hc, cutFirst?_cons_self] at h
      cases h
      rw [hc, List.nil_append]
    · rw [cutFirst?_cons_of_ne hc] at h
      obtain ⟨⟨a', b'⟩, hcut, heq⟩ := Option.map_eq_some_iff.1 h
      cases heq
      rw [ih hcut, List.cons_append]

end DeviceCatalog.Text
