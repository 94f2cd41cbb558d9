import DeviceCatalog.Proofs.Pieces
import DeviceCatalog.Proofs.Walking

/-!
# The path around the last part

The path around what a path names takes the same steps, all but the last one that moves, from the same place. It is made by cutting the
text at its slashes and joining the pieces before the last part again, so these statements are first made about pieces.
-/

namespace DeviceCatalog

namespace Path

/-! ## Pieces before the last part -/

/-- Dropping from the end what fails a test, then one more element, then again what fails it, is dropping the last one that passes. -/
theorem filter_around {α : Type} (f : α → Bool) (xs : List α) :
    ((((xs.reverse.dropWhile f).drop 1).dropWhile f).reverse).filter (fun x => !f x) = (xs.filter fun x => !f x).dropLast := by
  have hdrop : ∀ ys : List α, (ys.dropWhile f).filter (fun x => !f x) = ys.filter fun x => !f x := by
    intro ys
    induction ys with
    | nil => rfl
    | cons y ys ih =>
      by_cases hy : f y
      · rw [List.dropWhile_cons_of_pos hy, ih, List.filter_cons_of_neg (by simp [hy])]
      · rw [List.dropWhile_cons_of_neg hy]
  have hone : ((xs.reverse.dropWhile f).drop 1).filter (fun x => !f x) = ((xs.reverse.dropWhile f).filter fun x => !f x).tail := by
    rw [List.drop_one]
    cases hys : xs.reverse.dropWhile f with
    | nil => rfl
    | cons y ys =>
      have hy : f y = false := by
        have hhead := List.head?_dropWhile_not f xs.reverse
        rwa [hys] at hhead
      rw [List.filter_cons_of_pos (by simp [hy])]
      rfl
  rw [List.filter_reverse, hdrop, hone, hdrop, List.filter_reverse, List.tail_reverse, List.reverse_reverse]

/-- The piece stands for a step that stays. -/
def stays (piece : List Char) : Bool := Step.ofPiece piece == .stay

/-- The moves of a path are those of its pieces that do not stay. -/
theorem moves_eq (path : Path) : path.moves = ((Text.pieces '/' path.text.toList).filter fun p => !stays p).map Step.ofPiece := by
  rw [moves, steps, List.filter_map]
  congr 1
  refine List.filter_congr fun p _ => ?_
  show decide (Step.ofPiece p ≠ .stay) = !decide (Step.ofPiece p = .stay)
  rw [decide_not]

/-- The pieces of a path that stand before its last part. -/
def piecesAround (path : Path) : List (List Char) :=
  ((((Text.pieces '/' path.text.toList).reverse.dropWhile stays).drop 1).dropWhile stays).reverse

theorem piecesAround_prefix (path : Path) : path.piecesAround <+: Text.pieces '/' path.text.toList := by
  have hsuffix : (((Text.pieces '/' path.text.toList).reverse.dropWhile stays).drop 1).dropWhile stays <:+
      (Text.pieces '/' path.text.toList).reverse :=
    (List.dropWhile_suffix _).trans ((List.drop_suffix _ _).trans (List.dropWhile_suffix _))
  have hpieces := List.reverse_prefix.2 hsuffix
  rwa [List.reverse_reverse] at hpieces

/-- The last of these pieces does not stay, so there is never an empty one alone. -/
theorem piecesAround_ne_empty (path : Path) : path.piecesAround ≠ [[]] := by
  intro h
  unfold piecesAround at h
  rw [List.reverse_eq_iff] at h
  have hhead := List.head?_dropWhile_not stays (((Text.pieces '/' path.text.toList).reverse.dropWhile stays).drop 1)
  rw [h] at hhead
  cases hhead

/-- The path around the last part is made of the pieces before it, or it is what is in front of a single part. -/
theorem around_eq (path : Path) :
    path.around = if path.piecesAround = [] then ⟨if path.absolute then "/" else ""⟩
      else ⟨String.intercalate "/" (path.piecesAround.map String.ofList)⟩ := by
  unfold around piecesAround
  simp only
  split
  · rename_i h
    have hnil : (((Text.pieces '/' path.text.toList).reverse.dropWhile stays).drop 1).dropWhile stays = [] := h
    rw [hnil]
    rfl
  · rename_i h
    have hne : (((Text.pieces '/' path.text.toList).reverse.dropWhile stays).drop 1).dropWhile stays ≠ [] := h
    rw [if_neg (by simpa using hne)]
    rfl

/-- Where there are pieces before the last part, they are joined with slashes. -/
theorem toList_around {path : Path} (h : path.piecesAround ≠ []) :
    path.around.text.toList = List.intercalate ['/'] path.piecesAround := by
  rw [around_eq, if_neg h, String.toList_intercalate, List.map_map]
  congr 1
  exact (List.map_congr_left fun p _ => String.toList_ofList).trans (List.map_id _)

/-- Where there are pieces before the last part, the path around the last part is cut into just these. -/
theorem pieces_around {path : Path} (h : path.piecesAround ≠ []) : Text.pieces '/' path.around.text.toList = path.piecesAround := by
  refine Text.pieces_eq_iff.2 ⟨h, fun p hp => ?_, (toList_around h).symm⟩
  exact Text.not_mem_of_mem_pieces (path.piecesAround_prefix.subset hp)

/-- The path around the last part moves as the path does before its last move. -/
theorem moves_around (path : Path) : path.around.moves = path.moves.dropLast := by
  have hmoves : path.moves.dropLast = (path.piecesAround.filter fun p => !stays p).map Step.ofPiece := by
    rw [moves_eq, ← List.map_dropLast, ← filter_around]
    rfl
  rw [hmoves]
  by_cases h : path.piecesAround = []
  · rw [around_eq, if_pos h, h]
    cases path.absolute <;> rfl
  · rw [moves_eq, pieces_around h]

/-- The path around the last part starts at the root exactly when the path does. -/
theorem absolute_around {path : Path} (h : path.piecesAround ≠ []) : path.around.absolute = path.absolute := by
  obtain ⟨rest, hrest⟩ := path.piecesAround_prefix
  have hpath : path.text.toList = List.intercalate ['/'] (path.piecesAround ++ rest) := by
    rw [hrest, Text.intercalate_pieces]
  unfold absolute
  rw [toList_around h, hpath]
  cases hpieces : path.piecesAround with
  | nil => exact absurd hpieces h
  | cons first others =>
    cases first with
    | cons c cs =>
      have hhead : ∀ more, (List.intercalate ['/'] ((c :: cs) :: more)).head? = some c := by
        intro more
        cases more <;> rfl
      rw [List.cons_append, hhead, hhead]
    | nil =>
      have hothers : others ≠ [] := by
        rintro rfl
        exact path.piecesAround_ne_empty hpieces
      obtain ⟨second, others, rfl⟩ := List.exists_cons_of_ne_nil hothers
      rfl

/-- The path around the last part starts where the path does, if it is not empty. -/
theorem base_around {start : Place} {path : Path} (h : path.around.text ≠ "") : path.around.base start = path.base start := by
  have hsame : path.around.absolute = path.absolute := by
    by_cases hpieces : path.piecesAround = []
    · rw [around_eq, if_pos hpieces] at h ⊢
      cases habs : path.absolute with
      | true => rfl
      | false => simp [habs] at h
    · exact absolute_around hpieces
  rw [base, hsame, base]

/-- Where nothing is left around the last part, the path starts at the start and moves once at most. -/
theorem base_of_around_empty (start : Place) {path : Path} (h : path.around.text = "") :
    path.base start = start ∧ path.moves.dropLast = [] := by
  have hpieces : path.piecesAround = [] := by
    by_contra hpieces
    have hcut := pieces_around hpieces
    rw [h] at hcut
    exact path.piecesAround_ne_empty hcut.symm
  constructor
  · rw [around_eq, if_pos hpieces] at h
    cases habs : path.absolute with
    | true => simp [habs] at h
    | false => rw [base, habs]; rfl
  · rw [← moves_around, around_eq, if_pos hpieces]
    cases path.absolute <;> rfl

/-! ## Slashes at the end -/

theorem pieces_concat_sep (sep : Char) (cs : List Char) : Text.pieces sep (cs ++ [sep]) = Text.pieces sep cs ++ [[]] := by
  induction cs with
  | nil => simp [Text.pieces]
  | cons c cs ih =>
    by_cases hc : c = sep
    · rw [hc, List.cons_append, Text.pieces_cons_self, ih, Text.pieces_cons_self]
      rfl
    · obtain ⟨p, ps, h⟩ := Text.exists_pieces_eq sep cs
      rw [h] at ih
      rw [List.cons_append, Text.pieces_cons_of_ne hc ih, Text.pieces_cons_of_ne hc h]
      rfl

/-- Slashes at the end of a path stay where they are. -/
theorem moves_withoutEndSlashes (path : Path) : path.withoutEndSlashes.moves = path.moves := by
  rw [moves_eq, moves_eq, withoutEndSlashes, String.toList_ofList]
  generalize path.text.toList = cs
  induction cs using List.reverseRecOn with
  | nil => rfl
  | append_singleton cs c ih =>
    rw [List.reverse_append, List.reverse_singleton, List.singleton_append]
    by_cases hc : c = '/'
    · subst hc
      rw [List.dropWhile_cons_of_pos (by simp), ih, pieces_concat_sep, List.filter_append]
      simp [stays, Step.ofPiece]
    · rw [List.dropWhile_cons_of_neg (by simpa using hc), List.reverse_cons, List.reverse_reverse]

/-- A path that does not end in a slash is left as it is. -/
theorem withoutEndSlashes_of_not_endsInSlash {path : Path} (h : path.endsInSlash = false) : path.withoutEndSlashes = path := by
  unfold endsInSlash at h
  unfold withoutEndSlashes
  rw [List.getLast?_eq_head?_reverse] at h
  have hkept : path.text.toList.reverse.dropWhile (· == '/') = path.text.toList.reverse := by
    cases hcs : path.text.toList.reverse with
    | nil => rfl
    | cons c cs =>
      rw [hcs] at h
      rw [List.dropWhile_cons_of_neg]
      simpa using h
  rw [hkept, List.reverse_reverse, String.ofList_toList]

/-- The place is one that some of the steps lead to, taken from the first one on. -/
def Reaches (p : Place) (steps : List Step) (q : Place) : Prop := ∃ before, before <+: steps ∧ q = land p before

theorem Reaches.of_prefix {p q : Place} {steps more : List Step} (h : Reaches p steps q) (hmore : steps <+: more) :
    Reaches p more q := by
  obtain ⟨before, hbefore, rfl⟩ := h
  exact ⟨before, hbefore.trans hmore, rfl⟩

theorem Reaches.filter {p q : Place} {steps : List Step} (h : Reaches p steps q) : Reaches p (steps.filter (· ≠ .stay)) q := by
  obtain ⟨before, hbefore, rfl⟩ := h
  exact ⟨before.filter (· ≠ .stay), hbefore.filter _, (land_filter p before).symm⟩

theorem Reaches.concat (p : Place) (steps : List Step) (s : Step) : Reaches p (steps ++ [s]) (s.land (land p steps)) :=
  ⟨steps ++ [s], List.prefix_rfl, by rw [land_append]; rfl⟩

/-- The place of a directory that the path names before its last part. -/
def NamesParent (start : Place) (path : Path) (p : Place) : Prop := Reaches (path.base start) path.moves.dropLast p

/-- The parts of a path move as the path does. -/
theorem filter_parts (path : Path) : path.parts.filter (· ≠ .stay) = path.moves := by
  unfold parts moves
  cases path.startsHere <;> simp [List.filter_filter]

end Path

end DeviceCatalog
