import DeviceCatalog.Proofs.Directories

/-!
# Staged files are out of sight

No path can spell the name of a staged file, so a tree with staged files and the tree without them look the same to every operation that
goes along a path. `Carries` relates the two trees, with one lemma for each operation: it comes to the same on both, and the trees after
it are related again.
-/

namespace DeviceCatalog

namespace FileTree

/-- The first tree holds what the second one holds, and staged files besides. -/
structure Carries (t u : FileTree) : Prop where
  start : t.start = u.start
  device : t.device = u.device
  given : Given u.start
  settled : ∀ p, u.at? p ≠ none → Given p
  at? : ∀ p, Given p → t.at? p = u.at? p
  staged : ∀ p, t.at? p ≠ none → Given p ∨ ∃ n d, Given d ∧ p = .staged n :: d

/-- A well-formed tree carries itself: it holds no staged file. -/
theorem WellFormed.carries {t : FileTree} (h : t.WellFormed) : Carries t t :=
  ⟨rfl, rfl, h.given, h.settled, fun _ _ => rfl, fun p hp => Or.inl (h.settled p hp)⟩

/-- A given place is never at or below a staged file. -/
theorem not_isSuffixOf_given {n : Nat} {d p : Place} (hp : Given p) : ((.staged n :: d : Place).isSuffixOf p) = false := by
  rw [Bool.eq_false_iff]
  intro hsuffix
  exact hp n ((List.isSuffixOf_iff_suffix.1 hsuffix).subset List.mem_cons_self)

/-- A staged file is at or below another one only if it is that one. -/
theorem isSuffixOf_staged {m n : Nat} {d p : Place} (hp : Given p) (hne : m ≠ n) :
    ((.staged n :: d : Place).isSuffixOf (.staged m :: p)) = false := by
  rw [Bool.eq_false_iff]
  intro hsuffix
  rcases List.suffix_cons_iff.1 (List.isSuffixOf_iff_suffix.1 hsuffix) with heq | hbelow
  · cases heq
    exact hne rfl
  · exact hp n (hbelow.subset List.mem_cons_self)

/-- Nothing is left at a place that was removed and below it, everything else stays. -/
theorem at?_erase (t : FileTree) (p q : Place) : (t.erase p).at? q = if q = [] ∨ p.isSuffixOf q = false then t.at? q else none := by
  rw [erase, at?_restrict]
  simp

namespace Carries

variable {t u : FileTree}

/-! ## Going along a path -/

/-- A step from a given place comes to the same on both trees. -/
theorem step (h : Carries t u) {p : Place} (hp : Given p) (s : Path.Step) : t.step p s = u.step p s := by
  unfold FileTree.step
  rw [h.at? p hp]

/-- A walk from a given place comes to the same on both trees. -/
theorem walk (h : Carries t u) {p : Place} (hp : Given p) (steps : List Path.Step) : t.walk p steps = u.walk p steps := by
  induction steps generalizing p with
  | nil => rfl
  | cons s steps ih =>
    unfold FileTree.walk at ih ⊢
    rw [List.foldlM_cons, List.foldlM_cons, h.step hp s]
    cases hstep : u.step p s with
    | error fault => rfl
    | ok q =>
      obtain ⟨-, -, rfl⟩ := step_eq_ok_iff.1 hstep
      exact ih (hp.step s)

/-- A path begins at the same place on both trees. -/
theorem origin (h : Carries t u) (path : Path) : t.origin path = u.origin path := by
  unfold FileTree.origin
  rw [h.start]

theorem given_base (h : Carries t u) (path : Path) : Given (path.base u.start) := h.given.base path

theorem given_origin (h : Carries t u) {path : Path} {p : Place} (ho : u.origin path = .ok p) : Given p := by
  obtain ⟨-, rfl⟩ := origin_eq_ok_iff.1 ho
  exact h.given_base path

theorem given_walk {p q : Place} (hp : Given p) {steps : List Path.Step} (hq : u.walk p steps = .ok q) : Given q :=
  eq_land_of_walk hq ▸ hp.land steps

/-- A path leads to the same place on both trees. -/
theorem resolve (h : Carries t u) (path : Path) : t.resolve path = u.resolve path := by
  unfold FileTree.resolve
  rw [h.origin]
  cases ho : u.origin path with
  | error fault => rw [Outcome.error_bind, Outcome.error_bind]
  | ok p => rw [Outcome.ok_bind, Outcome.ok_bind, h.walk (h.given_origin ho)]

theorem given_resolve (h : Carries t u) {path : Path} {p : Place} (hp : u.resolve path = .ok p) : Given p :=
  given_walk (h.given_base path) (resolve_eq_ok_iff.1 hp).2

/-- A path reads as the same bytes on both trees. -/
theorem readBytes (h : Carries t u) (path : Path) : t.readBytes path = u.readBytes path := by
  unfold FileTree.readBytes
  rw [h.resolve]
  cases hp : u.resolve path with
  | error fault => rw [Outcome.error_bind, Outcome.error_bind]
  | ok p => rw [Outcome.ok_bind, Outcome.ok_bind, h.at? p (h.given_resolve hp)]

/-- A file has the same destination on both trees. -/
theorem destination (h : Carries t u) (path : Path) (slash special : DiskFault) :
    t.destination path slash special = u.destination path slash special := by
  unfold FileTree.destination
  rw [h.origin]
  cases ho : u.origin path with
  | error fault => rw [Outcome.error_bind, Outcome.error_bind]
  | ok o =>
    rw [Outcome.ok_bind, Outcome.ok_bind]
    simp only
    rw [h.walk (h.given_origin ho)]
    cases hp : u.walk o path.withoutEndSlashes.steps.dropLast with
    | error fault => rw [Outcome.error_bind, Outcome.error_bind]
    | ok p => rw [Outcome.ok_bind, Outcome.ok_bind, h.step (given_walk (h.given_origin ho) hp)]

theorem stagedPathSize (h : Carries t u) (path : Path) : t.stagedPathSize path = u.stagedPathSize path := by
  unfold FileTree.stagedPathSize
  rw [h.start]

/-! ## Putting something in its place -/

/-- What is put at a given place of both trees is there in both of them. -/
theorem set (h : Carries t u) {p : Place} (hp : Given p) (e : FileEntry) : Carries (t.set p e) (u.set p e) where
  start := h.start
  device := h.device
  given := h.given
  settled q hq := by
    by_cases heq : q = p
    · exact heq ▸ hp
    · rw [at?_set_of_ne _ _ heq] at hq
      exact h.settled q hq
  at? q hq := by
    by_cases heq : q = p
    · subst heq
      cases q with
      | nil => rfl
      | cons n q => rw [at?_set_self _ _ (List.cons_ne_nil _ _), at?_set_self _ _ (List.cons_ne_nil _ _)]
    · rw [at?_set_of_ne _ _ heq, at?_set_of_ne _ _ heq, h.at? q hq]
  staged q hq := by
    by_cases heq : q = p
    · exact Or.inl (heq ▸ hp)
    · rw [at?_set_of_ne _ _ heq] at hq
      exact h.staged q hq

/-- A file that is staged is out of sight. -/
theorem stage (h : Carries t u) {d : Place} (hd : Given d) (n : Nat) (e : FileEntry) : Carries (t.set (.staged n :: d) e) u where
  start := h.start
  device := h.device
  given := h.given
  settled := h.settled
  at? p hp := by
    rw [at?_set_of_ne, h.at? p hp]
    rintro rfl
    exact not_given_staged n d hp
  staged p hp := by
    by_cases heq : p = .staged n :: d
    · exact Or.inr ⟨n, d, hd, heq⟩
    · rw [at?_set_of_ne _ _ heq] at hp
      exact h.staged p hp

/-- A staged file that is taken away is not missed. -/
theorem unstage (h : Carries t u) (n : Nat) (d : Place) : Carries (t.erase (.staged n :: d)) u where
  start := h.start
  device := h.device
  given := h.given
  settled := h.settled
  at? p hp := by rw [at?_erase, if_pos (Or.inr (not_isSuffixOf_given hp)), h.at? p hp]
  staged p hp := by
    rw [at?_erase] at hp
    split at hp
    · exact h.staged p hp
    · exact absurd rfl hp

/-- Without its staged files the first tree holds just what the second one holds. -/
theorem at?_discardStaged (h : Carries t u) (p : Place) : t.discardStaged.at? p = u.at? p := by
  rw [discardStaged, at?_restrict]
  by_cases hp : Given p
  · have hkeep : p = [] ∨ (!isStaged p) = true := by
      match p with
      | [] => exact Or.inl rfl
      | .given _ :: _ => exact Or.inr rfl
      | .staged n :: q => exact absurd hp (not_given_staged n q)
    rw [if_pos hkeep, h.at? p hp]
  · have hnone : u.at? p = none := by
      by_contra hne
      exact hp (h.settled p hne)
    rw [hnone]
    split
    · rename_i hkeep
      by_contra hne
      rcases h.staged p hne with hgiven | ⟨n, d, -, rfl⟩
      · exact hp hgiven
      · rcases hkeep with hkeep | hkeep <;> cases hkeep
    · rfl

/-! ## Making directories -/

/-- A step on one tree and the same step on the other come to the same. -/
def Same {α : Type} (x y : α × FileTree) : Prop := x.1 = y.1 ∧ Carries x.2 y.2

/-- A directory is made on both trees or refused on both. -/
theorem makeDirectory (h : Carries t u) {p : Place} (hp : Given p) : Same (t.makeDirectory p) (u.makeDirectory p) := by
  unfold FileTree.makeDirectory
  rw [h.device]
  split
  · exact ⟨rfl, h⟩
  · exact ⟨rfl, h.set hp _⟩

/-- Making the next directory comes to the same on both trees. -/
theorem makeNext (h : Carries t u) {p : Place} (hp : Given p) (s : Path.Step) : Same (t.makeNext p s) (u.makeNext p s) := by
  unfold FileTree.makeNext
  rw [h.step hp s]
  cases hstep : u.step p s with
  | error fault => exact ⟨rfl, h⟩
  | ok q =>
    obtain ⟨-, -, rfl⟩ := step_eq_ok_iff.1 hstep
    simp only
    rw [h.at? _ (hp.step s)]
    split
    · exact h.makeDirectory (hp.step _)
    · exact ⟨rfl, h⟩
    · exact ⟨rfl, h⟩

/-- Making the directory behind some steps comes to the same on both trees. -/
theorem makeBehind (h : Carries t u) {p : Place} (hp : Given p) (reversed : List Path.Step) :
    Same (t.makeBehind p reversed) (u.makeBehind p reversed) := by
  cases reversed with
  | nil => exact ⟨rfl, h⟩
  | cons s before =>
    rw [makeBehind_cons, makeBehind_cons, h.walk hp]
    cases hwalk : u.walk p before.reverse with
    | error fault => exact ⟨rfl, h⟩
    | ok q => exact h.makeNext (given_walk hp hwalk) s

/-- Making the directories along some steps comes to the same on both trees. -/
theorem makeAlong (h : Carries t u) {p : Place} (hp : Given p) (reversed : List Path.Step) :
    Same (t.makeAlong p reversed) (u.makeAlong p reversed) := by
  induction reversed with
  | nil => exact ⟨rfl, h⟩
  | cons s before ih =>
    obtain ⟨hbehind, hcarries⟩ := h.makeBehind hp (s :: before)
    by_cases hmissing : (u.makeBehind p (s :: before)).1 = .error .notFound
    · rw [makeAlong_of_missing hmissing, makeAlong_of_missing (hbehind.trans hmissing)]
      have hland : ∀ q, (u.makeAlong p before).1 = .ok q → q = Path.land p before.reverse := fun q => eq_land_of_makeAlong
      cases ht : t.makeAlong p before with
      | mk r t' =>
        cases hu : u.makeAlong p before with
        | mk r' u' =>
          rw [ht, hu] at ih
          obtain ⟨hr, hcarries⟩ := ih
          cases hr
          cases r with
          | error fault => exact ⟨rfl, hcarries⟩
          | ok q =>
            have hq : q = Path.land p before.reverse := hland q (by rw [hu])
            exact hcarries.makeNext (hq ▸ hp.land _) s
    · rw [makeAlong_of_not_missing hmissing, makeAlong_of_not_missing fun hm => hmissing (hbehind.symm.trans hm)]
      exact ⟨hbehind, hcarries⟩

/-- Making the directories of a path comes to the same on both trees. -/
theorem createDirectories (h : Carries t u) (path : Path) : Same (t.createDirectories path) (u.createDirectories path) := by
  -- The cases are those of making directories itself; in each of them both trees take the same one.
  by_cases hempty : path.text = ""
  · rw [createDirectories_of_empty hempty, createDirectories_of_empty hempty, h.start]
    exact ⟨rfl, h⟩
  cases ho : u.origin path with
  | error fault =>
    rw [createDirectories_of_unusable hempty ho, createDirectories_of_unusable hempty ((h.origin path).trans ho)]
    exact ⟨rfl, h⟩
  | ok p =>
    have hp := h.given_origin ho
    obtain ⟨hbehind, hcarries⟩ := h.makeBehind hp (innermost path)
    by_cases hmissing : (u.makeBehind p (innermost path)).1 = .error .notFound
    · rw [createDirectories_of_missing hempty ho hmissing,
        createDirectories_of_missing hempty ((h.origin path).trans ho) (hbehind.trans hmissing)]
      have halong := h.makeAlong hp path.parts.dropLast.reverse
      cases ht : t.makeAlong p path.parts.dropLast.reverse with
      | mk r t' =>
        cases hu : u.makeAlong p path.parts.dropLast.reverse with
        | mk r' u' =>
          rw [ht, hu] at halong
          obtain ⟨hr, hcarries⟩ := halong
          cases hr
          cases r with
          | error fault => exact ⟨rfl, hcarries⟩
          | ok q => exact hcarries.makeBehind hp (innermost path)
    · rw [createDirectories_of_not_missing hempty ho hmissing,
        createDirectories_of_not_missing hempty ((h.origin path).trans ho)
          fun hm => hmissing (hbehind.symm.trans hm)]
      exact ⟨hbehind, hcarries⟩

/-- Making the directories around what a path names comes to the same on both trees. -/
theorem createParents (h : Carries t u) (path : Path) : Same (t.createParents path) (u.createParents path) := by
  unfold FileTree.createParents
  exact h.createDirectories path.around

end Carries

end FileTree

end DeviceCatalog
