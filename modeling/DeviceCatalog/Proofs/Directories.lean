import DeviceCatalog.Proofs.ParentPaths

/-!
# Making directories

The directory around what a path names is made with the ones around it. `Makes` says how a tree may grow by that: one directory after the
other, each inside a directory and where nothing was. Every directory that is made is one that the path names before its last part.
-/

namespace DeviceCatalog

namespace FileTree

/-- The second tree is the first one with directories at some of the places, made one at a time inside a directory and where nothing was. -/
inductive Makes (places : Place → Prop) (t : FileTree) : FileTree → Prop where
  | refl : Makes places t t
  | make {u : FileTree} {name : String} {p : Place} (h : Makes places t u) (hp : u.at? p = some .directory)
      (hq : u.at? (.given name :: p) = none) (hplace : places (.given name :: p)) : Makes places t (u.set (.given name :: p) .directory)

namespace Makes

variable {places more : Place → Prop} {t u v : FileTree}

/-- What is made after something else is made with it. -/
theorem trans (h : Makes places t u) (h' : Makes places u v) : Makes places t v := by
  induction h' with
  | refl => exact h
  | make _ hp hq hplace ih => exact .make ih hp hq hplace

/-- Directories at some places are directories at more places, too. -/
theorem mono (h : Makes places t u) (hmore : ∀ p, places p → more p) : Makes more t u := by
  induction h with
  | refl => exact .refl
  | make _ hp hq hplace ih => exact .make ih hp hq (hmore _ hplace)

/-- Making directories leaves the start. -/
theorem start (h : Makes places t u) : u.start = t.start := by
  induction h with
  | refl => rfl
  | make _ _ _ _ ih => exact ih

/-- Making directories leaves the device. -/
theorem device (h : Makes places t u) : u.device = t.device := by
  induction h with
  | refl => rfl
  | make _ _ _ _ ih => exact ih

/-- A place holds what it held, or it holds a directory where nothing was. -/
theorem at? (h : Makes places t u) (p : Place) :
    u.at? p = t.at? p ∨ t.at? p = none ∧ u.at? p = some .directory ∧ places p := by
  induction h with
  | refl => exact Or.inl rfl
  | @make u name q _ _ hq hplace ih =>
    by_cases hp : p = .given name :: q
    · subst hp
      have hold : t.at? (.given name :: q) = none := by
        rcases ih with h | ⟨h, -, -⟩
        · rw [← h, hq]
        · exact h
      exact Or.inr ⟨hold, at?_set_self _ _ (List.cons_ne_nil _ _), hplace⟩
    · rw [at?_set_of_ne _ _ hp]
      exact ih

/-- What was there stays. -/
theorem at?_eq_some (h : Makes places t u) {p : Place} {e : FileEntry} (hp : t.at? p = some e) : u.at? p = some e := by
  rcases h.at? p with heq | ⟨hnone, -⟩
  · rw [heq, hp]
  · rw [hnone] at hp
    cases hp

/-- Only directories are made. -/
theorem at?_eq_file (h : Makes places t u) {p : Place} {bytes : ByteArray} (hp : u.at? p = some (.file bytes)) :
    t.at? p = some (.file bytes) := by
  rcases h.at? p with heq | ⟨-, hdir, -⟩
  · rw [← heq, hp]
  · rw [hdir] at hp
    cases hp

/-- Making directories leaves a tree well-formed. -/
theorem wellFormed (h : Makes places t u) (ht : t.WellFormed) : u.WellFormed := by
  induction h with
  | refl => exact ht
  | make _ hp _ _ ih => exact ih.set hp fun _ => rfl

end Makes

open DeviceCatalog.Path (land Reaches NamesParent)

/-! ## What is made -/

/-- The next directory cannot be there or is refused, is there already, or is made. -/
theorem makeNext_cases (t : FileTree) (p : Place) (s : Path.Step) :
    (∃ fault, t.makeNext p s = (.error fault, t)) ∨ t.makeNext p s = (.ok (s.land p), t) ∨
      ∃ name, s = .down name ∧ t.at? p = some .directory ∧ t.at? (.given name :: p) = none ∧
        t.makeNext p s = (.ok (.given name :: p), t.set (.given name :: p) .directory) := by
  unfold makeNext
  cases hstep : t.step p s with
  | error fault => exact Or.inl ⟨fault, rfl⟩
  | ok q =>
    obtain ⟨hp, -, rfl⟩ := step_eq_ok_iff.1 hstep
    simp only
    split
    · rename_i name hnone
      unfold makeDirectory
      split
      · rename_i fault _
        exact Or.inl ⟨.device fault, rfl⟩
      · exact Or.inr (Or.inr ⟨name, rfl, hp, hnone, rfl⟩)
    · exact Or.inr (Or.inl rfl)
    · exact Or.inl ⟨.alreadyExists, rfl⟩

/-- Making the next directory makes that directory at most. -/
theorem makes_makeNext (t : FileTree) (p : Place) (s : Path.Step) : Makes (· = s.land p) t (t.makeNext p s).2 := by
  rcases makeNext_cases t p s with ⟨fault, h⟩ | h | ⟨name, rfl, hp, hnone, h⟩
  · rw [h]
    exact .refl
  · rw [h]
    exact .refl
  · rw [h]
    exact .make .refl hp hnone rfl

/-- The next directory is where its step leads. -/
theorem eq_land_of_makeNext {t : FileTree} {p q : Place} {s : Path.Step} (hq : (t.makeNext p s).1 = .ok q) : q = s.land p := by
  rcases makeNext_cases t p s with ⟨fault, h⟩ | h | ⟨name, rfl, -, -, h⟩
  · rw [h] at hq
    cases hq
  · rw [h] at hq
    exact (Except.ok.inj hq).symm
  · rw [h] at hq
    exact (Except.ok.inj hq).symm

theorem makeBehind_cons (t : FileTree) (p : Place) (s : Path.Step) (before : List Path.Step) :
    t.makeBehind p (s :: before) =
      match t.walk p before.reverse with
      | .ok q => t.makeNext q s
      | .error fault => (.error fault, t) := rfl

/-- Making the directory behind some steps makes that directory at most. -/
theorem makes_makeBehind (t : FileTree) (p : Place) (reversed : List Path.Step) :
    Makes (Reaches p reversed.reverse) t (t.makeBehind p reversed).2 := by
  cases reversed with
  | nil => exact .refl
  | cons s before =>
    rw [makeBehind_cons]
    cases hwalk : t.walk p before.reverse with
    | error fault => exact .refl
    | ok r =>
      refine (makes_makeNext t r s).mono ?_
      rintro _ rfl
      rw [eq_land_of_walk hwalk, List.reverse_cons]
      exact .concat p before.reverse s

/-- The directory behind some steps is where they lead. -/
theorem eq_land_of_makeBehind {t : FileTree} {p q : Place} {reversed : List Path.Step} (h : (t.makeBehind p reversed).1 = .ok q) :
    q = land p reversed.reverse := by
  cases reversed with
  | nil => exact (Except.ok.inj h).symm
  | cons s before =>
    rw [makeBehind_cons] at h
    cases hwalk : t.walk p before.reverse with
    | error fault =>
      rw [hwalk] at h
      cases h
    | ok r =>
      rw [hwalk] at h
      rw [eq_land_of_makeNext h, eq_land_of_walk hwalk, List.reverse_cons, Path.land_append]
      rfl

/-- The directories around the innermost one are made only when something on the way to it is missing. -/
theorem makeAlong_of_missing {t : FileTree} {p : Place} {s : Path.Step} {before : List Path.Step}
    (h : (t.makeBehind p (s :: before)).1 = .error .notFound) :
    t.makeAlong p (s :: before) =
      match t.makeAlong p before with
      | (.ok q, u) => u.makeNext q s
      | (.error fault, u) => (.error fault, u) := by
  rw [makeAlong]
  cases hbehind : t.makeBehind p (s :: before) with
  | mk r u =>
    rw [hbehind] at h
    cases h
    rfl

/-- When nothing on the way is missing only the innermost directory is tried. -/
theorem makeAlong_of_not_missing {t : FileTree} {p : Place} {s : Path.Step} {before : List Path.Step}
    (h : (t.makeBehind p (s :: before)).1 ≠ .error .notFound) : t.makeAlong p (s :: before) = t.makeBehind p (s :: before) := by
  rw [makeAlong]
  split
  · rename_i u hbehind
    rw [hbehind] at h
    exact absurd rfl h
  · rfl

/-- The directory along some steps is where they lead. -/
theorem eq_land_of_makeAlong {t : FileTree} {p q : Place} {reversed : List Path.Step} (h : (t.makeAlong p reversed).1 = .ok q) :
    q = land p reversed.reverse := by
  induction reversed generalizing q with
  | nil => exact (Except.ok.inj h).symm
  | cons s before ih =>
    by_cases hmissing : (t.makeBehind p (s :: before)).1 = .error .notFound
    · rw [makeAlong_of_missing hmissing] at h
      cases halong : t.makeAlong p before with
      | mk r u =>
        rw [halong] at h
        cases r with
        | error fault => cases h
        | ok r =>
          have hr : r = land p before.reverse := ih (by rw [halong])
          rw [eq_land_of_makeNext h, hr, List.reverse_cons, Path.land_append]
          rfl
    · rw [makeAlong_of_not_missing hmissing] at h
      exact eq_land_of_makeBehind h

/-- Making the directories along some steps makes directories that these steps lead to. -/
theorem makes_makeAlong (t : FileTree) (p : Place) (reversed : List Path.Step) :
    Makes (Reaches p reversed.reverse) t (t.makeAlong p reversed).2 := by
  induction reversed with
  | nil => exact .refl
  | cons s before ih =>
    by_cases hmissing : (t.makeBehind p (s :: before)).1 = .error .notFound
    · rw [makeAlong_of_missing hmissing]
      have hbefore := ih.mono fun q hq => hq.of_prefix (List.reverse_cons ▸ List.prefix_append before.reverse [s])
      cases halong : t.makeAlong p before with
      | mk r u =>
        rw [halong] at hbefore
        cases r with
        | error fault => exact hbefore
        | ok q =>
          refine hbefore.trans ((makes_makeNext u q s).mono ?_)
          rintro _ rfl
          have hq : q = land p before.reverse := eq_land_of_makeAlong (by rw [halong])
          rw [hq, List.reverse_cons]
          exact .concat p before.reverse s
    · rw [makeAlong_of_not_missing hmissing]
      exact makes_makeBehind t p (s :: before)

/-- The steps of the directory itself, last step first. -/
def innermost (path : Path) : List Path.Step := path.withoutEndSlashes.steps.reverse

/-- The empty path means the start, which is there. -/
theorem createDirectories_of_empty {t : FileTree} {path : Path} (h : path.text = "") : t.createDirectories path = (.ok t.start, t) := by
  rw [createDirectories, if_pos (by rw [h]; rfl)]

/-- A path that begins nowhere has no directories made. -/
theorem createDirectories_of_unusable {t : FileTree} {path : Path} {fault : DiskFault} (h : path.text ≠ "")
    (ho : t.origin path = .error fault) : t.createDirectories path = (.error fault, t) := by
  rw [createDirectories, if_neg (by simpa using h), ho]

/-- When something on the way is missing the directories along the path are made, then the innermost one. -/
theorem createDirectories_of_missing {t : FileTree} {path : Path} {p : Place} (h : path.text ≠ "") (ho : t.origin path = .ok p)
    (hmissing : (t.makeBehind p (innermost path)).1 = .error .notFound) :
    t.createDirectories path =
      match t.makeAlong p path.parts.dropLast.reverse with
      | (.ok _, u) => u.makeBehind p (innermost path)
      | (.error fault, u) => (.error fault, u) := by
  rw [createDirectories, if_neg (by simpa using h), ho]
  simp only
  split
  · rfl
  · rename_i hother
    have hbehind : t.makeBehind p (innermost path) = (.error .notFound, (t.makeBehind p (innermost path)).2) := by rw [← hmissing]
    exact (hother _ hbehind).elim

/-- When nothing on the way is missing the innermost directory is made. -/
theorem createDirectories_of_not_missing {t : FileTree} {path : Path} {p : Place} (h : path.text ≠ "") (ho : t.origin path = .ok p)
    (hmissing : (t.makeBehind p (innermost path)).1 ≠ .error .notFound) :
    t.createDirectories path = t.makeBehind p (innermost path) := by
  rw [createDirectories, if_neg (by simpa using h), ho]
  simp only
  split
  · rename_i u hbehind
    exact absurd (congrArg Prod.fst hbehind) hmissing
  · rfl

/-- Steps that lead somewhere lead there by those that move. -/
theorem Reaches.moves {p q : Place} {path : Path} {steps : List Path.Step} (h : Reaches p steps q)
    (hsteps : steps.filter (· ≠ .stay) <+: path.moves) : Reaches p path.moves q :=
  h.filter.of_prefix hsteps

/-- Making the directories of a path adds only directories that the path leads to on its way, each inside a directory and where nothing was. -/
theorem makes_createDirectories (t : FileTree) (path : Path) (h : path.text ≠ "") :
    Makes (Reaches (path.base t.start) path.moves) t (t.createDirectories path).2 := by
  cases ho : t.origin path with
  | error fault =>
    rw [createDirectories_of_unusable h ho]
    exact .refl
  | ok p =>
    obtain ⟨-, rfl⟩ := origin_eq_ok_iff.1 ho
    -- Both attempts keep to the way of the path: the innermost directory, and the ones in front of it.
    have hbehind : ∀ u : FileTree, Makes (Reaches (path.base t.start) path.moves) u (u.makeBehind (path.base t.start) (innermost path)).2 := by
      intro u
      refine (makes_makeBehind u _ _).mono fun q hq => Reaches.moves hq ?_
      rw [innermost, List.reverse_reverse]
      exact path.moves_withoutEndSlashes ▸ List.prefix_rfl
    by_cases hmissing : (t.makeBehind (path.base t.start) (innermost path)).1 = .error .notFound
    · rw [createDirectories_of_missing h ho hmissing]
      have halong : Makes (Reaches (path.base t.start) path.moves) t (t.makeAlong (path.base t.start) path.parts.dropLast.reverse).2 := by
        refine (makes_makeAlong t _ _).mono fun q hq => Reaches.moves hq ?_
        rw [List.reverse_reverse, ← path.filter_parts]
        exact (List.dropLast_prefix _).filter _
      cases hresult : t.makeAlong (path.base t.start) path.parts.dropLast.reverse with
      | mk r u =>
        rw [hresult] at halong
        cases r with
        | error fault => exact halong
        | ok q => exact halong.trans (hbehind u)
    · rw [createDirectories_of_not_missing h ho hmissing]
      exact hbehind t

/-- A directory that is made is where its path leads. -/
theorem eq_land_of_createDirectories {t : FileTree} {path : Path} {q : Place} (h : path.text ≠ "")
    (hq : (t.createDirectories path).1 = .ok q) : q = land (path.base t.start) path.moves := by
  have hbehind : ∀ {u : FileTree} {p : Place}, (u.makeBehind p (innermost path)).1 = .ok q → q = land p path.moves := by
    intro u p hu
    rw [eq_land_of_makeBehind hu, innermost, List.reverse_reverse, ← path.moves_withoutEndSlashes, Path.moves, Path.land_filter]
  cases ho : t.origin path with
  | error fault =>
    rw [createDirectories_of_unusable h ho] at hq
    cases hq
  | ok p =>
    obtain ⟨-, rfl⟩ := origin_eq_ok_iff.1 ho
    by_cases hmissing : (t.makeBehind (path.base t.start) (innermost path)).1 = .error .notFound
    · rw [createDirectories_of_missing h ho hmissing] at hq
      cases hresult : t.makeAlong (path.base t.start) path.parts.dropLast.reverse with
      | mk r u =>
        rw [hresult] at hq
        cases r with
        | error fault => cases hq
        | ok r => exact hbehind hq
    · rw [createDirectories_of_not_missing h ho hmissing] at hq
      exact hbehind hq

/-- Making the directory around what a path names adds only directories that the path names before its last part. -/
theorem makes_createParents (t : FileTree) (path : Path) : Makes (NamesParent t.start path) t (t.createParents path).2 := by
  unfold createParents
  by_cases h : path.around.text = ""
  · rw [createDirectories_of_empty h]
    exact .refl
  · refine (makes_createDirectories t path.around h).mono fun q hq => ?_
    rwa [Path.base_around h, Path.moves_around] at hq

/-- The directory around what a path names is where the path leads before its last move. -/
theorem eq_land_of_createParents {t : FileTree} {path : Path} {q : Place} (hq : (t.createParents path).1 = .ok q) :
    q = land (path.base t.start) path.moves.dropLast := by
  unfold createParents at hq
  by_cases h : path.around.text = ""
  · rw [createDirectories_of_empty h] at hq
    obtain ⟨hbase, hmoves⟩ := Path.base_of_around_empty t.start h
    rw [hbase, hmoves]
    exact (Except.ok.inj hq).symm
  · rw [eq_land_of_createDirectories h hq, Path.base_around h, Path.moves_around]

end FileTree

end DeviceCatalog
