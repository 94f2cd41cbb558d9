import DeviceCatalog.Proofs.Staging

/-!
# Moving artifacts into place

What moving staged artifacts comes to, seen without the staged files: the files appear where their paths lead, one after the other, up to
the first one whose path does not lead to a place for a file or that the device does not move. `Movable` says that there is no such one, and
then the tree afterwards holds the bytes of the artifacts and, everywhere else, what it held.
-/

namespace DeviceCatalog

namespace FileTree

/-- The bytes of the file at a place, if a file is there. -/
def fileAt? (t : FileTree) (p : Place) : Option ByteArray :=
  match t.at? p with
  | some (.file bytes) => some bytes
  | _ => none

theorem fileAt?_eq_some_iff {t : FileTree} {p : Place} {bytes : ByteArray} : t.fileAt? p = some bytes ↔ t.at? p = some (.file bytes) := by
  unfold fileAt?
  split
  · rename_i b h
    simp [h]
  · rename_i h
    exact ⟨nofun, fun hp => absurd hp (h bytes)⟩

/-- A file can be read where a path leads to it. -/
theorem readBytes_eq_ok {t : FileTree} {path : Path} {p : Place} {bytes : ByteArray} (hp : t.resolve path = .ok p)
    (hfile : t.fileAt? p = some bytes) : t.readBytes path = .ok bytes :=
  readBytes_eq_ok_iff.2 ⟨p, hp, fileAt?_eq_some_iff.1 hfile⟩

/-- Why the file that is staged under a number for a path cannot be put where the path leads. -/
inductive CannotReplace (t : FileTree) (path : Path) (number : Nat) : DiskFault → Prop where
  /-- The path leads to no place for a file. -/
  | destination {fault : DiskFault} (h : t.destination path .notDirectory (.device .inUse) = .error fault) : CannotReplace t path number fault
  /-- The device does not move it. -/
  | refused {p : Place} {fault : DeviceFault} (h : t.destination path .notDirectory (.device .inUse) = .ok p)
      (hdevice : t.device.moveFault? (path.staging t.start number) p = some fault) : CannotReplace t path number (.device fault)
  /-- A directory is there. -/
  | directory {p : Place} (h : t.destination path .notDirectory (.device .inUse) = .ok p)
      (hdevice : t.device.moveFault? (path.staging t.start number) p = none) (hp : t.at? p = some .directory) :
      CannotReplace t path number .isDirectory

/-- A file can be put where a path leads. -/
structure Admits (t : FileTree) (path : Path) : Prop where
  resolves : t.resolve path = .ok (path.place t.start)
  named : path.place t.start ≠ []
  free : t.at? (path.place t.start) ≠ some .directory

/-- In a well-formed tree a file can only be put in a directory, under a name. -/
theorem Admits.exists_place {t : FileTree} {path : Path} (h : t.Admits path) (ht : t.WellFormed) :
    ∃ name p, path.place t.start = .given name :: p ∧ t.at? p = some .directory := by
  have hwalk := (resolve_eq_ok_iff.1 h.resolves).2
  have hfree := h.free
  generalize path.place t.start = q at hwalk hfree
  rcases List.eq_nil_or_concat' path.steps with hnil | ⟨before, s, hconcat⟩
  · rw [hnil, walk_nil] at hwalk
    cases hwalk
    refine absurd ?_ hfree
    unfold Path.base
    split
    · rfl
    · exact ht.start
  · rw [hconcat, walk_concat_eq_ok_iff] at hwalk
    obtain ⟨r, -, hstep⟩ := hwalk
    obtain ⟨hr, -, rfl⟩ := step_eq_ok_iff.1 hstep
    cases s with
    | stay => exact absurd hr hfree
    | up =>
      cases r with
      | nil => exact absurd hr hfree
      | cons n r => exact absurd (ht.inside n r (by rw [hr]; nofun)) hfree
    | down name => exact ⟨name, r, rfl, hr⟩

/-- Steps whose last one goes down to a name are the steps before it and that step. -/
theorem eq_dropLast_append_down {steps : List Path.Step} {name : String} (h : steps.getLast?.getD .stay = .down name) :
    steps = steps.dropLast ++ [.down name] := by
  cases hlast : steps.getLast? with
  | none =>
    rw [hlast] at h
    cases h
  | some s =>
    rw [hlast] at h
    cases h
    exact (List.dropLast_append_getLast? _ hlast).symm

/-- What is a destination at all is where the path leads, and not the root. -/
theorem resolve_of_destination {t : FileTree} {path : Path} {slash special : DiskFault} {q : Place}
    (h : t.destination path slash special = .ok q) : t.resolve path = .ok q ∧ q ≠ [] := by
  unfold destination at h
  obtain ⟨o, ho, h⟩ := Outcome.bind_eq_ok_iff.1 h
  obtain ⟨husable, rfl⟩ := origin_eq_ok_iff.1 ho
  simp only at h
  obtain ⟨p, hwalk, h⟩ := Outcome.bind_eq_ok_iff.1 h
  obtain ⟨r, hstep, h⟩ := Outcome.bind_eq_ok_iff.1 h
  cases hlast : path.withoutEndSlashes.steps.getLast?.getD .stay with
  | stay =>
    rw [hlast] at h
    cases h
  | up =>
    rw [hlast] at h
    cases h
  | down name =>
    rw [hlast] at h hstep
    simp only at h
    cases hslash : path.endsInSlash with
    | true =>
      rw [hslash] at h
      cases h
    | false =>
      rw [hslash] at h
      cases h
      -- Without a slash at the end the path is its walk up to the last step, and that step.
      rw [Path.withoutEndSlashes_of_not_endsInSlash hslash] at hlast hwalk
      refine ⟨resolve_eq_ok_iff.2 ⟨husable, ?_⟩, ?_⟩
      · rw [eq_dropLast_append_down hlast]
        exact walk_concat_eq_ok_iff.2 ⟨p, hwalk, hstep⟩
      · obtain ⟨-, -, rfl⟩ := step_eq_ok_iff.1 hstep
        exact List.cons_ne_nil _ _

/-- The file that is staged under a number for a path can be put where the path leads. -/
structure CanReplace (t : FileTree) (path : Path) (number : Nat) : Prop where
  destination : t.destination path .notDirectory (.device .inUse) = .ok (path.place t.start)
  device : t.device.moveFault? (path.staging t.start number) (path.place t.start) = none
  free : t.at? (path.place t.start) ≠ some .directory

/-- What can be put where a path leads is admitted there. -/
theorem CanReplace.admits {t : FileTree} {path : Path} {number : Nat} (h : t.CanReplace path number) : t.Admits path := by
  obtain ⟨hresolve, hne⟩ := resolve_of_destination h.destination
  exact ⟨hresolve, hne, h.free⟩

/-- A file that can be put where its path leads is not one that cannot. -/
theorem CanReplace.not_cannotReplace {t : FileTree} {path : Path} {number : Nat} {fault : DiskFault} (h : t.CanReplace path number) :
    ¬ t.CannotReplace path number fault := by
  obtain ⟨hdestination, hdevice, hfree⟩ := h
  rintro (h | ⟨h, hrefused⟩ | ⟨h, -, hdirectory⟩)
  all_goals
    rw [hdestination] at h
    cases h
  · rw [hdevice] at hrefused
    cases hrefused
  · exact hfree hdirectory

/-- There is a single reason why a file cannot be put where its path leads. -/
theorem CannotReplace.unique {t : FileTree} {path : Path} {number : Nat} {fault fault' : DiskFault} (h : t.CannotReplace path number fault)
    (h' : t.CannotReplace path number fault') : fault = fault' := by
  cases h <;> cases h' <;> grind

/-- A staged file is moved to where its path leads, unless it cannot be put there. The other staged files stay where they are. -/
theorem Carries.move_cases {t u : FileTree} (h : Carries t u) {n : Nat} {path : Path} {bytes : ByteArray}
    (hsource : t.at? (path.staging u.start n) = some (.file bytes)) :
    (∃ fault, u.CannotReplace path n fault ∧ t.move (path.staging u.start n) path = .error fault) ∨
      u.CanReplace path n ∧ ∃ t', t.move (path.staging u.start n) path = .ok t' ∧ Carries t' (u.set (path.place u.start) (.file bytes)) ∧
        ∀ m, m ≠ n → ∀ p, Given p → t'.at? (.staged m :: p) = t.at? (.staged m :: p) := by
  unfold move
  rw [h.destination]
  cases hq : u.destination path .notDirectory (.device .inUse) with
  | error fault => exact Or.inl ⟨fault, .destination hq, rfl⟩
  | ok q =>
    obtain ⟨hresolve, hne⟩ := resolve_of_destination hq
    have hgiven : Given q := h.given_resolve hresolve
    have hplace := eq_place_of_resolve hresolve
    rw [Outcome.ok_bind, hsource, h.device]
    simp only
    cases hdevice : u.device.moveFault? (path.staging u.start n) q with
    | some fault => exact Or.inl ⟨.device fault, .refused hq hdevice, rfl⟩
    | none =>
      simp only
      by_cases hdirectory : t.isDirectory q
      · rw [if_pos hdirectory]
        exact Or.inl ⟨.isDirectory, .directory hq hdevice (h.at? q hgiven ▸ isDirectory_iff.1 hdirectory), rfl⟩
      · rw [if_neg hdirectory]
        have hfree : u.at? q ≠ some .directory := fun hdir => hdirectory (isDirectory_iff.2 ((h.at? q hgiven).trans hdir))
        refine Or.inr
          ⟨⟨hplace ▸ hq, hplace ▸ hdevice, hplace ▸ hfree⟩, _, rfl, hplace ▸ (h.unstage n _).set hgiven _,
            fun m hm p hp => ?_⟩
        -- The moved file leaves its number and lands at a given place; the others are at neither.
        have hother : (.staged m :: p : Place) ≠ q := by
          rintro rfl
          exact not_given_staged m p hgiven
        rw [at?_set_of_ne _ _ hother, at?_erase]
        exact if_pos (Or.inr (isSuffixOf_staged hp hm))

end FileTree

namespace Artifact

open FileTree (Carries)

/-- The tree with an artifact's file where its path leads. -/
def put (t : FileTree) (a : Artifact) : FileTree := t.set (a.path.place t.start) (.file a.bytes)

/-- The tree with the files of some artifacts, put there one after the other. -/
def putAll (t : FileTree) (artifacts : List Artifact) : FileTree := artifacts.foldl put t

/-- One after the other the artifacts can be put where their paths lead, the staged files being numbered from a number on. -/
def Movable (t : FileTree) : Nat → List Artifact → Prop
  | _, [] => True
  | n, a :: rest => t.CanReplace a.path n ∧ Movable (put t a) (n + 1) rest

/-- How moving ends, the staged files being numbered from a number on: every artifact is where its path leads, or the first one that cannot
be put there is named. -/
inductive MovingEnds (t : FileTree) (n : Nat) (artifacts : List Artifact) : Except Failure Unit → FileTree → Nat → Prop where
  | done (h : Movable t n artifacts) : MovingEnds t n artifacts (.ok ()) (putAll t artifacts) artifacts.length
  | blocked {moved after : List Artifact} {a : Artifact} {fault : DiskFault} (h : artifacts = moved ++ a :: after) (hmoved : Movable t n moved)
      (hfault : (putAll t moved).CannotReplace a.path (n + moved.length) fault) :
      MovingEnds t n artifacts (.error (.write a.path fault)) (putAll t moved) moved.length

/-- When the first artifact cannot be moved the failure names it and nothing is moved. -/
theorem result_moveAll_of_error {t : FileTree} {a : Artifact} {p : Place} {rest : List (Artifact × Place)} {fault : DiskFault}
    (h : t.move p a.path = .error fault) : (moveAll ((a, p) :: rest)).result t = (.error (.write a.path fault), t) := by
  rw [moveAll]
  exact Task.result_bind_of_error (Task.result_attemptChange_of_error h)

/-- When the first artifact has been moved the others are moved on the tree that this left. -/
theorem result_moveAll_of_ok {t t' : FileTree} {a : Artifact} {p : Place} {rest : List (Artifact × Place)}
    (h : t.move p a.path = .ok t') : (moveAll ((a, p) :: rest)).result t = (moveAll rest).result t' := by
  rw [moveAll, Task.result_bind_of_ok (Task.result_attemptChange_of_ok h), Task.result_bind_of_ok (Task.result_note _ t')]

/-- Moving what is on its way ends as `MovingEnds` says. -/
theorem movingEnds_moveAll {t u : FileTree} (h : Carries t u) {n : Nat} {staged : List (Artifact × Place)}
    (hway : OnTheWay u.start t n staged) :
    ∃ r t' v j, (moveAll staged).result t = (r, t') ∧ MovingEnds u n (staged.map Prod.fst) r v j ∧ Carries t' v := by
  induction staged generalizing n t u with
  | nil => exact ⟨_, _, _, _, rfl, .done trivial, h⟩
  | cons x staged ih =>
    obtain ⟨a, p⟩ := x
    obtain ⟨rfl, hbytes, hrest⟩ := hway
    rcases h.move_cases hbytes with ⟨fault, hfault, hmove⟩ | ⟨hcan, t₁, hmove, hcarries, hother⟩
    · have hsplit : ((a, a.path.staging u.start n) :: staged).map Prod.fst = [] ++ a :: staged.map Prod.fst := rfl
      exact ⟨_, _, _, _, result_moveAll_of_error hmove, .blocked hsplit trivial hfault, h⟩
    · have hway : OnTheWay u.start t₁ (n + 1) staged := hrest.of_at? h.given fun m hm p hp => hother m (Nat.ne_of_gt hm) p hp
      obtain ⟨r, t', v, j, hr, hends, hcarries⟩ := ih hcarries hway
      refine ⟨r, t', v, ?_⟩
      rw [result_moveAll_of_ok hmove, hr, List.map_cons]
      cases hends with
      | done hmovable => exact ⟨_, rfl, .done ⟨hcan, hmovable⟩, hcarries⟩
      | @blocked moved after b fault hsplit hmoved hfault =>
        have hsplit' : a :: staged.map Prod.fst = (a :: moved) ++ b :: after := by rw [hsplit, List.cons_append]
        rw [Nat.add_right_comm] at hfault
        exact ⟨_, rfl, .blocked hsplit' ⟨hcan, hmoved⟩ hfault, hcarries⟩

/-! ## The tree afterwards -/

theorem start_put (t : FileTree) (a : Artifact) : (put t a).start = t.start := rfl

theorem putAll_nil (t : FileTree) : putAll t [] = t := rfl

theorem putAll_cons (t : FileTree) (a : Artifact) (rest : List Artifact) : putAll t (a :: rest) = putAll (put t a) rest := by
  unfold putAll
  rw [List.foldl_cons]

/-- Each of the artifacts can be put where its path leads once those before it have been. -/
theorem Movable.canReplace {t : FileTree} {n : Nat} {moved after : List Artifact} {a : Artifact} (h : Movable t n (moved ++ a :: after)) :
    (putAll t moved).CanReplace a.path (n + moved.length) := by
  induction moved generalizing t n with
  | nil => exact h.1
  | cons b moved ih =>
    have hrest := ih h.2
    rwa [← putAll_cons, Nat.add_right_comm] at hrest

theorem start_putAll (t : FileTree) (artifacts : List Artifact) : (putAll t artifacts).start = t.start := by
  induction artifacts generalizing t with
  | nil => rfl
  | cons a rest ih => rw [putAll_cons, ih, start_put]

/-- Files, of which those at the places of some artifacts have got the bytes of these, one after the other. -/
def overwrite (start : Place) (files : Place → Option ByteArray) (artifacts : List Artifact) : Place → Option ByteArray :=
  artifacts.foldl (fun files a p => if p = a.path.place start then some a.bytes else files p) files

theorem overwrite_cons (start : Place) (files : Place → Option ByteArray) (a : Artifact) (rest : List Artifact) :
    overwrite start files (a :: rest) = overwrite start (fun p => if p = a.path.place start then some a.bytes else files p) rest := by
  unfold overwrite
  rw [List.foldl_cons]

/-- A place that no artifact goes to keeps its file. -/
theorem overwrite_of_ne {start : Place} {files : Place → Option ByteArray} {artifacts : List Artifact} {p : Place}
    (h : ∀ a ∈ artifacts, p ≠ a.path.place start) : overwrite start files artifacts p = files p := by
  induction artifacts generalizing files with
  | nil => rfl
  | cons a rest ih =>
    obtain ⟨hne, hrest⟩ := List.forall_mem_cons.1 h
    rw [overwrite_cons, ih hrest, if_neg hne]

/-- Artifacts that go to different places all have their bytes there. -/
theorem overwrite_of_mem {start : Place} {files : Place → Option ByteArray} {artifacts : List Artifact}
    (hapart : artifacts.Pairwise fun a b => a.path.place start ≠ b.path.place start) {a : Artifact} (ha : a ∈ artifacts) :
    overwrite start files artifacts (a.path.place start) = some a.bytes := by
  induction artifacts generalizing files with
  | nil => cases ha
  | cons b rest ih =>
    obtain ⟨hb, hrest⟩ := List.pairwise_cons.1 hapart
    rw [overwrite_cons]
    rcases List.mem_cons.1 ha with rfl | ha
    · rw [overwrite_of_ne fun c hc => hb c hc, if_pos rfl]
    · exact ih hrest ha

/-- An artifact has its bytes where it was put, every other place holds what it held. -/
theorem at?_put {t : FileTree} {a : Artifact} (h : t.Admits a.path) (p : Place) :
    (put t a).at? p = if p = a.path.place t.start then some (.file a.bytes) else t.at? p := by
  unfold put
  split
  · rename_i heq
    subst heq
    exact FileTree.at?_set_self _ _ h.named
  · rename_i hne
    exact FileTree.at?_set_of_ne _ _ hne

/-- The files are those from before, overwritten by the artifacts. -/
theorem Movable.fileAt? {t : FileTree} {n : Nat} {artifacts : List Artifact} (h : Movable t n artifacts) :
    (putAll t artifacts).fileAt? = overwrite t.start t.fileAt? artifacts := by
  induction artifacts generalizing t n with
  | nil => rfl
  | cons a rest ih =>
    obtain ⟨hcan, hrest⟩ := h
    rw [putAll_cons, ih hrest, overwrite_cons, start_put]
    congr 1
    funext p
    unfold FileTree.fileAt?
    rw [at?_put hcan.admits]
    by_cases hp : p = a.path.place t.start
    · rw [if_pos hp, if_pos hp]
    · rw [if_neg hp, if_neg hp]

/-- The directories are those from before. -/
theorem Movable.at?_eq_directory {t : FileTree} {n : Nat} {artifacts : List Artifact} (h : Movable t n artifacts) (p : Place) :
    (putAll t artifacts).at? p = some .directory ↔ t.at? p = some .directory := by
  induction artifacts generalizing t n with
  | nil => exact Iff.rfl
  | cons a rest ih =>
    obtain ⟨hcan, hrest⟩ := h
    rw [putAll_cons, ih hrest, at?_put hcan.admits]
    split
    · rename_i heq
      subst heq
      exact iff_of_false nofun hcan.free
    · exact Iff.rfl

/-- A well-formed tree stays so when artifacts are put where they can be put. -/
theorem Movable.wellFormed {t : FileTree} {n : Nat} {artifacts : List Artifact} (h : Movable t n artifacts) (ht : t.WellFormed) :
    (putAll t artifacts).WellFormed := by
  induction artifacts generalizing t n with
  | nil => exact ht
  | cons a rest ih =>
    obtain ⟨hcan, hrest⟩ := h
    obtain ⟨name, p, hplace, hp⟩ := hcan.admits.exists_place ht
    rw [putAll_cons]
    refine ih hrest ?_
    have hfree := hcan.free
    unfold put
    rw [hplace] at hfree ⊢
    exact ht.set hp fun hdirectory => absurd hdirectory hfree

/-- What leads somewhere still does when files have been put in the tree. -/
theorem Movable.resolve {t : FileTree} {n : Nat} {artifacts : List Artifact} (h : Movable t n artifacts) {path : Path} {p : Place}
    (hp : t.resolve path = .ok p) : (putAll t artifacts).resolve path = .ok p :=
  FileTree.resolve_mono (start_putAll t artifacts) (fun q hq => (h.at?_eq_directory q).2 hq) hp

/-- Every artifact's path leads to its place once all are there. -/
theorem Movable.resolve_of_mem {t : FileTree} {n : Nat} {artifacts : List Artifact} (h : Movable t n artifacts) {a : Artifact} (ha : a ∈ artifacts) :
    (putAll t artifacts).resolve a.path = .ok (a.path.place t.start) := by
  induction artifacts generalizing t n with
  | nil => cases ha
  | cons b rest ih =>
    obtain ⟨hcan, hrest⟩ := h
    rcases List.mem_cons.1 ha with rfl | ha
    · have hmovable : Movable t n (a :: rest) := ⟨hcan, hrest⟩
      exact hmovable.resolve hcan.admits.resolves
    · rw [putAll_cons]
      exact ih hrest ha

end Artifact

end DeviceCatalog
