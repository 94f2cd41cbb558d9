import DeviceCatalog.Artifact
import DeviceCatalog.Proofs.StagedFiles

/-!
# Staging artifacts

What staging comes to, seen without the staged files. `pending` are the artifacts that are not current when it is their turn; by then the
directories for those before them have been made and nothing else has happened that a path could show. Either all of them are staged, each
with its bytes under a number of its own, or the first one for which that is impossible is named. That may turn out after its file has been
created, when the device does not take all of its bytes; the rest of such a file is as little in sight as a whole one.
-/

namespace DeviceCatalog

namespace Task

variable {α β : Type}

/-- What a task comes to and the tree after it, without its notices. -/
def result (x : Task α) (t : FileTree) : Except Failure α × FileTree := ((x t).1.outcome, (x t).2)

@[simp] theorem result_pure (a : α) (t : FileTree) : (pure a : Task α).result t = (.ok a, t) := rfl

@[simp] theorem result_note (n : Notice) (t : FileTree) : (note n).result t = (.ok (), t) := rfl

@[simp] theorem result_inspect (f : FileTree → α) (t : FileTree) : (inspect f).result t = (.ok (f t), t) := rfl

@[simp] theorem result_attempt (restate : DiskFault → Failure) (f : FileTree → Except DiskFault α × FileTree) (t : FileTree) :
    (attempt restate f).result t = ((f t).1.mapError restate, (f t).2) := rfl

theorem result_attemptChange_of_ok {restate : DiskFault → Failure} {f : FileTree → Except DiskFault FileTree} {t t' : FileTree}
    (h : f t = .ok t') : (attemptChange restate f).result t = (.ok (), t') := by
  unfold result attemptChange
  rw [h]
  rfl

theorem result_attemptChange_of_error {restate : DiskFault → Failure} {f : FileTree → Except DiskFault FileTree} {t : FileTree}
    {fault : DiskFault} (h : f t = .error fault) : (attemptChange restate f).result t = (.error (restate fault), t) := by
  unfold result attemptChange
  rw [h]
  rfl

@[simp] theorem result_andThen (x : Task α) (f : FileTree → FileTree) (t : FileTree) :
    (x.andThen f).result t = ((x.result t).1, f (x.result t).2) := rfl

/-- After a step that gives a value the next one is taken on the tree it left. -/
theorem result_bind_of_ok {x : Task α} {f : α → Task β} {t u : FileTree} {a : α} (h : x.result t = (.ok a, u)) :
    (x >>= f).result t = (f a).result u := by
  show ((bind x f t).1.outcome, (bind x f t).2) = _
  unfold result at h
  rcases hx : x t with ⟨⟨ns, r⟩, u'⟩
  rw [hx] at h
  cases h
  rw [bind, hx]
  rfl

/-- A step that fails ends the task. -/
theorem result_bind_of_error {x : Task α} {f : α → Task β} {t u : FileTree} {e : Failure} (h : x.result t = (.error e, u)) :
    (x >>= f).result t = (.error e, u) := by
  show ((bind x f t).1.outcome, (bind x f t).2) = _
  unfold result at h
  rcases hx : x t with ⟨⟨ns, r⟩, u'⟩
  rw [hx] at h
  cases h
  rw [bind, hx]

/-- A last step that only makes something of a value makes it of the value that there is. -/
theorem result_bind_pure {x : Task α} (f : α → β) {t u : FileTree} {r : Except Failure α} (h : x.result t = (r, u)) :
    (x >>= fun a => pure (f a)).result t = (r.map f, u) := by
  cases r with
  | ok a => exact (result_bind_of_ok h).trans (result_pure (f a) u)
  | error e => exact result_bind_of_error h

end Task

/-- The place of a file that is staged under a number for a path: next to what the path names. -/
def Path.staging (start : Place) (number : Nat) (path : Path) : Place :=
  .staged number :: land (path.base start) path.moves.dropLast

namespace FileTree

/-- A file can be created under a number next to where a path leads. -/
structure CanCreate (t : FileTree) (path : Path) (number : Nat) : Prop where
  parents : ∃ d, (t.createParents path).1 = .ok d
  room : t.stagedPathSize path.around < pathLimit
  device : t.device.fileFault? (path.staging t.start number) = none

/-- A file with the bytes can be staged under a number next to where a path leads: it can be created, and the device takes the bytes. -/
structure CanStage (t : FileTree) (path : Path) (number : Nat) (bytes : ByteArray) : Prop extends t.CanCreate path number where
  filled : t.device.writeFault? (path.staging t.start number) bytes = none

/-- Why no file with the bytes can be staged under a number next to where a path leads. -/
inductive CannotStage (t : FileTree) (path : Path) (number : Nat) (bytes : ByteArray) : DiskFault → Prop where
  /-- The directory around it cannot be made. -/
  | parents {fault : DiskFault} (h : (t.createParents path).1 = .error fault) : CannotStage t path number bytes fault
  /-- Its name would be too long. -/
  | room {d : Place} (h : (t.createParents path).1 = .ok d) (hsize : pathLimit ≤ t.stagedPathSize path.around) :
      CannotStage t path number bytes .nameTooLong
  /-- The device does not create it. -/
  | creation {d : Place} {fault : DeviceFault} (h : (t.createParents path).1 = .ok d) (hsize : t.stagedPathSize path.around < pathLimit)
      (hdevice : t.device.fileFault? (path.staging t.start number) = some fault) : CannotStage t path number bytes (.device fault)
  /-- It is created, but the device does not take all of the bytes, or does not finish writing them. -/
  | writing {written : Nat} {fault : DeviceFault} (h : t.CanCreate path number)
      (hdevice : t.device.writeFault? (path.staging t.start number) bytes = some (written, fault)) :
      CannotStage t path number bytes (.device fault)

/-- A file that can be staged is not one that cannot. -/
theorem CanStage.not_cannotStage {t : FileTree} {path : Path} {number : Nat} {bytes : ByteArray} {fault : DiskFault}
    (h : t.CanStage path number bytes) : ¬ t.CannotStage path number bytes fault := by
  obtain ⟨⟨⟨d, hparents⟩, hroom, hcreated⟩, hfilled⟩ := h
  intro h
  cases h with
  | parents h =>
    rw [hparents] at h
    cases h
  | room _ hsize => exact absurd hsize (Nat.not_le.2 hroom)
  | creation _ _ hdevice =>
    rw [hcreated] at hdevice
    cases hdevice
  | writing _ hdevice =>
    rw [hfilled] at hdevice
    cases hdevice

/-- There is a single reason why a file cannot be staged. -/
theorem CannotStage.unique {t : FileTree} {path : Path} {number : Nat} {bytes : ByteArray} {fault fault' : DiskFault}
    (h : t.CannotStage path number bytes fault) (h' : t.CannotStage path number bytes fault') : fault = fault' := by
  cases h <;> cases h' <;> grind [CanCreate]

/-- Finding a place for a staged file makes the directories around it and changes nothing else. -/
theorem snd_stagedPlace (t : FileTree) (path : Path) (n : Nat) : (t.stagedPlace path n).2 = (t.createParents path).2 := by
  unfold stagedPlace
  cases t.createParents path with
  | mk r u =>
    cases r with
    | error fault => rfl
    | ok d =>
      simp only
      split
      · rfl
      · split <;> rfl

/-- A file is created in the directory around its destination, unless it cannot be. -/
theorem stagedPlace_cases (t : FileTree) (path : Path) (n : Nat) :
    (∃ fault, (∀ bytes, t.CannotStage path n bytes fault) ∧ (t.stagedPlace path n).1 = .error fault) ∨
      t.CanCreate path n ∧ (t.stagedPlace path n).1 = .ok (path.staging t.start n) := by
  unfold stagedPlace
  cases hparents : t.createParents path with
  | mk r u =>
    cases r with
    | error fault => exact Or.inl ⟨fault, fun _ => .parents (by rw [hparents]), rfl⟩
    | ok d =>
      have hd : (t.createParents path).1 = .ok d := by rw [hparents]
      have hplace : (.staged n :: d : Place) = path.staging t.start n := by rw [eq_land_of_createParents hd, Path.staging]
      by_cases hsize : pathLimit ≤ t.stagedPathSize path.around
      · simp only [if_pos hsize]
        exact Or.inl ⟨.nameTooLong, fun _ => .room hd hsize, rfl⟩
      · simp only [if_neg hsize, hplace]
        cases hdevice : t.device.fileFault? (path.staging t.start n) with
        | some fault => exact Or.inl ⟨.device fault, fun _ => .creation hd (Nat.not_le.1 hsize) hdevice, rfl⟩
        | none => exact Or.inr ⟨⟨⟨d, hd⟩, Nat.not_le.1 hsize, hdevice⟩, rfl⟩

/-- A staged file gets the same place on both trees. -/
theorem Carries.stagedPlace {t u : FileTree} (h : Carries t u) (path : Path) (n : Nat) :
    Carries.Same (t.stagedPlace path n) (u.stagedPlace path n) := by
  obtain ⟨hsame, hcarries⟩ := h.createParents path
  unfold FileTree.stagedPlace
  rw [h.stagedPathSize, h.device]
  cases ht : t.createParents path with
  | mk r t' =>
    cases hu : u.createParents path with
    | mk r' u' =>
      rw [ht, hu] at hsame hcarries
      cases hsame
      cases r with
      | error fault => exact ⟨rfl, hcarries⟩
      | ok d =>
        simp only
        split
        · exact ⟨rfl, hcarries⟩
        · split <;> exact ⟨rfl, hcarries⟩

/-- What a staged file holds once it has been filled is out of sight, whether all of its bytes or some of them. -/
theorem Carries.fill {t u : FileTree} (h : Carries t u) {d : Place} (hd : Given d) (n : Nat) (bytes : ByteArray) :
    Carries (t.fill (.staged n :: d) bytes).2 u := by
  unfold FileTree.fill
  split <;> exact h.stage hd n _

/-- Filling a file fails as the device says, or the file holds its bytes. -/
theorem fill_cases (t : FileTree) {p : Place} (hp : p ≠ []) (bytes : ByteArray) :
    (∃ written fault, t.device.writeFault? p bytes = some (written, fault) ∧ (t.fill p bytes).1 = .error (.device fault)) ∨
      t.device.writeFault? p bytes = none ∧ (t.fill p bytes).1 = .ok () ∧ (t.fill p bytes).2.at? p = some (.file bytes) := by
  unfold fill
  cases hdevice : t.device.writeFault? p bytes with
  | some stop => exact Or.inl ⟨stop.1, stop.2, rfl, rfl⟩
  | none => exact Or.inr ⟨rfl, rfl, at?_set_self _ _ hp⟩

/-- Filling a file leaves all others. -/
theorem at?_fill_of_ne (t : FileTree) {p q : Place} (hq : q ≠ p) (bytes : ByteArray) : (t.fill p bytes).2.at? q = t.at? q := by
  unfold fill
  split <;> exact at?_set_of_ne _ _ hq

/-- Staged files stay where they are while directories are made. -/
theorem at?_staged_createParents (t : FileTree) (hstart : Given t.start) (path : Path) (n : Nat) (p : Place) :
    (t.createParents path).2.at? (.staged n :: p) = t.at? (.staged n :: p) := by
  rcases (makes_createParents t path).at? (.staged n :: p) with h | ⟨-, -, steps, -, hplace⟩
  · exact h
  · exact absurd (hplace ▸ (hstart.base path).land steps) (not_given_staged n p)

end FileTree

namespace Artifact

open FileTree (Carries)

/-- The tree with the directories that the paths of some artifacts need. -/
def withParents (t : FileTree) (artifacts : List Artifact) : FileTree :=
  artifacts.foldl (fun t a => (t.createParents a.path).2) t

/-- The artifacts that are not current when it is their turn, the directories for those before them having been made. -/
def pending (t : FileTree) : List Artifact → List Artifact
  | [] => []
  | a :: rest => if a.isCurrent t then pending t rest else a :: pending (t.createParents a.path).2 rest

/-- The artifacts that are current when it is their turn. -/
def leftAlone (t : FileTree) : List Artifact → List Artifact
  | [] => []
  | a :: rest => if a.isCurrent t then a :: leftAlone t rest else leftAlone (t.createParents a.path).2 rest

/-- The staged artifacts have files with their bytes next to where their paths lead, numbered from a number on. -/
def OnTheWay (start : Place) (t : FileTree) : Nat → List (Artifact × Place) → Prop
  | _, [] => True
  | n, (a, p) :: rest => p = a.path.staging start n ∧ t.at? p = some (.file a.bytes) ∧ OnTheWay start t (n + 1) rest

/-- One after the other the artifacts can be staged, numbered from a number on. -/
def Stageable (t : FileTree) : Nat → List Artifact → Prop
  | _, [] => True
  | n, a :: rest => t.CanStage a.path n a.bytes ∧ Stageable (t.createParents a.path).2 (n + 1) rest

theorem withParents_nil (t : FileTree) : withParents t [] = t := rfl

theorem withParents_cons (t : FileTree) (a : Artifact) (rest : List Artifact) :
    withParents t (a :: rest) = withParents (t.createParents a.path).2 rest := by
  unfold withParents
  rw [List.foldl_cons]

/-- An artifact is current on both trees or on neither. -/
theorem isCurrent_carries {t u : FileTree} (h : Carries t u) (a : Artifact) : a.isCurrent t = a.isCurrent u := by
  unfold isCurrent
  rw [h.readBytes]

/-- Whether staged artifacts are on their way depends only on what is at their numbers. -/
theorem OnTheWay.of_at? {start : Place} (hstart : Given start) {t u : FileTree} {n : Nat} {staged : List (Artifact × Place)}
    (h : OnTheWay start t n staged) (hsame : ∀ m, n ≤ m → ∀ d, Given d → u.at? (.staged m :: d) = t.at? (.staged m :: d)) :
    OnTheWay start u n staged := by
  induction staged generalizing n with
  | nil => trivial
  | cons x staged ih =>
    obtain ⟨hp, hbytes, hrest⟩ := h
    refine ⟨hp, ?_, ih hrest fun m hm => hsame m (Nat.le_of_succ_le hm)⟩
    rw [hp] at hbytes ⊢
    exact (hsame n (Nat.le_refl n) _ ((hstart.base _).land _)).trans hbytes

/-! ## One artifact -/

/-- When no file can be created for an artifact, staging it fails with its name. -/
theorem result_stage_of_error {t : FileTree} {a : Artifact} {n : Nat} {fault : DiskFault} {u : FileTree}
    (h : t.stagedPlace a.path n = (.error fault, u)) : (stage n a).result t = (.error (.write a.path fault), u) := by
  unfold stage
  refine Task.result_bind_of_error ?_
  rw [Task.result_attempt, h]
  rfl

/-- Once the file of an artifact has been created, staging it comes to what filling the file comes to. -/
theorem result_stage_of_ok {t : FileTree} {a : Artifact} {n : Nat} {p : Place} {u : FileTree} (h : t.stagedPlace a.path n = (.ok p, u)) :
    (stage n a).result t = (((u.fill p a.bytes).1.mapError (.write a.path)).map fun _ => p, (u.fill p a.bytes).2) := by
  unfold stage
  have hattempt : (Task.attempt (.write a.path) fun t => t.stagedPlace a.path n).result t = (.ok p, u) := by
    rw [Task.result_attempt, h]
    rfl
  rw [Task.result_bind_of_ok hattempt]
  exact Task.result_bind_pure (fun _ => p) (Task.result_attempt _ _ u)

/-- Staging one artifact makes the directories for it. It fails with the artifact's name, or its bytes are put under its number; no other
staged file is touched. -/
theorem result_stage_cases {t u : FileTree} (h : Carries t u) (a : Artifact) (n : Nat) :
    ∃ r t', (stage n a).result t = (r, t') ∧ Carries t' (u.createParents a.path).2 ∧
      (∀ m, m ≠ n → ∀ p, t'.at? (.staged m :: p) = t.at? (.staged m :: p)) ∧
      ((∃ fault, u.CannotStage a.path n a.bytes fault ∧ r = .error (.write a.path fault)) ∨
        u.CanStage a.path n a.bytes ∧ r = .ok (a.path.staging u.start n) ∧
          t'.at? (a.path.staging u.start n) = some (.file a.bytes)) := by
  obtain ⟨hsame, hparents⟩ := h.stagedPlace a.path n
  have hplaced : t.stagedPlace a.path n = ((t.stagedPlace a.path n).1, (t.createParents a.path).2) := by rw [← t.snd_stagedPlace a.path n]
  rw [t.snd_stagedPlace, u.snd_stagedPlace] at hparents
  -- Making directories touches no staged file, so only the file of this number can differ.
  have hkept := t.at?_staged_createParents (h.start ▸ h.given) a.path
  rcases u.stagedPlace_cases a.path n with ⟨fault, hfault, hplace⟩ | ⟨hcreate, hplace⟩
  · rw [hsame, hplace] at hplaced
    exact ⟨_, _, result_stage_of_error hplaced, hparents, fun m _ p => hkept m p, Or.inl ⟨fault, hfault a.bytes, rfl⟩⟩
  · rw [hsame, hplace] at hplaced
    have hcarries := hparents.fill ((h.given_base a.path).land a.path.moves.dropLast) n a.bytes
    refine ⟨_, _, result_stage_of_ok hplaced, hcarries, fun m hm p => ?_, ?_⟩
    · have hne : (.staged m :: p : Place) ≠ a.path.staging u.start n := by
        intro heq
        cases heq
        exact hm rfl
      rw [FileTree.at?_fill_of_ne _ hne, hkept m p]
    · -- The device is still the one of the tree that paths see, so its faults are that tree's.
      have hdevice : (t.createParents a.path).2.device = u.device := (t.makes_createParents a.path).device.trans h.device
      have hnonempty : a.path.staging u.start n ≠ [] := List.cons_ne_nil _ _
      rcases FileTree.fill_cases (t.createParents a.path).2 hnonempty a.bytes with
        ⟨written, fault, hfault, hfill⟩ | ⟨hfilled, hfill, hbytes⟩
      · rw [hdevice] at hfault
        refine Or.inl ⟨.device fault, .writing hcreate hfault, ?_⟩
        rw [hfill]
        rfl
      · rw [hdevice] at hfilled
        refine Or.inr ⟨⟨hcreate, hfilled⟩, ?_, hbytes⟩
        rw [hfill]
        rfl

/-! ## All artifacts -/

/-- Each of the artifacts can be staged once the directories for those before it have been made. -/
theorem Stageable.canStage {t : FileTree} {n : Nat} {before after : List Artifact} {a : Artifact}
    (h : Stageable t n (before ++ a :: after)) : (withParents t before).CanStage a.path (n + before.length) a.bytes := by
  induction before generalizing t n with
  | nil => exact h.1
  | cons b before ih =>
    have hrest := ih h.2
    rwa [← withParents_cons, Nat.add_right_comm] at hrest

/-- An artifact that is current is reported and left alone. -/
theorem result_stageAll_current {t : FileTree} {a : Artifact} {rest : List Artifact} (n : Nat) (h : a.isCurrent t = true) :
    (stageAll n (a :: rest)).result t =
      (stageAll n rest >>= fun s => pure { s with unchanged := a.path :: s.unchanged }).result t := by
  rw [stageAll, Task.result_bind_of_ok (Task.result_inspect _ t), if_pos h, Task.result_bind_of_ok (Task.result_note _ t)]

/-- An artifact that is not current is staged before the others. -/
theorem result_stageAll_pending {t : FileTree} {a : Artifact} {rest : List Artifact} (n : Nat) (h : a.isCurrent t = false) :
    (stageAll n (a :: rest)).result t =
      (stage n a >>= fun p => stageAll (n + 1) rest >>= fun s => pure { s with staged := (a, p) :: s.staged }).result t := by
  rw [stageAll, Task.result_bind_of_ok (Task.result_inspect _ t), if_neg (by rw [h]; nofun)]

/-- How staging from a number on ends: all pending artifacts are staged and the others left alone, or the first of the pending artifacts
that cannot be staged is named. In either case only the directories for those that it was the turn of have been made. -/
inductive StagingEnds (u : FileTree) (n : Nat) (artifacts : List Artifact) : Except Failure Staging → FileTree → Prop where
  | done {s : Staging} (hstageable : Stageable u n (pending u artifacts)) (hstaged : s.staged.map Prod.fst = pending u artifacts)
      (hunchanged : s.unchanged = (leftAlone u artifacts).map Artifact.path) :
      StagingEnds u n artifacts (.ok s) (withParents u (pending u artifacts))
  | refused {before after : List Artifact} {a : Artifact} {fault : DiskFault} (hpending : pending u artifacts = before ++ a :: after)
      (hbefore : Stageable u n before) (h : (withParents u before).CannotStage a.path (n + before.length) a.bytes fault) :
      StagingEnds u n artifacts (.error (.write a.path fault)) (withParents u (before ++ [a]))

/-- What is current is left alone, and staging ends as it does for the others. -/
theorem StagingEnds.cons_current {u v : FileTree} {n : Nat} {a : Artifact} {rest : List Artifact} {r : Except Failure Staging}
    (hcurrent : a.isCurrent u = true) (h : StagingEnds u n rest r v) :
    StagingEnds u n (a :: rest) (r.map fun s => { s with unchanged := a.path :: s.unchanged }) v := by
  have hpending : pending u (a :: rest) = pending u rest := by rw [pending, if_pos hcurrent]
  cases h with
  | done hstageable hstaged hunchanged =>
    rw [← hpending]
    refine .done (hpending.symm ▸ hstageable) (hstaged.trans hpending.symm) ?_
    rw [leftAlone, if_pos hcurrent]
    exact congrArg (a.path :: ·) hunchanged
  | refused hrest hbefore hfault => exact .refused (hpending.trans hrest) hbefore hfault

/-- What is not current comes first among the staged artifacts, its directories having been made before those for the others. -/
theorem StagingEnds.cons_pending {u v : FileTree} {n : Nat} {a : Artifact} {rest : List Artifact} {r : Except Failure Staging} (p : Place)
    (hcurrent : a.isCurrent u = false) (hstage : u.CanStage a.path n a.bytes) (h : StagingEnds (u.createParents a.path).2 (n + 1) rest r v) :
    StagingEnds u n (a :: rest) (r.map fun s => { s with staged := (a, p) :: s.staged }) v := by
  have hne : ¬ a.isCurrent u = true := Bool.eq_false_iff.1 hcurrent
  have hpending : pending u (a :: rest) = a :: pending (u.createParents a.path).2 rest := by rw [pending, if_neg hne]
  cases h with
  | done hstageable hstaged hunchanged =>
    rw [← withParents_cons, ← hpending]
    refine .done ?_ ?_ ?_
    · rw [hpending]
      exact ⟨hstage, hstageable⟩
    · rw [List.map_cons, hstaged, hpending]
    · rw [leftAlone, if_neg hne, hunchanged]
  | refused hrest hbefore hfault =>
    rw [← withParents_cons, ← List.cons_append]
    refine .refused (hpending.trans (congrArg _ hrest)) ⟨hstage, hbefore⟩ ?_
    rwa [withParents_cons, List.length_cons, ← Nat.add_assoc, Nat.add_right_comm]

/-- Staging from a number on ends as `StagingEnds` says, leaves what is staged under lower numbers, and has every staged artifact on its
way. The induction is on the artifacts, the tree seen by paths growing by the directories for each pending one. -/
theorem stagingEnds_stageAll {t u : FileTree} (h : Carries t u) (n : Nat) (artifacts : List Artifact) :
    ∃ r t' v, (stageAll n artifacts).result t = (r, t') ∧ StagingEnds u n artifacts r v ∧ Carries t' v ∧
      (∀ m < n, ∀ p, t'.at? (.staged m :: p) = t.at? (.staged m :: p)) ∧ ∀ s, r = .ok s → OnTheWay u.start t' n s.staged := by
  induction artifacts generalizing n t u with
  | nil =>
    refine ⟨_, _, u, rfl, .done trivial rfl rfl, h, fun _ _ _ => rfl, ?_⟩
    intro s hs
    cases hs
    trivial
  | cons a rest ih =>
    cases hcurrent : a.isCurrent t with
    | true =>
      obtain ⟨r, t', v, hr, hends, hcarries, hkept, hway⟩ := ih h n
      rw [result_stageAll_current n hcurrent]
      refine ⟨_, t', v, Task.result_bind_pure _ hr, hends.cons_current (isCurrent_carries h a ▸ hcurrent), hcarries, hkept, ?_⟩
      intro s' hs'
      obtain ⟨s, hs, rfl⟩ := Outcome.map_eq_ok_iff.1 hs'
      exact hway s hs
    | false =>
      have hu : a.isCurrent u = false := isCurrent_carries h a ▸ hcurrent
      rw [result_stageAll_pending n hcurrent]
      obtain ⟨r, t₁, hstage, hparents, hother, hrefused | hstaged⟩ := result_stage_cases h a n
      · obtain ⟨fault, hfault, rfl⟩ := hrefused
        have hpending : pending u (a :: rest) = [] ++ a :: pending (u.createParents a.path).2 rest := by
          rw [pending, if_neg (Bool.eq_false_iff.1 hu), List.nil_append]
        refine ⟨_, _, _, Task.result_bind_of_error hstage, .refused hpending trivial ?_, ?_, fun m hm => hother m (Nat.ne_of_lt hm), nofun⟩
        · rwa [withParents_nil]
        · rwa [List.nil_append, withParents_cons, withParents_nil]
      · obtain ⟨hcan, rfl, hbytes⟩ := hstaged
        obtain ⟨r, t', v, hr, hends, hcarries, hkept, hway⟩ := ih hparents (n + 1)
        rw [(u.makes_createParents a.path).start] at hway
        rw [Task.result_bind_of_ok hstage]
        refine ⟨_, t', v, Task.result_bind_pure _ hr, hends.cons_pending _ hu hcan, hcarries, fun m hm p => ?_, fun s' hs' => ?_⟩
        · rw [hkept m (Nat.lt_succ_of_lt hm) p, hother m (Nat.ne_of_lt hm) p]
        · obtain ⟨s, hs, rfl⟩ := Outcome.map_eq_ok_iff.1 hs'
          exact ⟨rfl, (hkept n (Nat.lt_succ_self n) _).trans hbytes, hway s hs⟩

end Artifact

end DeviceCatalog
