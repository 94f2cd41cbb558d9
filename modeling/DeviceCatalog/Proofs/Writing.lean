import DeviceCatalog.Proofs.Moving

/-!
# Writing artifacts

A write leaves the tree as it was with the directories made that the pending artifacts need and the first few of these in place: all of them
when it succeeds, none when staging failed, and those moved before when a move failed. Nothing else changes and no staged file is left.
A failed move can therefore leave some artifacts new and others old, and it does so whenever an artifact was moved before it.
-/

namespace DeviceCatalog

namespace Artifact

open FileTree (Carries Makes)
open DeviceCatalog.Path (NamesParent)

/-! ## Pending artifacts -/

/-- An artifact is current when its path reads as its bytes. -/
theorem isCurrent_iff {t : FileTree} {a : Artifact} : a.isCurrent t = true ↔ t.readBytes a.path = .ok a.bytes := by
  have hbytes : ∀ x y : ByteArray, (x == y) = true ↔ x = y := by
    intro x y
    show (x.data == y.data) = true ↔ x = y
    rw [beq_iff_eq]
    exact ⟨ByteArray.ext, fun h => h ▸ rfl⟩
  unfold isCurrent
  cases h : t.readBytes a.path with
  | error fault => exact ⟨nofun, nofun⟩
  | ok bytes =>
    simp only [hbytes]
    exact ⟨fun h => h ▸ rfl, Except.ok.inj⟩

theorem mem_of_mem_pending {t : FileTree} {artifacts : List Artifact} {a : Artifact} (h : a ∈ pending t artifacts) : a ∈ artifacts := by
  induction artifacts generalizing t with
  | nil => exact h
  | cons b rest ih =>
    rw [pending] at h
    split at h
    · exact List.mem_cons_of_mem b (ih h)
    · rcases List.mem_cons.1 h with rfl | h
      · exact List.mem_cons_self
      · exact List.mem_cons_of_mem b (ih h)

/-- Pending artifacts keep their order. -/
theorem pending_sublist (t : FileTree) (artifacts : List Artifact) : (pending t artifacts).Sublist artifacts := by
  induction artifacts generalizing t with
  | nil => exact .slnil
  | cons b rest ih =>
    rw [pending]
    split
    · exact (ih t).cons b
    · exact (ih _).cons_cons b

/-- The directories for some artifacts are ones that their paths name before the last part. -/
theorem makes_withParents (t : FileTree) (artifacts : List Artifact) :
    Makes (fun p => ∃ a ∈ artifacts, a.path.NamesParent t.start p) t (withParents t artifacts) := by
  induction artifacts generalizing t with
  | nil => exact .refl
  | cons a rest ih =>
    rw [withParents_cons]
    have hfirst := t.makes_createParents a.path
    refine (hfirst.mono fun p hp => ⟨a, List.mem_cons_self, hp⟩).trans ((ih _).mono ?_)
    rintro p ⟨b, hb, hp⟩
    exact ⟨b, List.mem_cons_of_mem a hb, hfirst.start ▸ hp⟩

/-- What is current stays so when directories are made. -/
theorem isCurrent_mono {places : Place → Prop} {t u : FileTree} (h : Makes places t u) {a : Artifact} (ha : a.isCurrent t = true) :
    a.isCurrent u = true := by
  obtain ⟨p, hresolve, hfile⟩ := FileTree.readBytes_eq_ok_iff.1 (isCurrent_iff.1 ha)
  have hresolve' := FileTree.resolve_mono h.start (fun q hq => h.at?_eq_some hq) hresolve
  exact isCurrent_iff.2 (FileTree.readBytes_eq_ok_iff.2 ⟨p, hresolve', h.at?_eq_some hfile⟩)

/-- Where only directories have been made, a path that never goes up leads to a file exactly when it did before. -/
theorem isCurrent_of_makes {places : Place → Prop} {t u : FileTree} (ht : t.WellFormed) (h : Makes places t u) {a : Artifact}
    (hup : .up ∉ a.path.steps) : a.isCurrent u = a.isCurrent t := by
  rw [Bool.eq_iff_iff]
  refine ⟨fun hcurrent => ?_, isCurrent_mono h⟩
  obtain ⟨p, hresolve, hfile⟩ := FileTree.readBytes_eq_ok_iff.1 (isCurrent_iff.1 hcurrent)
  obtain ⟨husable, hwalk⟩ := FileTree.resolve_eq_ok_iff.1 hresolve
  have hfile := h.at?_eq_file hfile
  have hold : ∀ q, t.at? q ≠ none → u.at? q = some .directory → t.at? q = some .directory := by
    intro q hq hdir
    rcases h.at? q with heq | ⟨hnone, -⟩
    · rw [← heq, hdir]
    · exact absurd hnone hq
  rw [h.start] at hwalk
  have hwalk' := ht.walk_of_at? hold hup hwalk (by rw [hfile]; nofun)
  exact isCurrent_iff.2 (FileTree.readBytes_eq_ok_iff.2 ⟨p, FileTree.resolve_eq_ok_iff.2 ⟨husable, hwalk'⟩, hfile⟩)

/-- When no path goes up, the pending artifacts are those that are not current before anything is done. -/
theorem pending_eq_filter {t u : FileTree} (ht : t.WellFormed) (h : Makes (fun _ => True) t u) {artifacts : List Artifact}
    (hup : ∀ a ∈ artifacts, .up ∉ a.path.steps) : pending u artifacts = artifacts.filter fun a => !a.isCurrent t := by
  induction artifacts generalizing u with
  | nil => rfl
  | cons a rest ih =>
    obtain ⟨ha, hrest⟩ := List.forall_mem_cons.1 hup
    rw [pending, isCurrent_of_makes ht h ha]
    cases hcurrent : a.isCurrent t with
    | true => rw [if_pos rfl, List.filter_cons_of_neg (by simp [hcurrent]), ih h hrest]
    | false =>
      have hmade := h.trans ((u.makes_createParents a.path).mono fun _ _ => trivial)
      rw [if_neg Bool.false_ne_true, List.filter_cons_of_pos (by simp [hcurrent]), ih hmade hrest]

/-! ## How a write ends -/

/-- The outcome of a write, with the number of artifacts that have been moved by then. -/
inductive Ends (t : FileTree) (artifacts : List Artifact) : Except Failure Written → Nat → Prop where
  /-- Every pending artifact was staged and moved. -/
  | done (hstageable : Stageable t 0 (pending t artifacts)) (h : Movable (withParents t (pending t artifacts)) 0 (pending t artifacts)) :
      Ends t artifacts (.ok ⟨(pending t artifacts).map path, (leftAlone t artifacts).map path⟩) (pending t artifacts).length
  /-- An artifact cannot be staged, those before it having been: the directories for it cannot be made, no file can be created next to its
  destination, or the device does not take all of its bytes. -/
  | staging {before after : List Artifact} {a : Artifact} {fault : DiskFault} (hpending : pending t artifacts = before ++ a :: after)
      (hbefore : Stageable t 0 before) (h : (withParents t before).CannotStage a.path before.length a.bytes fault) :
      Ends t artifacts (.error (.write a.path fault)) 0
  /-- An artifact that was staged cannot be moved to where its path leads, after those before it have been. -/
  | moving {moved after : List Artifact} {a : Artifact} {fault : DiskFault} (hpending : pending t artifacts = moved ++ a :: after)
      (hstageable : Stageable t 0 (pending t artifacts)) (hmoved : Movable (withParents t (pending t artifacts)) 0 moved)
      (h : (putAll (withParents t (pending t artifacts)) moved).CannotReplace a.path moved.length fault) :
      Ends t artifacts (.error (.write a.path fault)) moved.length

/-- The tree and the artifacts leave a single end of a write, with a single number of moved artifacts. -/
theorem Ends.unique {t : FileTree} {artifacts : List Artifact} {r r' : Except Failure Written} {j j' : Nat} (h : Ends t artifacts r j)
    (h' : Ends t artifacts r' j') : r = r' ∧ j = j' := by
  have hstaging : ∀ {before after a fault}, Stageable t 0 (before ++ a :: after) →
      ¬ (withParents t before).CannotStage a.path before.length a.bytes fault := by
    intro before after a fault hstageable
    have hcan := hstageable.canStage
    rw [Nat.zero_add] at hcan
    exact hcan.not_cannotStage
  have hmoving : ∀ {u : FileTree} {moved after a fault}, Movable u 0 (moved ++ a :: after) →
      ¬ (putAll u moved).CannotReplace a.path moved.length fault := by
    intro u moved after a fault hmovable
    have hcan := hmovable.canReplace
    rw [Nat.zero_add] at hcan
    exact hcan.not_cannotReplace
  cases h with
  | done hstageable hmovable =>
    cases h' with
    | done => exact ⟨rfl, rfl⟩
    | staging hpending' _ hfault' => exact absurd hfault' (hstaging (hpending' ▸ hstageable))
    | moving hpending' _ _ hfault' =>
      rw [hpending'] at hfault' hmovable
      exact absurd hfault' (hmoving hmovable)
  | staging hpending hbefore hfault =>
    cases h' with
    | done hstageable' => exact absurd hfault (hstaging (hpending ▸ hstageable'))
    | staging hpending' hbefore' hfault' =>
      obtain ⟨-, rfl, rfl⟩ := Outcome.eq_of_stops hstaging FileTree.CannotStage.unique (hpending.symm.trans hpending') hbefore hbefore' hfault
        hfault'
      exact ⟨rfl, rfl⟩
    | moving _ hstageable' => exact absurd hfault (hstaging (hpending ▸ hstageable'))
  | moving hpending hstageable hmoved hfault =>
    cases h' with
    | done _ hmovable' =>
      rw [hpending] at hfault hmovable'
      exact absurd hfault (hmoving hmovable')
    | staging hpending' _ hfault' => exact absurd hfault' (hstaging (hpending' ▸ hstageable))
    | moving hpending' _ hmoved' hfault' =>
      obtain ⟨rfl, rfl, rfl⟩ := Outcome.eq_of_stops hmoving FileTree.CannotReplace.unique (hpending.symm.trans hpending') hmoved hmoved' hfault
        hfault'
      exact ⟨rfl, rfl⟩

/-- What is known of a write: how it ended, that the directories for the first few pending artifacts have been made, all of them if it
succeeded, and that the tree afterwards is the one with these directories in which the moved artifacts have been put. -/
structure Course (t : FileTree) (artifacts : List Artifact) (r : Except Failure Written) (u : FileTree) (j : Nat) (made : List Artifact) :
    Prop where
  ends : Ends t artifacts r j
  part : made <+: pending t artifacts
  all : ∀ w, r = .ok w → made = pending t artifacts
  movable : Movable (withParents t made) 0 ((pending t artifacts).take j)
  start : u.start = t.start
  settled : ∀ p, u.at? p ≠ none → Given p
  at? : ∀ p, u.at? p = (putAll (withParents t made) ((pending t artifacts).take j)).at? p

/-- Once the staged files have been discarded the tree is the one seen without them. -/
theorem course_of_carries {t u : FileTree} {artifacts made : List Artifact} {r : Except Failure Written} {j : Nat}
    (hends : Ends t artifacts r j) (hpart : made <+: pending t artifacts) (hall : ∀ w, r = .ok w → made = pending t artifacts)
    (hmovable : Movable (withParents t made) 0 ((pending t artifacts).take j))
    (hcarries : Carries u (putAll (withParents t made) ((pending t artifacts).take j))) :
    Course t artifacts r u.discardStaged j made where
  ends := hends
  part := hpart
  all := hall
  movable := hmovable
  start := by rw [FileTree.start_discardStaged, hcarries.start, start_putAll, (makes_withParents t made).start]
  settled p hp := hcarries.settled p (hcarries.at?_discardStaged p ▸ hp)
  at? := hcarries.at?_discardStaged

/-- A write ends as staging and moving do, and then discards what is staged. -/
theorem result_write {t u : FileTree} {artifacts : List Artifact} {r : Except Failure Written}
    (h : (stageAndMove artifacts).result t = (r, u)) : (write artifacts).result t = (r, u.discardStaged) := by
  rw [write, Task.result_andThen, h]

/-- Staging ends as `StagingEnds` says, and when all pending artifacts are staged, moving them ends as `MovingEnds` says. -/
theorem course_write {t : FileTree} (ht : t.WellFormed) (artifacts : List Artifact) :
    ∃ j made, Course t artifacts (write artifacts t).1.outcome (write artifacts t).2 j made := by
  -- The temporary files go at the end either way, so it is enough to follow the work in front of that.
  suffices hresult : ∃ r u j made, (write artifacts).result t = (r, u) ∧ Course t artifacts r u j made by
    obtain ⟨r, u, j, made, hrun, hcourse⟩ := hresult
    obtain ⟨rfl, rfl⟩ := Prod.mk.inj hrun
    exact ⟨j, made, hcourse⟩
  obtain ⟨r, t₁, v, hstage, hends, hcarries, -, hway⟩ := stagingEnds_stageAll ht.carries 0 artifacts
  cases hends with
  | @refused before after a fault hpending hbefore hfault =>
    have hpart : before ++ [a] <+: pending t artifacts := by
      rw [hpending]
      exact ⟨after, by simp⟩
    rw [Nat.zero_add] at hfault
    refine ⟨_, _, 0, before ++ [a], result_write (Task.result_bind_of_error hstage),
      course_of_carries (.staging hpending hbefore hfault) hpart nofun trivial ?_⟩
    rwa [List.take_zero, putAll_nil]
  | @done s hstageable hstaged hunchanged =>
    have hstart : (withParents t (pending t artifacts)).start = t.start := (makes_withParents t _).start
    obtain ⟨r, t₂, v, j, hmove, hends, hcarries⟩ := movingEnds_moveAll hcarries (hstart ▸ hway s rfl)
    rw [hstaged] at hends
    cases hends with
    | done hmovable =>
      have hrun : (stageAndMove artifacts).result t =
          (.ok ⟨(pending t artifacts).map path, (leftAlone t artifacts).map path⟩, t₂) := by
        rw [stageAndMove, Task.result_bind_of_ok hstage, Task.result_bind_of_ok hmove, Task.result_pure, ← hstaged, ← hunchanged, List.map_map]
        rfl
      refine ⟨_, _, _, pending t artifacts, result_write hrun,
        course_of_carries (.done hstageable hmovable) List.prefix_rfl (fun _ _ => rfl) ?_ ?_⟩
      · rwa [List.take_length]
      · rwa [List.take_length]
    | @blocked moved after a fault hpending hmovable hfault =>
      have hrun : (stageAndMove artifacts).result t = (.error (.write a.path fault), t₂) := by
        rw [stageAndMove, Task.result_bind_of_ok hstage]
        exact Task.result_bind_of_error hmove
      -- The tree has what was moved in front of the blocked artifact, no more.
      have htake : (pending t artifacts).take moved.length = moved := by rw [hpending, List.take_left]
      rw [Nat.zero_add] at hfault
      refine ⟨_, _, _, pending t artifacts, result_write hrun,
        course_of_carries (.moving hpending hstageable hmovable hfault) List.prefix_rfl nofun ?_ ?_⟩
      · rwa [htake]
      · rwa [htake]

/-- What a write leaves of a tree when some of the pending artifacts have been moved. -/
structure Leaves (t : FileTree) (artifacts : List Artifact) (j : Nat) (u : FileTree) : Prop where
  start : u.start = t.start
  /-- The files are those from before, the moved artifacts being where their paths lead. -/
  files : u.fileAt? = overwrite t.start t.fileAt? ((pending t artifacts).take j)
  /-- Every directory is still there. -/
  kept : ∀ p, t.at? p = some .directory → u.at? p = some .directory
  /-- A directory that was added is one that the path of an artifact names before its last part. -/
  added : ∀ p, u.at? p = some .directory →
    t.at? p = some .directory ∨ t.at? p = none ∧ ∃ a ∈ artifacts, a.path.NamesParent t.start p
  /-- What is somewhere still lies in a directory. -/
  inside : ∀ n p, u.at? (n :: p) ≠ none → u.at? p = some .directory
  /-- No staged file is left. -/
  settled : ∀ p, u.at? p ≠ none → Given p

/-- The tree is well-formed again. -/
theorem Leaves.wellFormed {t u : FileTree} {artifacts : List Artifact} {j : Nat} (h : Leaves t artifacts j u) (ht : t.WellFormed) :
    u.WellFormed where
  inside := h.inside
  start := h.start ▸ h.kept _ ht.start
  settled := h.settled

/-- Making directories changes no file. -/
theorem fileAt?_withParents (t : FileTree) (made : List Artifact) : (withParents t made).fileAt? = t.fileAt? := by
  funext p
  have hmakes := makes_withParents t made
  refine Option.ext fun bytes => ?_
  rw [FileTree.fileAt?_eq_some_iff, FileTree.fileAt?_eq_some_iff]
  exact ⟨hmakes.at?_eq_file, hmakes.at?_eq_some⟩

/-- The parts of a tree after a write. -/
theorem Course.leaves {t u : FileTree} {artifacts made : List Artifact} {r : Except Failure Written} {j : Nat}
    (h : Course t artifacts r u j made) (ht : t.WellFormed) : Leaves t artifacts j u where
  start := h.start
  files := by
    rw [← fileAt?_withParents t made, ← (makes_withParents t made).start, ← h.movable.fileAt?]
    funext p
    rw [FileTree.fileAt?, FileTree.fileAt?, h.at?]
  kept p hp := by
    rw [h.at?, h.movable.at?_eq_directory]
    exact (makes_withParents t made).at?_eq_some hp
  added p hp := by
    rw [h.at?, h.movable.at?_eq_directory] at hp
    rcases (makes_withParents t made).at? p with heq | ⟨hnone, -, a, ha, hparent⟩
    · exact Or.inl (heq ▸ hp)
    · exact Or.inr ⟨hnone, a, mem_of_mem_pending (h.part.subset ha), hparent⟩
  inside n p hp := by
    rw [h.at?] at hp ⊢
    exact (h.movable.wellFormed ((makes_withParents t made).wellFormed ht)).inside n p hp
  settled := h.settled

/-- However a write ends, there is a number of pending artifacts so that the files afterwards are those from before with just the first
so many of them replaced: all of them when the write succeeds, none when one of them cannot be staged, and those before it when one of them
cannot be moved. The failure names the first such artifact. No staged file is left, and the directories added are parents that the paths name. The
pending artifacts are those that are not current when it is their turn, and, when no path goes up, those that are not current at first. -/
theorem write_replaces_first_pending {t : FileTree} (ht : t.WellFormed) (artifacts : List Artifact) :
    (∃ j, Ends t artifacts (write artifacts t).1.outcome j ∧ Leaves t artifacts j (write artifacts t).2) ∧
      ((∀ a ∈ artifacts, Path.Step.up ∉ a.path.steps) → pending t artifacts = artifacts.filter fun a => !a.isCurrent t) := by
  refine ⟨?_, pending_eq_filter ht .refl⟩
  obtain ⟨j, made, hcourse⟩ := course_write ht artifacts
  exact ⟨j, hcourse.ends, hcourse.leaves ht⟩

/-- A tree with an old file, and with a directory where another file is to go. -/
def blockedTree : FileTree := (({} : FileTree).set [.given "a.h"] (.file "old".toUTF8)).set [.given "b.h"] .directory

theorem wellFormed_blockedTree : blockedTree.WellFormed := by
  refine (FileTree.wellFormed_empty.set rfl fun h => ?_).set rfl fun _ => rfl
  cases h

/-- The third artifact goes where a directory is, so that the first two have been moved when the write fails. -/
theorem write_replaces_first_pending_blocked :
    let artifacts : List Artifact := [⟨⟨"a.h"⟩, "new"⟩, ⟨⟨"out/c.h"⟩, "c"⟩, ⟨⟨"b.h"⟩, "x"⟩]
    pending blockedTree artifacts = artifacts ∧ Ends blockedTree artifacts (write artifacts blockedTree).1.outcome 2 ∧
      Leaves blockedTree artifacts 2 (write artifacts blockedTree).2 := by
  intro artifacts
  obtain ⟨⟨j, hends, hleaves⟩, hpending⟩ := write_replaces_first_pending wellFormed_blockedTree artifacts
  have hall : pending blockedTree artifacts = artifacts := by
    rw [hpending (by decide +kernel)]
    decide +kernel
  have hfiles : ∀ p, ((write artifacts blockedTree).2.fileAt? p).isSome =
      (overwrite blockedTree.start blockedTree.fileAt? (artifacts.take j) p).isSome := by
    intro p
    rw [hleaves.files, hall]
  -- The second file is there and the third one is not, which leaves a single number of moved artifacts.
  have hsecond := hfiles [.given "c.h", .given "out"]
  have hthird := hfiles [.given "b.h"]
  have hcreated : ((write artifacts blockedTree).2.fileAt? [.given "c.h", .given "out"]).isSome = true := by decide +kernel
  have hblocked : ((write artifacts blockedTree).2.fileAt? [.given "b.h"]).isSome = false := by decide +kernel
  rw [hcreated] at hsecond
  rw [hblocked] at hthird
  have hj : j = 2 := by
    match j with
    | 0 => exact absurd hsecond (by decide +kernel)
    | 1 => exact absurd hsecond (by decide +kernel)
    | 2 => rfl
    | j + 3 => exact absurd hthird (by rw [List.take_of_length_le (Nat.le_add_left 3 j)]; decide +kernel)
  exact ⟨hall, hj ▸ hends, hj ▸ hleaves⟩

/-! ## What a failure leaves behind -/

/-- When the device does not take all the bytes of a pending artifact, the write fails although a file may have been created for it by
then. Every file is as it was, and nothing of the new one is left. -/
theorem write_of_writeFault {t : FileTree} (ht : t.WellFormed) {artifacts before after : List Artifact} {a : Artifact}
    (hpending : pending t artifacts = before ++ a :: after) {written : Nat} {fault : DeviceFault}
    (hdevice : t.device.writeFault? (a.path.staging t.start before.length) a.bytes = some (written, fault)) :
    (write artifacts t).1.outcome.isOk = false ∧ (write artifacts t).2.fileAt? = t.fileAt? ∧
      ∀ p, (write artifacts t).2.at? p ≠ none → Given p := by
  obtain ⟨j, made, hcourse⟩ := course_write ht artifacts
  have hleaves := hcourse.leaves ht
  have hends := hcourse.ends
  have hfiles := hleaves.files
  -- Both other ends have staged every pending artifact, whose bytes the device has then taken.
  have hstageable : ¬ Stageable t 0 (pending t artifacts) := by
    intro h
    rw [hpending] at h
    have hmakes := makes_withParents t before
    have hfilled := h.canStage.filled
    rw [hmakes.device, hmakes.start, Nat.zero_add, hdevice] at hfilled
    cases hfilled
  generalize (write artifacts t).1.outcome = r at hends
  cases hends with
  | done h => exact absurd h hstageable
  | moving _ h => exact absurd h hstageable
  | staging => exact ⟨rfl, hfiles, hleaves.settled⟩

/-- A device with room for one byte of every file. -/
def tinyTree : FileTree := { blockedTree with device := { writeFault? := fun _ bytes => if bytes.size ≤ 1 then none else some (1, .full) } }

/-- The second artifact does not fit: the first one, which has been staged by then, is not moved either. -/
example :
    let r := write [⟨⟨"c.h"⟩, "c"⟩, ⟨⟨"a.h"⟩, "new"⟩] tinyTree
    r.1.outcome.isOk = false ∧ r.2.entries.map (·.1.2) = [[.given "b.h"], [.given "a.h"]] ∧
      (r.2.fileAt? [.given "a.h"]).map (·.data.toList) = some "old".toUTF8.data.toList := by
  decide +kernel

/-- An artifact that has been moved and was not current before, and whose path never goes up, has another file than before. -/
theorem fileAt?_ne_of_movable {t : FileTree} (ht : t.WellFormed) {made moved : List Artifact} {a : Artifact}
    (h : Movable (withParents t made) 0 (a :: moved)) (hup : .up ∉ a.path.steps) (hcurrent : a.isCurrent t = false) :
    t.fileAt? (a.path.place t.start) ≠ some a.bytes := by
  intro hfile
  have hmakes := makes_withParents t made
  have hread : (withParents t made).readBytes a.path = .ok a.bytes := by
    refine FileTree.readBytes_eq_ok h.1.admits.resolves ?_
    rw [fileAt?_withParents, hmakes.start, hfile]
  rw [← isCurrent_of_makes ht hmakes hup, isCurrent_iff.2 hread] at hcurrent
  cases hcurrent

/-- A failed write that was to put files in different places has replaced just the first few pending ones. So every destination is as it
was, unless it failed when an artifact had been moved already; then some destinations hold the new bytes and the others what they held. -/
theorem failed_write_keeps_destinations_iff {t : FileTree} (ht : t.WellFormed) {artifacts : List Artifact}
    (hapart : artifacts.Pairwise fun a b => a.path.place t.start ≠ b.path.place t.start) {f : Failure}
    (hfailed : (write artifacts t).1.outcome = .error f) :
    ∃ j, Ends t artifacts (.error f) j ∧ j < (pending t artifacts).length ∧
      (∀ a ∈ (pending t artifacts).take j, (write artifacts t).2.fileAt? (a.path.place t.start) = some a.bytes) ∧
      (∀ p, (∀ a ∈ (pending t artifacts).take j, p ≠ a.path.place t.start) → (write artifacts t).2.fileAt? p = t.fileAt? p) ∧
      ((∀ a ∈ artifacts, Path.Step.up ∉ a.path.steps) →
        ((∀ a ∈ artifacts, (write artifacts t).2.fileAt? (a.path.place t.start) = t.fileAt? (a.path.place t.start)) ↔ j = 0)) := by
  obtain ⟨j, made, hcourse⟩ := course_write ht artifacts
  have hends := hcourse.ends
  have hapart' : ((pending t artifacts).take j).Pairwise fun a b => a.path.place t.start ≠ b.path.place t.start :=
    hapart.sublist ((List.take_sublist _ _).trans (pending_sublist t artifacts))
  rw [hfailed] at hends
  rw [(hcourse.leaves ht).files]
  have hlt : j < (pending t artifacts).length := by
    cases hends with
    | staging hpending =>
      rw [hpending, List.length_append, List.length_cons]
      omega
    | moving hpending =>
      rw [hpending, List.length_append, List.length_cons]
      omega
  refine ⟨j, hends, hlt, fun a ha => overwrite_of_mem hapart' ha, fun p hp => overwrite_of_ne hp, fun hup => ⟨fun hsame => ?_, ?_⟩⟩
  · by_contra hj
    -- If something was moved, the first moved artifact was pending, so its destination has changed.
    obtain ⟨a, moved, htake⟩ : ∃ a moved, (pending t artifacts).take j = a :: moved := by
      refine List.exists_cons_of_ne_nil fun hnil => ?_
      rcases List.take_eq_nil_iff.1 hnil with h | h
      · exact hj h
      · simp [h] at hlt
    have ha : a ∈ pending t artifacts := List.mem_of_mem_take (i := j) (by rw [htake]; exact List.mem_cons_self)
    have hartifact := mem_of_mem_pending ha
    rw [pending_eq_filter ht .refl hup, List.mem_filter, Bool.not_eq_true'] at ha
    refine fileAt?_ne_of_movable ht (htake ▸ hcourse.movable) (hup a hartifact) ha.2 ?_
    rw [← hsame a hartifact]
    exact overwrite_of_mem hapart' (by rw [htake]; exact List.mem_cons_self)
  · rintro rfl
    exact fun _ _ => rfl

/-- The second artifact goes where a directory is: the first one has its new bytes when the write fails, the second one is not there. -/
theorem failed_write_keeps_destinations_blocked :
    let artifacts : List Artifact := [⟨⟨"a.h"⟩, "new"⟩, ⟨⟨"b.h"⟩, "x"⟩]
    ∃ f, (write artifacts blockedTree).1.outcome = .error f ∧ Ends blockedTree artifacts (.error f) 1 ∧
      (write artifacts blockedTree).2.fileAt? [.given "a.h"] ≠ blockedTree.fileAt? [.given "a.h"] := by
  intro artifacts
  obtain ⟨f, hf⟩ : ∃ f, (write artifacts blockedTree).1.outcome = .error f := Outcome.isOk_eq_false_iff.1 (by decide +kernel)
  have hup : ∀ a ∈ artifacts, Path.Step.up ∉ a.path.steps := by decide +kernel
  obtain ⟨j, hends, hlt, -, -, hkeeps⟩ := failed_write_keeps_destinations_iff wellFormed_blockedTree (by decide +kernel) hf
  have hbytes : ((write artifacts blockedTree).2.fileAt? [.given "a.h"]).map (·.data.toList) ≠
      (blockedTree.fileAt? [.given "a.h"]).map (·.data.toList) := by decide +kernel
  have hchanged : (write artifacts blockedTree).2.fileAt? [.given "a.h"] ≠ blockedTree.fileAt? [.given "a.h"] :=
    fun heq => hbytes (by rw [heq])
  have hlength : (pending blockedTree artifacts).length ≤ artifacts.length := (pending_sublist blockedTree artifacts).length_le
  have hj : j = 1 := by
    have hpositive : j ≠ 0 := by
      intro h
      have hkept := (hkeeps hup).2 h ⟨⟨"a.h"⟩, "new"⟩ List.mem_cons_self
      have hplace : Path.place blockedTree.start ⟨"a.h"⟩ = [.given "a.h"] := by decide +kernel
      rw [hplace] at hkept
      exact hchanged hkept
    have htwo : artifacts.length = 2 := rfl
    omega
  exact ⟨f, hf, hj ▸ hends, hchanged⟩

/-- A write that fails can have replaced a file, even when the artifacts go to different places. -/
theorem failed_write_replaces_destination :
    ¬ ∀ (t : FileTree) (artifacts : List Artifact), t.WellFormed →
      (artifacts.Pairwise fun a b => a.path.place t.start ≠ b.path.place t.start) → (write artifacts t).1.outcome.isOk = false →
        ∀ a ∈ artifacts, (write artifacts t).2.fileAt? (a.path.place t.start) = t.fileAt? (a.path.place t.start) := by
  intro hpromise
  have hkept := hpromise _ [⟨⟨"a.h"⟩, "new"⟩, ⟨⟨"b.h"⟩, "x"⟩] wellFormed_blockedTree (by decide +kernel) (by decide +kernel)
    ⟨⟨"a.h"⟩, "new"⟩ List.mem_cons_self
  have hbytes := congrArg (Option.map fun b : ByteArray => b.data.toList) hkept
  exact absurd hbytes (by decide +kernel)

end Artifact

end DeviceCatalog
