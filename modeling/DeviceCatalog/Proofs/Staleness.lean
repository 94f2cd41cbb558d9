import DeviceCatalog.Proofs.CurrentArtifacts
import Mathlib.Data.List.Forall2

/-!
# What is stale

A check looks at all artifacts in one tree. A write looks at each of them when it is its turn; by then directories have been made for those
before it and their files are staged. When no path goes up this makes no difference: a write leaves alone what a check does not list and
writes the rest, and its reports say so, also when it fails on the way.
-/

namespace DeviceCatalog

namespace Task

variable {α β : Type}

theorem notices_note (n : Notice) (t : FileTree) : (note n t).1.notices = [n] := rfl

theorem notices_inspect (f : FileTree → α) (t : FileTree) : (inspect f t).1.notices = [] := rfl

theorem notices_attempt (restate : DiskFault → Failure) (f : FileTree → Except DiskFault α × FileTree) (t : FileTree) :
    (attempt restate f t).1.notices = [] := by
  unfold attempt
  rcases f t with ⟨r, u⟩
  cases r <;> rfl

theorem notices_attemptChange (restate : DiskFault → Failure) (f : FileTree → Except DiskFault FileTree) (t : FileTree) :
    (attemptChange restate f t).1.notices = [] := by
  unfold attemptChange
  cases f t <;> rfl

/-- After a step that gives a value the next one reports, too. -/
theorem notices_bind_of_ok {x : Task α} {f : α → Task β} {t u : FileTree} {a : α} (h : x.result t = (.ok a, u)) :
    ((x >>= f) t).1.notices = (x t).1.notices ++ (f a u).1.notices := by
  show (bind x f t).1.notices = _
  unfold result at h
  rcases hx : x t with ⟨⟨ns, r⟩, u'⟩
  rw [hx] at h
  cases h
  rw [bind, hx]

/-- After a step that fails nothing is reported. -/
theorem notices_bind_of_error {x : Task α} {f : α → Task β} {t u : FileTree} {e : Failure} (h : x.result t = (.error e, u)) :
    ((x >>= f) t).1.notices = (x t).1.notices := by
  show (bind x f t).1.notices = _
  unfold result at h
  rcases hx : x t with ⟨⟨ns, r⟩, u'⟩
  rw [hx] at h
  cases h
  rw [bind, hx]

/-- A last step that only makes something of a value reports nothing. -/
theorem notices_bind_pure (x : Task α) (f : α → β) (t : FileTree) : ((x >>= fun a => pure (f a)) t).1.notices = (x t).1.notices := by
  rcases hx : x.result t with ⟨r, u⟩
  cases r with
  | ok a => exact (notices_bind_of_ok hx).trans (List.append_nil _)
  | error e => exact notices_bind_of_error hx

end Task

namespace FileTree

/-- The path leads to an entry. -/
def LeadsTo (t : FileTree) (path : Path) (e : FileEntry) : Prop := ∃ p, t.resolve path = .ok p ∧ t.at? p = some e

/-- A path leads to one entry at most. -/
theorem LeadsTo.unique {t : FileTree} {path : Path} {e e' : FileEntry} (h : t.LeadsTo path e) (h' : t.LeadsTo path e') : e = e' := by
  obtain ⟨p, hp, he⟩ := h
  obtain ⟨p', hp', he'⟩ := h'
  cases hp.symm.trans hp'
  exact Option.some.inj (he.symm.trans he')

/-- Something is where a path leads when there is an entry. -/
theorem exists?_eq_true_iff {t : FileTree} {path : Path} : t.exists? path = true ↔ ∃ e, t.LeadsTo path e := by
  unfold exists? LeadsTo
  cases hp : t.resolve path with
  | error fault => simp
  | ok p => simp [Option.isSome_iff_exists]

end FileTree

namespace Artifact

open FileTree (Carries)

/-! ## How a file differs -/

/-- An artifact is current when its path leads to a file with its bytes. -/
theorem isCurrent_iff_leadsTo {t : FileTree} {a : Artifact} : a.isCurrent t = true ↔ t.LeadsTo a.path (.file a.bytes) :=
  isCurrent_iff.trans FileTree.readBytes_eq_ok_iff

/-- An artifact is missing when its path leads nowhere. -/
theorem staleness?_eq_missing_iff {t : FileTree} {a : Artifact} : staleness? t a = some .missing ↔ ∀ e, ¬ t.LeadsTo a.path e := by
  rw [← not_exists, ← FileTree.exists?_eq_true_iff]
  unfold staleness?
  cases t.exists? a.path with
  | true => cases a.isCurrent t <;> simp
  | false => simp

/-- An artifact is outdated when its path leads to something else than a file with its bytes. -/
theorem staleness?_eq_outdated_iff {t : FileTree} {a : Artifact} :
    staleness? t a = some .outdated ↔ ∃ e, t.LeadsTo a.path e ∧ e ≠ .file a.bytes := by
  have hstale : staleness? t a = some .outdated ↔ t.exists? a.path = true ∧ a.isCurrent t ≠ true := by
    unfold staleness?
    cases t.exists? a.path <;> cases a.isCurrent t <;> simp
  rw [hstale, FileTree.exists?_eq_true_iff, Ne, isCurrent_iff_leadsTo]
  constructor
  · rintro ⟨⟨e, he⟩, hne⟩
    exact ⟨e, he, fun heq => hne (heq ▸ he)⟩
  · rintro ⟨e, he, hne⟩
    exact ⟨⟨e, he⟩, fun hfile => hne (he.unique hfile)⟩

/-- The artifacts that differ from their files in a tree. -/
def stale (t : FileTree) (artifacts : List Artifact) : List Artifact := artifacts.filter fun a => (staleness? t a).isSome

/-- The artifacts that do not differ from their files in a tree. -/
def fresh (t : FileTree) (artifacts : List Artifact) : List Artifact := artifacts.filter fun a => (staleness? t a).isNone

theorem isNone_staleness? (t : FileTree) (a : Artifact) : (staleness? t a).isNone = a.isCurrent t := by
  rw [Bool.eq_iff_iff, Option.isNone_iff_eq_none, staleness?_eq_none_iff]

theorem isSome_staleness? (t : FileTree) (a : Artifact) : (staleness? t a).isSome = !a.isCurrent t := by
  rw [← isNone_staleness?, Option.not_isNone]

/-- An entry of a check names the path of an artifact and how it differs. -/
def Lists (t : FileTree) (entry : Path × Staleness) (a : Artifact) : Prop := entry.1 = a.path ∧ staleness? t a = some entry.2

/-- A check lists the stale artifacts in order. -/
theorem forall₂_lists_check (t : FileTree) (artifacts : List Artifact) :
    List.Forall₂ (Lists t) (check t artifacts) (stale t artifacts) := by
  unfold check stale
  induction artifacts with
  | nil => exact .nil
  | cons a rest ih =>
    cases hstale : staleness? t a with
    | none =>
      rw [List.filterMap_cons_none (by rw [hstale]; rfl), List.filter_cons_of_neg (by simp [hstale])]
      exact ih
    | some s =>
      rw [List.filterMap_cons_some (by rw [hstale]; rfl), List.filter_cons_of_pos (by simp [hstale])]
      exact .cons ⟨rfl, hstale⟩ ih

/-- The paths that a check lists are those of the stale artifacts, in order. -/
theorem map_fst_check (t : FileTree) (artifacts : List Artifact) : (check t artifacts).map Prod.fst = (stale t artifacts).map path := by
  have hlists := forall₂_lists_check t artifacts
  rw [← List.forall₂_eq_eq_eq, List.forall₂_map_left_iff, List.forall₂_map_right_iff]
  exact hlists.imp fun _ _ h => h.1

/-! ## What is left alone -/

/-- When no path goes up, the artifacts left alone are those that are current before anything is done. -/
theorem leftAlone_eq_filter {t u : FileTree} (ht : t.WellFormed) (h : FileTree.Makes (fun _ => True) t u) {artifacts : List Artifact}
    (hup : ∀ a ∈ artifacts, .up ∉ a.path.steps) : leftAlone u artifacts = artifacts.filter fun a => a.isCurrent t := by
  induction artifacts generalizing u with
  | nil => rfl
  | cons a rest ih =>
    obtain ⟨ha, hrest⟩ := List.forall_mem_cons.1 hup
    rw [leftAlone, isCurrent_of_makes ht h ha]
    cases hcurrent : a.isCurrent t with
    | true => rw [if_pos rfl, List.filter_cons_of_pos hcurrent, ih h hrest]
    | false =>
      have hmade := h.trans ((u.makes_createParents a.path).mono fun _ _ => trivial)
      rw [if_neg Bool.false_ne_true, List.filter_cons_of_neg (by simp [hcurrent]), ih hmade hrest]

/-- When no path goes up, what is left alone is what is not stale. -/
theorem leftAlone_eq_fresh {t : FileTree} (ht : t.WellFormed) {artifacts : List Artifact} (hup : ∀ a ∈ artifacts, .up ∉ a.path.steps) :
    leftAlone t artifacts = fresh t artifacts :=
  (leftAlone_eq_filter ht .refl hup).trans (List.filter_congr fun a _ => (isNone_staleness? t a).symm)

/-- When no path goes up, what is pending is what is stale. -/
theorem pending_eq_stale {t : FileTree} (ht : t.WellFormed) {artifacts : List Artifact} (hup : ∀ a ∈ artifacts, .up ∉ a.path.steps) :
    pending t artifacts = stale t artifacts :=
  (pending_eq_filter ht .refl hup).trans (List.filter_congr fun a _ => (isSome_staleness? t a).symm)

/-! ## What is reported -/

/-- The reports of artifacts that are left alone. -/
def upToDateNotices (artifacts : List Artifact) : List Notice := artifacts.map fun a => .upToDate a.path

/-- The reports of artifacts that have been moved into place. -/
def wroteNotices (artifacts : List Artifact) : List Notice := artifacts.map fun a => .wrote a.path

theorem notices_stage (n : Nat) (a : Artifact) (t : FileTree) : (stage n a t).1.notices = [] := by
  rcases hresult : (Task.attempt (.write a.path) fun t => t.stagedPlace a.path n).result t with ⟨r, u⟩
  unfold stage
  cases r with
  | error e => rw [Task.notices_bind_of_error hresult, Task.notices_attempt]
  | ok p =>
    rw [Task.notices_bind_of_ok hresult, Task.notices_attempt, List.nil_append, Task.notices_bind_pure, Task.notices_attempt]

/-- An artifact that is current is the first one reported. -/
theorem notices_stageAll_current {t : FileTree} {a : Artifact} {rest : List Artifact} (n : Nat) (h : a.isCurrent t = true) :
    (stageAll n (a :: rest) t).1.notices = .upToDate a.path :: (stageAll n rest t).1.notices := by
  rw [stageAll, Task.notices_bind_of_ok (Task.result_inspect _ t), Task.notices_inspect, List.nil_append, if_pos h,
    Task.notices_bind_of_ok (Task.result_note _ t), Task.notices_note, Task.notices_bind_pure, List.singleton_append]

/-- An artifact that is not current is staged without a report. -/
theorem notices_stageAll_pending {t : FileTree} {a : Artifact} {rest : List Artifact} (n : Nat) (h : a.isCurrent t = false) :
    (stageAll n (a :: rest) t).1.notices =
      ((stage n a >>= fun p => stageAll (n + 1) rest >>= fun s => pure { s with staged := (a, p) :: s.staged }) t).1.notices := by
  rw [stageAll, Task.notices_bind_of_ok (Task.result_inspect _ t), Task.notices_inspect, List.nil_append, if_neg (Bool.eq_false_iff.1 h)]

/-- Where staging stops: behind the last artifact, or at one that is not current and cannot be staged. -/
inductive StagingStops (u : FileTree) (seen : List Artifact) : List Artifact → Except Failure Staging → Prop where
  | done (s : Staging) : StagingStops u seen [] (.ok s)
  | refused {a : Artifact} {after : List Artifact} {fault : DiskFault} (h : a.isCurrent (withParents u (pending u seen)) = false) :
      StagingStops u seen (a :: after) (.error (.write a.path fault))

/-- An artifact in front does not change where staging stops, if the directories for it are there. -/
theorem StagingStops.cons {u v : FileTree} {a : Artifact} {seen rest : List Artifact} {r : Except Failure Staging} (f : Staging → Staging)
    (hparents : withParents u (pending u (a :: seen)) = withParents v (pending v seen)) (h : StagingStops v seen rest r) :
    StagingStops u (a :: seen) rest (r.map f) := by
  cases h with
  | done s => exact .done (f s)
  | refused h => exact .refused (hparents ▸ h)

/-- Staging goes through the artifacts in order until it stops, and reports those that it leaves alone. -/
theorem notices_stageAll {t u : FileTree} (h : Carries t u) (n : Nat) (artifacts : List Artifact) :
    ∃ seen rest r t', artifacts = seen ++ rest ∧ (stageAll n artifacts).result t = (r, t') ∧
      (stageAll n artifacts t).1.notices = upToDateNotices (leftAlone u seen) ∧ StagingStops u seen rest r := by
  induction artifacts generalizing n t u with
  | nil => exact ⟨[], [], _, _, rfl, rfl, rfl, .done _⟩
  | cons a rest ih =>
    cases hcurrent : a.isCurrent t with
    | true =>
      have hu : a.isCurrent u = true := isCurrent_carries h a ▸ hcurrent
      obtain ⟨seen, rest, r, t', rfl, hr, hnotices, hstops⟩ := ih h n
      rw [result_stageAll_current n hcurrent, notices_stageAll_current n hcurrent, hnotices]
      refine ⟨a :: seen, rest, _, t', rfl, Task.result_bind_pure _ hr, ?_, hstops.cons _ (by rw [pending, if_pos hu])⟩
      rw [leftAlone, if_pos hu]
      rfl
    | false =>
      have hu : ¬ a.isCurrent u = true := Bool.eq_false_iff.1 (isCurrent_carries h a ▸ hcurrent)
      rw [result_stageAll_pending n hcurrent, notices_stageAll_pending n hcurrent]
      obtain ⟨r, t₁, hstage, hparents, -, hrefused | hstaged⟩ := result_stage_cases h a n
      · obtain ⟨fault, -, rfl⟩ := hrefused
        refine ⟨[], a :: rest, _, t₁, rfl, Task.result_bind_of_error hstage, ?_, .refused (Bool.eq_false_iff.2 hu)⟩
        rw [Task.notices_bind_of_error hstage, notices_stage]
        rfl
      · obtain ⟨-, rfl, -⟩ := hstaged
        obtain ⟨seen, rest, r, t', rfl, hr, hnotices, hstops⟩ := ih hparents (n + 1)
        rw [Task.result_bind_of_ok hstage, Task.notices_bind_of_ok hstage, notices_stage, Task.notices_bind_pure, hnotices]
        refine ⟨a :: seen, rest, _, t', rfl, Task.result_bind_pure _ hr, ?_, hstops.cons _ (by rw [pending, if_neg hu, withParents_cons])⟩
        rw [leftAlone, if_neg hu, List.nil_append]

/-- Moving goes through the staged artifacts in order, up to the end or to one that cannot be moved, and reports those that it moves. -/
theorem notices_moveAll (t : FileTree) (staged : List (Artifact × Place)) :
    ∃ moved rest r t', staged = moved ++ rest ∧ (moveAll staged).result t = (r, t') ∧
      (moveAll staged t).1.notices = wroteNotices (moved.map Prod.fst) ∧
      (rest = [] ∧ r = .ok () ∨ ∃ x after fault, rest = x :: after ∧ r = .error (.write x.1.path fault)) := by
  induction staged generalizing t with
  | nil => exact ⟨[], [], _, _, rfl, rfl, rfl, Or.inl ⟨rfl, rfl⟩⟩
  | cons x staged ih =>
    obtain ⟨a, p⟩ := x
    cases hmove : t.move p a.path with
    | error fault =>
      rw [result_moveAll_of_error hmove]
      refine ⟨[], (a, p) :: staged, _, _, rfl, rfl, ?_, Or.inr ⟨_, _, fault, rfl, rfl⟩⟩
      rw [moveAll, Task.notices_bind_of_error (Task.result_attemptChange_of_error hmove), Task.notices_attemptChange]
      rfl
    | ok t₁ =>
      obtain ⟨moved, rest, r, t', rfl, hr, hnotices, hend⟩ := ih t₁
      rw [result_moveAll_of_ok hmove]
      refine ⟨(a, p) :: moved, rest, r, t', rfl, hr, ?_, hend⟩
      rw [moveAll, Task.notices_bind_of_ok (Task.result_attemptChange_of_ok hmove), Task.notices_attemptChange, List.nil_append,
        Task.notices_bind_of_ok (Task.result_note _ t₁), Task.notices_note, hnotices]
      rfl

/-- How a write ends, and what it has reported by then, when what is stale in the given tree decides. -/
inductive Reports (t : FileTree) (artifacts : List Artifact) : Except Failure Written → List Notice → Prop where
  /-- What is not stale is left alone, then what is stale is written. -/
  | done : Reports t artifacts (.ok ⟨(stale t artifacts).map path, (fresh t artifacts).map path⟩)
      (upToDateNotices (fresh t artifacts) ++ wroteNotices (stale t artifacts))
  /-- A stale artifact cannot be staged: what is not stale in front of it is left alone. -/
  | staging {seen after : List Artifact} {a : Artifact} {fault : DiskFault} (h : artifacts = seen ++ a :: after)
      (hstale : (staleness? t a).isSome = true) : Reports t artifacts (.error (.write a.path fault)) (upToDateNotices (fresh t seen))
  /-- A stale artifact cannot be moved into place: the stale ones in front of it are written. -/
  | moving {moved after : List Artifact} {a : Artifact} {fault : DiskFault} (h : stale t artifacts = moved ++ a :: after) :
      Reports t artifacts (.error (.write a.path fault)) (upToDateNotices (fresh t artifacts) ++ wroteNotices moved)

/-- When what is stale is staged and the rest is left alone, moving ends the write and reports what it moves. -/
theorem reports_moveAll {t : FileTree} {artifacts : List Artifact} {s : Staging} (hstaged : s.staged.map Prod.fst = stale t artifacts)
    (hunchanged : s.unchanged = (fresh t artifacts).map path) (u : FileTree) :
    Reports t artifacts ((moveAll s.staged >>= fun _ => pure (⟨s.staged.map fun x => x.1.path, s.unchanged⟩ : Written)).result u).1
      (upToDateNotices (fresh t artifacts) ++ (moveAll s.staged u).1.notices) := by
  obtain ⟨moved, rest, r, t', hmoved, hmove, hwrote, ⟨rfl, rfl⟩ | ⟨x, after, fault, rfl, rfl⟩⟩ := notices_moveAll u s.staged
  · rw [List.append_nil] at hmoved
    subst hmoved
    have hpaths : (s.staged.map fun x => x.1.path) = (stale t artifacts).map path := by
      rw [← hstaged, List.map_map]
      rfl
    rw [Task.result_bind_of_ok hmove, Task.result_pure, hwrote, hstaged, hpaths, hunchanged]
    exact .done
  · have hblocked : stale t artifacts = moved.map Prod.fst ++ x.1 :: after.map Prod.fst := by
      rw [← hstaged, hmoved, List.map_append, List.map_cons]
    rw [Task.result_bind_of_error hmove, hwrote]
    exact .moving hblocked

/-- A write goes by what is stale before anything is done, and reports accordingly. -/
theorem reports_write {t : FileTree} (ht : t.WellFormed) {artifacts : List Artifact} (hup : ∀ a ∈ artifacts, .up ∉ a.path.steps) :
    Reports t artifacts (write artifacts t).1.outcome (write artifacts t).1.notices := by
  obtain ⟨seen, rest, r, u, hsplit, hstage, hnotices, hstops⟩ := notices_stageAll ht.carries 0 artifacts
  have hseen : ∀ a ∈ seen, .up ∉ a.path.steps := fun a ha => hup a (hsplit ▸ List.mem_append_left _ ha)
  rw [leftAlone_eq_fresh ht hseen] at hnotices
  show Reports t artifacts ((stageAndMove artifacts).result t).1 (stageAndMove artifacts t).1.notices
  unfold stageAndMove
  cases hstops with
  | @refused a after fault hcurrent =>
    rw [Task.result_bind_of_error hstage, Task.notices_bind_of_error hstage, hnotices]
    refine .staging hsplit ?_
    rw [isCurrent_of_makes ht (makes_withParents t _) (hup a (hsplit ▸ List.mem_append_right _ List.mem_cons_self))] at hcurrent
    rw [isSome_staleness?, hcurrent, Bool.not_false]
  | done s =>
    obtain ⟨r, u', v, hstage', hends, -⟩ := stagingEnds_stageAll ht.carries 0 artifacts
    cases hstage'.symm.trans hstage
    cases hends with
    | done _ hstaged hunchanged =>
      rw [pending_eq_stale ht hup] at hstaged
      rw [leftAlone_eq_fresh ht hup] at hunchanged
      rw [List.append_nil] at hsplit
      rw [← hsplit] at hnotices
      rw [Task.result_bind_of_ok hstage, Task.notices_bind_of_ok hstage, hnotices, Task.notices_bind_pure]
      exact reports_moveAll hstaged hunchanged u

/-- When no path goes up, a check and a write agree on what is stale. The check lists the stale artifacts in order, missing when their
path leads nowhere and outdated when it leads to something else than a file with their bytes. The write reports as up to date the others
and no stale one, as far as it comes; when it succeeds, it has written what the check lists and left alone the rest, both in order. -/
theorem check_agrees_with_write {t : FileTree} (ht : t.WellFormed) {artifacts : List Artifact}
    (hup : ∀ a ∈ artifacts, Path.Step.up ∉ a.path.steps) :
    (∀ a ∈ artifacts, (staleness? t a = some .missing ↔ ∀ e, ¬ t.LeadsTo a.path e) ∧
      (staleness? t a = some .outdated ↔ ∃ e, t.LeadsTo a.path e ∧ e ≠ .file a.bytes)) ∧
      List.Forall₂ (Lists t) (check t artifacts) (stale t artifacts) ∧
      Reports t artifacts (write artifacts t).1.outcome (write artifacts t).1.notices ∧
      ∀ w, (write artifacts t).1.outcome = .ok w →
        w.written = (check t artifacts).map Prod.fst ∧ w.unchanged = (fresh t artifacts).map path := by
  have hreports := reports_write ht hup
  refine ⟨fun a _ => ⟨staleness?_eq_missing_iff, staleness?_eq_outdated_iff⟩, forall₂_lists_check t artifacts, hreports, fun w hw => ?_⟩
  rw [hw] at hreports
  generalize (write artifacts t).1.notices = notices at hreports
  cases hreports
  exact ⟨(map_fst_check t artifacts).symm, rfl⟩

/-- Two artifacts share a path, whose file holds the text of the second one; the third one has no file. A write leaves just the second one
alone, although the file at its path has the text of the first one afterwards. -/
theorem check_agrees_with_write_shared_path :
    let t := ({} : FileTree).set [.given "a.h"] (.file "new".toUTF8)
    let artifacts : List Artifact := [⟨⟨"a.h"⟩, "old"⟩, ⟨⟨"./a.h"⟩, "new"⟩, ⟨⟨"out/c.h"⟩, "c"⟩]
    check t artifacts = [(⟨"a.h"⟩, .outdated), (⟨"out/c.h"⟩, .missing)] ∧
      (∃ e, t.LeadsTo ⟨"a.h"⟩ e ∧ e ≠ .file "old".toUTF8) ∧ (∀ e, ¬ t.LeadsTo ⟨"out/c.h"⟩ e) ∧
      ∃ w, (write artifacts t).1.outcome = .ok w ∧ w.written = [⟨"a.h"⟩, ⟨"out/c.h"⟩] ∧ w.unchanged = [⟨"./a.h"⟩] := by
  intro t artifacts
  have ht : t.WellFormed := by
    refine FileTree.wellFormed_empty.set rfl fun h => ?_
    cases h
  have hup : ∀ a ∈ artifacts, Path.Step.up ∉ a.path.steps := by decide +kernel
  obtain ⟨hkinds, -, -, hdone⟩ := check_agrees_with_write ht hup
  obtain ⟨w, hw⟩ : ∃ w, (write artifacts t).1.outcome = .ok w := Outcome.isOk_eq_true_iff.1 (by decide +kernel)
  obtain ⟨hwritten, hunchanged⟩ := hdone w hw
  have hcheck : check t artifacts = [(⟨"a.h"⟩, .outdated), (⟨"out/c.h"⟩, .missing)] := by decide +kernel
  have hfresh : (fresh t artifacts).map path = [⟨"./a.h"⟩] := by decide +kernel
  have hfirst := (hkinds ⟨⟨"a.h"⟩, "old"⟩ List.mem_cons_self).2.1 (by decide +kernel)
  have hlast := (hkinds ⟨⟨"out/c.h"⟩, "c"⟩ (by decide +kernel)).1.1 (by decide +kernel)
  refine ⟨hcheck, hfirst, hlast, w, hw, ?_, hunchanged.trans hfresh⟩
  rw [hwritten, hcheck]
  rfl

end Artifact

end DeviceCatalog
