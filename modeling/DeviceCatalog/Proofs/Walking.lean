import DeviceCatalog.FileTree
import DeviceCatalog.Proofs.FirstFailure
import Mathlib.Data.List.Induction

/-!
# Walking a file tree

A walk passes through directories and ends where its steps lead, so the place a path names follows from the path and the start alone. A
tree with more directories lets a walk through that another tree lets through, and one without steps upwards can only end at something
that is there when everything around it is there.
-/

namespace DeviceCatalog

namespace Path

/-- The place one step away, whatever is there. -/
def Step.land (p : Place) : Step → Place
  | .stay => p
  | .up => p.tail
  | .down name => .given name :: p

/-- The place behind some steps. -/
def land (p : Place) (steps : List Step) : Place := steps.foldl Step.land p

/-- Where the steps of a path begin. -/
def base (start : Place) (path : Path) : Place := if path.absolute then [] else start

/-- The place that a path names, relative paths being read from the start. -/
def place (start : Place) (path : Path) : Place := land (path.base start) path.steps

/-- The step can be taken as far as its name goes. -/
def Step.Short : Step → Prop
  | .down name => name.utf8ByteSize ≤ FileTree.nameLimit
  | _ => True

/-- The steps that move, without those that stay. -/
def moves (path : Path) : List Step := path.steps.filter (· ≠ .stay)

@[simp] theorem land_nil (p : Place) : land p [] = p := rfl

@[simp] theorem land_cons (p : Place) (s : Step) (steps : List Step) : land p (s :: steps) = land (s.land p) steps := rfl

/-- Steps one behind the other lead where the second ones lead from where the first ones do. -/
theorem land_append (p : Place) (before after : List Step) : land p (before ++ after) = land (land p before) after :=
  List.foldl_append

/-- Staying leads nowhere else. -/
theorem land_filter (p : Place) (steps : List Step) : land p (steps.filter (· ≠ .stay)) = land p steps := by
  induction steps generalizing p with
  | nil => rfl
  | cons s steps ih =>
    by_cases hs : s = .stay
    · subst hs
      rw [List.filter_cons_of_neg (by simp), ih, land_cons]
      rfl
    · rw [List.filter_cons_of_pos (by simpa using hs), land_cons, land_cons, ih]

end Path

/-- Every name on the way to the place was given by somebody; no file on its way to its destination is there. -/
def Given (p : Place) : Prop := ∀ n, FileName.staged n ∉ p

@[simp] theorem given_nil : Given [] := fun _ => List.not_mem_nil

theorem Given.cons {p : Place} (h : Given p) (name : String) : Given (.given name :: p) := by
  intro n hn
  rcases List.mem_cons.1 hn with heq | hn
  · cases heq
  · exact h n hn

theorem not_given_staged (n : Nat) (p : Place) : ¬ Given (.staged n :: p) := fun h => h n List.mem_cons_self

theorem Given.step {p : Place} (h : Given p) (s : Path.Step) : Given (s.land p) := by
  cases s with
  | stay => exact h
  | up => exact fun n hn => h n (List.mem_of_mem_tail hn)
  | down name => exact h.cons name

/-- Steps from a given place lead to a given place. -/
theorem Given.land {p : Place} (h : Given p) (steps : List Path.Step) : Given (Path.land p steps) := by
  induction steps generalizing p with
  | nil => exact h
  | cons s steps ih => exact ih (h.step s)

theorem Given.base {start : Place} (h : Given start) (path : Path) : Given (path.base start) := by
  unfold Path.base
  split
  · exact given_nil
  · exact h

namespace FileTree

/-! ## Places after a change -/

/-- What is found in a list when the entries under some keys are taken out. -/
theorem lookup_filter_key {α β : Type} [BEq α] [LawfulBEq α] (entries : List (α × β)) (keep : α → Bool) (k : α) :
    (entries.filter fun e => keep e.1).lookup k = if keep k then entries.lookup k else none := by
  induction entries with
  | nil => simp
  | cons entry entries ih =>
    obtain ⟨j, e⟩ := entry
    by_cases hj : k = j
    · subst hj
      by_cases hk : keep k
      · simp [hk]
      · simp [hk, ih]
    · have hne : (k == j) = false := by simp [hj]
      by_cases hk : keep j
      · simp [hk, List.lookup_cons, hne, ih]
      · simp [hk, List.lookup_cons, hne, ih]

theorem key_injective {p q : Place} (h : key p = key q) : p = q :=
  congrArg Prod.snd h

@[simp] theorem at?_root (t : FileTree) : t.at? [] = some .directory := rfl

/-- A place that is kept holds what it held, any other one but the root holds nothing. -/
theorem at?_restrict (t : FileTree) (keep : Place → Bool) (q : Place) :
    (t.restrict keep).at? q = if q = [] ∨ keep q then t.at? q else none := by
  match q with
  | [] => simp
  | n :: p =>
    show (t.entries.filter fun e => keep e.1.2).lookup (key (n :: p)) = _
    rw [lookup_filter_key t.entries fun k => keep k.2]
    simp only [reduceCtorEq, false_or]
    rfl

/-- A place holds what was put there. -/
theorem at?_set_self (t : FileTree) {p : Place} (e : FileEntry) (h : p ≠ []) : (t.set p e).at? p = some e := by
  match p with
  | n :: p => simp [at?, set]

/-- Every other place holds what it held. -/
theorem at?_set_of_ne (t : FileTree) {p q : Place} (e : FileEntry) (h : q ≠ p) : (t.set p e).at? q = t.at? q := by
  match q with
  | [] => rfl
  | n :: q =>
    have hkey : key (n :: q) ≠ key p := fun hk => h (key_injective hk)
    have hne : (key (n :: q) == key p) = false := by simp [hkey]
    show ((key p, e) :: t.entries.filter fun old => decide (old.1 ≠ key p)).lookup (key (n :: q)) = _
    rw [List.lookup_cons, hne]
    show (t.entries.filter fun old => decide (old.1 ≠ key p)).lookup (key (n :: q)) = _
    rw [lookup_filter_key t.entries fun k => decide (k ≠ key p)]
    simp [at?, hkey]

@[simp] theorem start_set (t : FileTree) (p : Place) (e : FileEntry) : (t.set p e).start = t.start := rfl

@[simp] theorem start_restrict (t : FileTree) (keep : Place → Bool) : (t.restrict keep).start = t.start := rfl

@[simp] theorem start_erase (t : FileTree) (p : Place) : (t.erase p).start = t.start := rfl

@[simp] theorem start_discardStaged (t : FileTree) : t.discardStaged.start = t.start := rfl

/-! ## Well-formed trees -/

/-- A tree as a disk can hold it: what is somewhere lies in a directory, paths start in a directory, and no file is staged. -/
structure WellFormed (t : FileTree) : Prop where
  inside : ∀ n p, t.at? (n :: p) ≠ none → t.at? p = some .directory
  start : t.at? t.start = some .directory
  settled : ∀ p, t.at? p ≠ none → Given p

/-- The start of a well-formed tree is a given place. -/
theorem WellFormed.given {t : FileTree} (h : t.WellFormed) : Given t.start :=
  h.settled _ (by rw [h.start]; nofun)

/-- The tree with nothing but its root is well-formed. -/
theorem wellFormed_empty : WellFormed {} where
  inside _ _ h := absurd rfl h
  start := rfl
  settled
    | [], _ => given_nil
    | _ :: _, h => absurd rfl h

/-- A tree stays well-formed when something is put in one of its directories and no directory is replaced by a file. -/
theorem WellFormed.set {t : FileTree} (ht : t.WellFormed) {name : String} {p : Place} {e : FileEntry} (hp : t.at? p = some .directory)
    (hkeep : t.at? (.given name :: p) = some .directory → e = .directory) : (t.set (.given name :: p) e).WellFormed := by
  have hdirectory : ∀ {q}, t.at? q = some .directory → (t.set (.given name :: p) e).at? q = some .directory := by
    intro q hq
    by_cases heq : q = .given name :: p
    · subst heq
      rw [at?_set_self _ _ (List.cons_ne_nil _ _), hkeep hq]
    · rw [at?_set_of_ne _ _ heq, hq]
  refine ⟨fun n q hnq => ?_, hdirectory ht.start, fun q hq => ?_⟩
  · by_cases heq : n :: q = .given name :: p
    · cases heq
      exact hdirectory hp
    · rw [at?_set_of_ne _ _ heq] at hnq
      exact hdirectory (ht.inside n q hnq)
  · by_cases heq : q = .given name :: p
    · subst heq
      exact (ht.settled p (by rw [hp]; nofun)).cons name
    · rw [at?_set_of_ne _ _ heq] at hq
      exact ht.settled q hq

theorem isDirectory_iff {t : FileTree} {p : Place} : t.isDirectory p = true ↔ t.at? p = some .directory := by
  unfold isDirectory
  split
  · rename_i h
    simp [h]
  · rename_i h
    simpa using h

/-! ## Steps and walks -/

/-- A step can be taken from a directory unless its name is too long, and leads where it leads. -/
theorem step_eq_ok_iff {t : FileTree} {p q : Place} {s : Path.Step} :
    t.step p s = .ok q ↔ t.at? p = some .directory ∧ s.Short ∧ q = s.land p := by
  unfold step
  split
  · rename_i h
    simp [h]
  · rename_i h
    simp [h]
  · rename_i h
    rw [h]
    cases s with
    | stay => simp [Path.Step.Short, Path.Step.land, eq_comm]
    | up => simp [Path.Step.Short, Path.Step.land, eq_comm]
    | down name =>
      by_cases hlong : nameLimit < name.utf8ByteSize
      · simp [Path.Step.Short, hlong, Nat.not_le.2 hlong]
      · simp [Path.Step.Short, Path.Step.land, hlong, Nat.not_lt.1 hlong, eq_comm]

@[simp] theorem walk_nil (t : FileTree) (p : Place) : t.walk p [] = .ok p := rfl

theorem walk_append (t : FileTree) (p : Place) (before after : List Path.Step) :
    t.walk p (before ++ after) = t.walk p before >>= fun q => t.walk q after :=
  List.foldlM_append

/-- A walk along steps one behind the other can be made when both parts can. -/
theorem walk_append_eq_ok_iff {t : FileTree} {p q : Place} {before after : List Path.Step} :
    t.walk p (before ++ after) = .ok q ↔ ∃ r, t.walk p before = .ok r ∧ t.walk r after = .ok q := by
  rw [walk_append, Outcome.bind_eq_ok_iff]

/-- A walk can be made when it can be made up to its last step, and that step can be taken. -/
theorem walk_concat_eq_ok_iff {t : FileTree} {p q : Place} {steps : List Path.Step} {s : Path.Step} :
    t.walk p (steps ++ [s]) = .ok q ↔ ∃ r, t.walk p steps = .ok r ∧ t.step r s = .ok q := by
  rw [walk_append_eq_ok_iff]
  have hone : ∀ r, t.walk r [s] = t.step r s := by
    intro r
    unfold walk
    rw [List.foldlM_cons]
    cases t.step r s <;> rfl
  simp only [hone]

/-- A walk ends where its steps lead. -/
theorem eq_land_of_walk {t : FileTree} {p q : Place} {steps : List Path.Step} (h : t.walk p steps = .ok q) :
    q = Path.land p steps := by
  induction steps using List.reverseRecOn generalizing q with
  | nil => exact (Except.ok.inj h).symm
  | append_singleton steps s ih =>
    obtain ⟨r, hwalk, hstep⟩ := walk_concat_eq_ok_iff.1 h
    obtain ⟨-, -, rfl⟩ := step_eq_ok_iff.1 hstep
    rw [Path.land_append, ← ih hwalk]
    rfl

/-- Where there are more directories a walk can still be made. -/
theorem walk_mono {t u : FileTree} (hdir : ∀ p, t.at? p = some .directory → u.at? p = some .directory) {p q : Place}
    {steps : List Path.Step} (h : t.walk p steps = .ok q) : u.walk p steps = .ok q := by
  induction steps using List.reverseRecOn generalizing q with
  | nil => exact h
  | append_singleton steps s ih =>
    obtain ⟨r, hwalk, hstep⟩ := walk_concat_eq_ok_iff.1 h
    obtain ⟨hr, hshort, rfl⟩ := step_eq_ok_iff.1 hstep
    exact walk_concat_eq_ok_iff.2 ⟨r, ih hwalk, step_eq_ok_iff.2 ⟨hdir r hr, hshort, rfl⟩⟩

/-- In a well-formed tree a walk that never goes up can be made as soon as something is at its end, if it can be made in a tree with more
directories. -/
theorem WellFormed.walk_of_at? {t u : FileTree} (ht : t.WellFormed)
    (hu : ∀ p, t.at? p ≠ none → u.at? p = some .directory → t.at? p = some .directory) {p q : Place} {steps : List Path.Step}
    (hup : .up ∉ steps) (h : u.walk p steps = .ok q) (hq : t.at? q ≠ none) : t.walk p steps = .ok q := by
  induction steps using List.reverseRecOn generalizing q with
  | nil => exact h
  | append_singleton steps s ih =>
    obtain ⟨hups, hs⟩ : Path.Step.up ∉ steps ∧ Path.Step.up ≠ s := by simpa [not_or] using hup
    obtain ⟨r, hwalk, hstep⟩ := walk_concat_eq_ok_iff.1 h
    obtain ⟨hr, hshort, rfl⟩ := step_eq_ok_iff.1 hstep
    have hoccupied : t.at? r ≠ none := by
      cases s with
      | stay => exact hq
      | up => exact absurd rfl hs
      | down name =>
        rw [ht.inside _ _ hq]
        nofun
    exact walk_concat_eq_ok_iff.2 ⟨r, ih hups hwalk hoccupied, step_eq_ok_iff.2 ⟨hu r hoccupied hr, hshort, rfl⟩⟩

/-! ## Resolving -/

/-- What a text must satisfy to be a path at all. -/
def Usable (path : Path) : Prop :=
  path.text.toList.contains (Char.ofNat 0) = false ∧ path.text.isEmpty = false ∧ path.text.utf8ByteSize < pathLimit

/-- A usable path begins at its base, and no other path begins anywhere. -/
theorem origin_eq_ok_iff {t : FileTree} {path : Path} {p : Place} : t.origin path = .ok p ↔ Usable path ∧ p = path.base t.start := by
  unfold origin Usable
  by_cases hzero : path.text.toList.contains (Char.ofNat 0) = true
  · rw [if_pos hzero, hzero]
    exact ⟨nofun, fun h => nomatch h.1.1⟩
  rw [if_neg hzero]
  by_cases hempty : path.text.isEmpty = true
  · rw [if_pos hempty, hempty]
    exact ⟨nofun, fun h => nomatch h.1.2.1⟩
  rw [if_neg hempty]
  by_cases hlong : pathLimit ≤ path.text.utf8ByteSize
  · rw [if_pos hlong]
    exact ⟨nofun, fun h => absurd h.1.2.2 (Nat.not_lt.2 hlong)⟩
  rw [if_neg hlong]
  constructor
  · intro h
    exact ⟨⟨Bool.of_not_eq_true hzero, Bool.of_not_eq_true hempty, Nat.not_le.1 hlong⟩, (Except.ok.inj h).symm⟩
  · rintro ⟨-, rfl⟩
    rfl

/-- A path leads where the walk along its steps ends, if it is usable. -/
theorem resolve_eq_ok_iff {t : FileTree} {path : Path} {q : Place} :
    t.resolve path = .ok q ↔ Usable path ∧ t.walk (path.base t.start) path.steps = .ok q := by
  unfold resolve
  rw [Outcome.bind_eq_ok_iff]
  simp only [origin_eq_ok_iff]
  constructor
  · rintro ⟨_, ⟨hu, rfl⟩, h⟩
    exact ⟨hu, h⟩
  · rintro ⟨hu, h⟩
    exact ⟨_, ⟨hu, rfl⟩, h⟩

/-- Where a path leads at all, it leads to the place that it names. -/
theorem eq_place_of_resolve {t : FileTree} {path : Path} {q : Place} (h : t.resolve path = .ok q) : q = path.place t.start :=
  eq_land_of_walk (resolve_eq_ok_iff.1 h).2

/-- Where there are more directories a path still leads where it leads. -/
theorem resolve_mono {t u : FileTree} (hstart : u.start = t.start) (hdir : ∀ p, t.at? p = some .directory → u.at? p = some .directory)
    {path : Path} {q : Place} (h : t.resolve path = .ok q) : u.resolve path = .ok q := by
  rw [resolve_eq_ok_iff] at h ⊢
  rw [hstart]
  exact ⟨h.1, walk_mono hdir h.2⟩

/-- Bytes are read when the path leads to a file that holds them. -/
theorem readBytes_eq_ok_iff {t : FileTree} {path : Path} {bytes : ByteArray} :
    t.readBytes path = .ok bytes ↔ ∃ p, t.resolve path = .ok p ∧ t.at? p = some (.file bytes) := by
  unfold readBytes
  rw [Outcome.bind_eq_ok_iff]
  refine exists_congr fun p => and_congr_right fun _ => ?_
  split
  · rename_i h
    simp [h]
  · rename_i h
    simp [h]
  · rename_i h
    simp [h]

end FileTree

end DeviceCatalog
