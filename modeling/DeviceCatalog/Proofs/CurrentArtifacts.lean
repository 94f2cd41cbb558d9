import DeviceCatalog.Proofs.Writing
import Mathlib.Data.List.Pairwise

/-!
# Current artifacts

An artifact is current when its file holds its text. A write that succeeds makes every artifact current, and on a tree where all of them
are a write has nothing to do and a check finds nothing stale.
-/

namespace DeviceCatalog

namespace Task

variable {α β : Type}

/-- A step that gives a value, and the next one: the notices come in this order. -/
theorem bind_of_ok {x : Task α} {f : α → Task β} {t u v : FileTree} {ns ms : List Notice} {a : α} {r : Except Failure β}
    (hx : x t = (⟨ns, .ok a⟩, u)) (hf : f a u = (⟨ms, r⟩, v)) : (x >>= f) t = (⟨ns ++ ms, r⟩, v) := by
  show bind x f t = _
  rw [bind, hx]
  simp only
  rw [hf]

end Task

namespace FileTree

/-- Staged files are discarded once. -/
theorem discardStaged_discardStaged (t : FileTree) : t.discardStaged.discardStaged = t.discardStaged := by
  unfold discardStaged restrict
  simp only [List.filter_filter, Bool.and_self]

end FileTree

namespace Artifact

/-- A file that is current is there. -/
theorem exists?_of_isCurrent {t : FileTree} {a : Artifact} (h : a.isCurrent t = true) : t.exists? a.path = true := by
  obtain ⟨p, hresolve, hfile⟩ := FileTree.readBytes_eq_ok_iff.1 (isCurrent_iff.1 h)
  rw [FileTree.exists?, hresolve]
  simp only [hfile, Option.isSome_some]

/-- An artifact does not differ from its file when it is current. -/
theorem staleness?_eq_none_iff {t : FileTree} {a : Artifact} : staleness? t a = none ↔ a.isCurrent t = true := by
  unfold staleness?
  cases hcurrent : a.isCurrent t with
  | true => simp [exists?_of_isCurrent hcurrent]
  | false => cases t.exists? a.path <;> simp

/-- Nothing is found stale exactly when every artifact is current. -/
theorem check_eq_nil_iff {t : FileTree} {artifacts : List Artifact} : check t artifacts = [] ↔ ∀ a ∈ artifacts, a.isCurrent t = true := by
  unfold check
  simp only [List.filterMap_eq_nil_iff, Option.map_eq_none_iff, staleness?_eq_none_iff]

/-- Artifacts that are current are reported and not staged. -/
theorem stageAll_of_current {t : FileTree} {artifacts : List Artifact} (h : ∀ a ∈ artifacts, a.isCurrent t = true) (n : Nat) :
    stageAll n artifacts t = (⟨artifacts.map fun a => .upToDate a.path, .ok ⟨[], artifacts.map path⟩⟩, t) := by
  induction artifacts with
  | nil => rfl
  | cons a rest ih =>
    obtain ⟨ha, hrest⟩ := List.forall_mem_cons.1 h
    have hnext : (stageAll n rest >>= fun s => pure { s with unchanged := a.path :: s.unchanged }) t =
        (⟨rest.map (fun a => .upToDate a.path) ++ [], .ok ⟨[], (a :: rest).map path⟩⟩, t) := Task.bind_of_ok (ih hrest) rfl
    have hcurrent : Task.inspect (fun t => a.isCurrent t) t = (⟨[], .ok true⟩, t) := by
      rw [← ha]
      rfl
    have hrun : stageAll n (a :: rest) t =
        (⟨[] ++ ([.upToDate a.path] ++ (rest.map (fun a => .upToDate a.path) ++ [])), .ok ⟨[], (a :: rest).map path⟩⟩, t) := by
      rw [stageAll]
      refine Task.bind_of_ok hcurrent ?_
      rw [if_pos rfl]
      exact Task.bind_of_ok rfl hnext
    rw [hrun, List.append_nil]
    rfl

/-- A write with nothing to do reports every artifact and leaves the tree without staged files. -/
theorem write_of_current {t : FileTree} {artifacts : List Artifact} (h : ∀ a ∈ artifacts, a.isCurrent t = true) :
    write artifacts t = (⟨artifacts.map fun a => .upToDate a.path, .ok ⟨[], artifacts.map path⟩⟩, t.discardStaged) := by
  have hmove : (moveAll [] >>= fun _ => pure (⟨[], artifacts.map path⟩ : Written)) t = (⟨[], .ok ⟨[], artifacts.map path⟩⟩, t) := rfl
  have hrun : stageAndMove artifacts t = (⟨(artifacts.map fun a => .upToDate a.path) ++ [], .ok ⟨[], artifacts.map path⟩⟩, t) :=
    Task.bind_of_ok (stageAll_of_current h 0) hmove
  rw [write, Task.andThen, hrun, List.append_nil]

/-- An artifact that is left alone is current where the directories for the others have been made. -/
theorem isCurrent_withParents {t : FileTree} {artifacts : List Artifact} {a : Artifact} (ha : a ∈ artifacts)
    (hleft : a ∉ pending t artifacts) : a.isCurrent (withParents t (pending t artifacts)) = true := by
  induction artifacts generalizing t with
  | nil => cases ha
  | cons b rest ih =>
    rw [pending] at hleft ⊢
    by_cases hb : b.isCurrent t = true
    · rw [if_pos hb] at hleft ⊢
      rcases List.mem_cons.1 ha with rfl | ha
      · exact isCurrent_mono (makes_withParents t _) hb
      · exact ih ha hleft
    · rw [if_neg hb] at hleft ⊢
      obtain ⟨hne, hleft⟩ := not_or.1 (mt List.mem_cons.2 hleft)
      rw [withParents_cons]
      exact ih ((List.mem_cons.1 ha).resolve_left hne) hleft

/-- The file of a current artifact is where its path leads. -/
theorem fileAt?_of_isCurrent {t : FileTree} {a : Artifact} (h : a.isCurrent t = true) :
    t.resolve a.path = .ok (a.path.place t.start) ∧ t.fileAt? (a.path.place t.start) = some a.bytes := by
  obtain ⟨p, hresolve, hfile⟩ := FileTree.readBytes_eq_ok_iff.1 (isCurrent_iff.1 h)
  have hplace := FileTree.eq_place_of_resolve hresolve
  subst hplace
  exact ⟨hresolve, FileTree.fileAt?_eq_some_iff.2 hfile⟩

/-- After a successful write of artifacts that go to different places all of them are current. -/
theorem write_makes_current {t : FileTree} (ht : t.WellFormed) {artifacts : List Artifact}
    (hapart : artifacts.Pairwise fun a b => a.path.place t.start ≠ b.path.place t.start) {w : Written}
    (hdone : (write artifacts t).1.outcome = .ok w) :
    ∃ j, Leaves t artifacts j (write artifacts t).2 ∧ ∀ a ∈ artifacts, a.isCurrent (write artifacts t).2 = true := by
  obtain ⟨j, made, hcourse⟩ := course_write ht artifacts
  have hleaves := hcourse.leaves ht
  refine ⟨j, hleaves, fun a ha => ?_⟩
  generalize (write artifacts t).2 = u at hcourse hleaves
  rw [hdone] at hcourse
  obtain ⟨hends, -, hall, hmovable, hstart, -, hat⟩ := hcourse
  obtain rfl := hall w rfl
  have hfiles := hleaves.files
  cases hends
  rw [List.take_length] at hfiles hmovable hat
  have hmakes := makes_withParents t (pending t artifacts)
  -- Whether it was moved or left alone, the artifact's path leads to its place and its bytes are there.
  have hplaced : (putAll (withParents t (pending t artifacts)) (pending t artifacts)).resolve a.path = .ok (a.path.place t.start) ∧
      u.fileAt? (a.path.place t.start) = some a.bytes := by
    rw [hfiles]
    by_cases hpending : a ∈ pending t artifacts
    · refine ⟨?_, overwrite_of_mem (hapart.sublist (pending_sublist t artifacts)) hpending⟩
      rw [← hmakes.start]
      exact hmovable.resolve_of_mem hpending
    · obtain ⟨hresolve, hfile⟩ := fileAt?_of_isCurrent (isCurrent_withParents ha hpending)
      rw [hmakes.start] at hresolve hfile
      rw [fileAt?_withParents] at hfile
      refine ⟨hmovable.resolve hresolve, ?_⟩
      rw [overwrite_of_ne, hfile]
      intro b hb
      have hne : a ≠ b := fun h => hpending (h ▸ hb)
      have hsymm : Std.Symm fun a b : Artifact => a.path.place t.start ≠ b.path.place t.start := ⟨fun _ _ h => h.symm⟩
      exact hapart.forall ha (mem_of_mem_pending hb) hne
  have hresolve : u.resolve a.path = .ok (a.path.place t.start) := by
    refine FileTree.resolve_mono ?_ (fun p hp => by rw [hat, hp]) hplaced.1
    rw [start_putAll, hmakes.start, hstart]
  exact isCurrent_iff.2 (FileTree.readBytes_eq_ok hresolve hplaced.2)

/-- Of the places that are no artifact's, a write changes those where it makes a directory that the path of an artifact names before its
last part. -/
theorem Leaves.at?_of_ne {t u : FileTree} {artifacts : List Artifact} {j : Nat} (h : Leaves t artifacts j u) {p : Place}
    (hp : ∀ a ∈ artifacts, p ≠ a.path.place t.start) :
    u.at? p = t.at? p ∨ t.at? p = none ∧ u.at? p = some .directory ∧ ∃ a ∈ artifacts, a.path.NamesParent t.start p := by
  have hfile : u.fileAt? p = t.fileAt? p := by
    rw [h.files]
    exact overwrite_of_ne fun a ha => hp a (mem_of_mem_pending (List.mem_of_mem_take ha))
  cases hu : u.at? p with
  | none =>
    cases ht : t.at? p with
    | none => exact Or.inl rfl
    | some e =>
      cases e with
      | directory => exact absurd (hu.symm.trans (h.kept p ht)) nofun
      | file bytes =>
        rw [FileTree.fileAt?_eq_some_iff.2 ht] at hfile
        exact absurd (hu.symm.trans (FileTree.fileAt?_eq_some_iff.1 hfile)) nofun
  | some e =>
    cases e with
    | directory =>
      rcases h.added p hu with ht | ⟨ht, hparent⟩
      · exact Or.inl ht.symm
      · exact Or.inr ⟨ht, rfl, hparent⟩
    | file bytes =>
      rw [FileTree.fileAt?_eq_some_iff.2 hu] at hfile
      exact Or.inl (FileTree.fileAt?_eq_some_iff.1 hfile.symm).symm

/-- A text that was read and that is no artifact's file can be read as before. -/
theorem Leaves.readText_eq {t u : FileTree} {artifacts : List Artifact} {j : Nat} (h : Leaves t artifacts j u) {path : Path} {text : String}
    (hne : ∀ a ∈ artifacts, path.place t.start ≠ a.path.place t.start) (htext : t.readText path = .ok text) :
    u.readText path = .ok text := by
  unfold FileTree.readText at htext ⊢
  obtain ⟨bytes, hbytes, hdecode⟩ := Outcome.bind_eq_ok_iff.1 htext
  obtain ⟨p, hresolve, hfile⟩ := FileTree.readBytes_eq_ok_iff.1 hbytes
  have hplace := FileTree.eq_place_of_resolve hresolve
  have hkept : u.fileAt? p = some bytes := by
    rw [h.files, overwrite_of_ne, FileTree.fileAt?_eq_some_iff.2 hfile]
    exact fun a ha => hplace ▸ hne a (mem_of_mem_pending (List.mem_of_mem_take ha))
  have hread : u.readBytes path = .ok bytes := FileTree.readBytes_eq_ok (FileTree.resolve_mono h.start h.kept hresolve) hkept
  rw [hread, Outcome.ok_bind]
  exact hdecode

/-- The tree after a write holds no staged file that could be discarded. -/
theorem discardStaged_write (t : FileTree) (artifacts : List Artifact) :
    (write artifacts t).2.discardStaged = (write artifacts t).2 :=
  FileTree.discardStaged_discardStaged _

/-- The two trees differ in nothing but the files of the artifacts, which the second one holds, and in directories that it has besides and
that the path of an artifact names before its last part. -/
structure OnlyArtifactsChanged (t : FileTree) (artifacts : List Artifact) (u : FileTree) : Prop where
  placed : ∀ a ∈ artifacts, u.at? (a.path.place t.start) = some (.file a.bytes)
  others : ∀ p, (∀ a ∈ artifacts, p ≠ a.path.place t.start) →
    u.at? p = t.at? p ∨ t.at? p = none ∧ u.at? p = some .directory ∧ ∃ a ∈ artifacts, a.path.NamesParent t.start p

end Artifact

end DeviceCatalog
