import DeviceCatalog.Proofs.CurrentArtifacts
import DeviceCatalog.Proofs.FileScope
import DeviceCatalog.Proofs.Rendering
import DeviceCatalog.Proofs.SourceLines
import DeviceCatalog.Proofs.Symbols

/-!
# Artifacts that share a path

The output paths are taken as they come. No two artifacts of a run have the same text, so each is found under its own path only when no
two of the paths are the same, and each is in its file after a write only when no two of the paths lead to the same place.
-/

namespace DeviceCatalog

namespace Path

theorem same_refl (p : Path) : p.same p = true := by
  simp [same]

end Path

namespace Artifact

/-! ## Looking up a path -/

theorem find?_cons_same {a : Artifact} {path : Path} (h : a.path.same path = true) (rest : List Artifact) :
    find? (a :: rest) path = some a.contents := by
  simp [find?, h]

theorem find?_cons_not_same {a : Artifact} {path : Path} (h : a.path.same path = false) (rest : List Artifact) :
    find? (a :: rest) path = find? rest path := by
  simp [find?, h]

/-- Artifacts with different texts are all found under their own paths when no two of these are the same, and only then. -/
theorem find?_own_iff {artifacts : List Artifact} (hcontents : artifacts.Pairwise fun a b => a.contents ≠ b.contents) :
    (∀ a ∈ artifacts, find? artifacts a.path = some a.contents) ↔ (artifacts.map path).Pairwise fun p q => p.same q = false := by
  rw [List.pairwise_map]
  induction artifacts with
  | nil => exact iff_of_true nofun .nil
  | cons a rest ih =>
    obtain ⟨ha, hrest⟩ := List.pairwise_cons.1 hcontents
    rw [List.forall_mem_cons, List.pairwise_cons, ← ih hrest]
    have hfirst : find? (a :: rest) a.path = some a.contents := find?_cons_same a.path.same_refl rest
    constructor
    · rintro ⟨-, hfound⟩
      have hapart : ∀ b ∈ rest, a.path.same b.path = false := by
        intro b hb
        rw [Bool.eq_false_iff]
        intro hsame
        have hown := hfound b hb
        rw [find?_cons_same hsame] at hown
        exact ha b hb (Option.some.inj hown)
      refine ⟨hapart, fun b hb => ?_⟩
      rw [← find?_cons_not_same (hapart b hb), hfound b hb]
    · rintro ⟨hapart, hfound⟩
      refine ⟨hfirst, fun b hb => ?_⟩
      rw [find?_cons_not_same (hapart b hb), hfound b hb]

/-! ## Reading a file -/

/-- After a write that succeeds, artifacts with different texts are all in their files when no two paths lead to the same place, and only
then. -/
theorem readBytes_own_iff {t : FileTree} (ht : t.WellFormed) {artifacts : List Artifact}
    (hcontents : artifacts.Pairwise fun a b => a.contents ≠ b.contents) {w : Written} (hdone : (write artifacts t).1.outcome = .ok w) :
    (∀ a ∈ artifacts, (write artifacts t).2.readBytes a.path = .ok a.bytes) ↔
      (artifacts.map path).Pairwise fun p q => p.place t.start ≠ q.place t.start := by
  rw [List.pairwise_map]
  constructor
  · intro hreads
    obtain ⟨j, made, hcourse⟩ := course_write ht artifacts
    have hfile : ∀ a ∈ artifacts, (write artifacts t).2.at? (a.path.place t.start) = some (.file a.bytes) := by
      intro a ha
      obtain ⟨p, hresolve, hfile⟩ := FileTree.readBytes_eq_ok_iff.1 (hreads a ha)
      rwa [FileTree.eq_place_of_resolve hresolve, hcourse.start] at hfile
    refine hcontents.imp_of_mem fun ha hb hne hplace => hne ?_
    have hentry := hfile _ ha
    rw [hplace, hfile _ hb] at hentry
    exact String.toByteArray_inj.1 (FileEntry.file.inj (Option.some.inj hentry)).symm
  · intro hapart a ha
    obtain ⟨-, -, hcurrent⟩ := write_makes_current ht hapart hdone
    exact isCurrent_iff.1 (hcurrent a ha)

end Artifact

namespace Generation

open Artifact CSource

/-! ## The texts of a run -/

/-- The texts that a run can have, all from the same model. -/
def texts (m : Model) (o : Options) (b : Bindings) (headerName pollRecordsName : String) : List String :=
  [ fileText (pollRecords m o), fileText (deviceTable m o pollRecordsName), fileText b.symbolTable, fileText b.decoderHeader,
    fileText (b.decoderSource headerName pollRecordsName) ]

/-- The native artifacts are the header of the records and the source of the tables. -/
theorem contents_nativeArtifacts (m : Model) (o : Options) (paths : OutputPaths) :
    (nativeArtifacts m o paths).map Artifact.contents = [ fileText (pollRecords m o),
      fileText (deviceTable m o (includeName paths.pollRecords defaultPollRecordsName)) ] := by
  simp only [nativeArtifacts, artifact, List.map_cons, List.map_nil]

/-- The artifacts of the bindings are among the symbols, the header and the source of the decoders. -/
theorem contents_bindingArtifacts (b : Bindings) (paths : OutputPaths) : ∃ headerName,
    ((bindingArtifacts b paths).map Artifact.contents).Sublist [ fileText b.symbolTable, fileText b.decoderHeader,
      fileText (b.decoderSource headerName (includeName paths.pollRecords defaultPollRecordsName)) ] := by
  have hpart : ∀ (path? : Option Path) (items : List Item),
      ((path?.map fun p => artifact p items).toList.map Artifact.contents).Sublist [fileText items] := by
    intro path? items
    cases path? with
    | none => exact List.nil_sublist _
    | some p => exact List.Sublist.refl _
  unfold bindingArtifacts
  rw [List.map_append, List.map_append]
  exact ⟨_, ((hpart _ _).append (hpart _ _)).append (hpart _ _)⟩

/-- How the texts begin, in the same order. -/
def textStarts : List String :=
  [ fileText [.pragmaOnce, .includeSystem "stdint.h", .blank], fileText [.pragmaOnce, .includeSystem "stdint.h"] ++ "#include \"",
    "// Symbols of the ", fileText [.pragmaOnce, .includeLocal "py/obj.h"], "#include \"" ]

/-- A file that includes a header begins by saying so. -/
theorem exists_fileText_includeLocal (header : String) (items : List Item) :
    ∃ rest, fileText (.includeLocal header :: items) = "#include \"" ++ rest := by
  refine ⟨header ++ ("\"" ++ ("\n" ++ fileText items)), ?_⟩
  rw [fileText_cons, Item.text, line]
  simp only [String.append_assoc]

/-- The texts are different, since none of them begins as another one does. -/
theorem nodup_texts (m : Model) (o : Options) (b : Bindings) (headerName pollRecordsName : String) :
    (texts m o b headerName pollRecordsName).Nodup := by
  obtain ⟨records, hrecords⟩ : ∃ rest, fileText (pollRecords m o) = fileText [.pragmaOnce, .includeSystem "stdint.h", .blank] ++ rest :=
    ⟨_, fileText_append [.pragmaOnce, .includeSystem "stdint.h", .blank] _⟩
  obtain ⟨table, htable⟩ : ∃ rest, fileText (deviceTable m o pollRecordsName) =
      fileText [.pragmaOnce, .includeSystem "stdint.h"] ++ "#include \"" ++ rest := by
    obtain ⟨rest, hrest⟩ := exists_fileText_includeLocal pollRecordsName _
    refine ⟨rest, (fileText_append [.pragmaOnce, .includeSystem "stdint.h"] (.includeLocal pollRecordsName :: _)).trans ?_⟩
    rw [hrest, ← String.append_assoc]
  obtain ⟨symbols, hsymbols⟩ : ∃ rest, fileText b.symbolTable = "// Symbols of the " ++ rest := by
    have htext := text_symbolTable b
    simp only [String.append_assoc] at htext
    exact ⟨_, htext⟩
  obtain ⟨header, hheader⟩ : ∃ rest, fileText b.decoderHeader = fileText [.pragmaOnce, .includeLocal "py/obj.h"] ++ rest :=
    ⟨_, fileText_append [.pragmaOnce, .includeLocal "py/obj.h"] _⟩
  obtain ⟨source, hsource⟩ : ∃ rest, fileText (b.decoderSource headerName pollRecordsName) = "#include \"" ++ rest :=
    exists_fileText_includeLocal headerName _
  have hstarts : textStarts.Pairwise fun s s' => ¬ s.toList <+: s'.toList ∧ ¬ s'.toList <+: s.toList := by decide
  have hnodup : ([] ++ stemmed (textStarts.zip [[records], [table], [symbols], [header], [source]])).Nodup := by
    refine nodup_append_stemmed List.nodup_nil (fun _ _ => nofun) hstarts ?_
    intro family hfamily
    simp only [textStarts, List.zip_cons_cons, List.zip_nil_right, List.mem_cons, List.not_mem_nil, or_false] at hfamily
    rcases hfamily with rfl | rfl | rfl | rfl | rfl <;> exact List.nodup_singleton _
  rw [texts, hrecords, htable, hsymbols, hheader, hsource]
  exact hnodup

/-- The artifacts of a run have different texts. -/
theorem pairwise_contents_of_render {m : Model} {o : Options} {paths : OutputPaths} {artifacts : List Artifact}
    (h : (render m o paths).outcome = .ok artifacts) : artifacts.Pairwise fun a b => a.contents ≠ b.contents := by
  suffices hsub : ∃ b headerName pollRecordsName, (artifacts.map Artifact.contents).Sublist (texts m o b headerName pollRecordsName) by
    obtain ⟨b, headerName, pollRecordsName, hsub⟩ := hsub
    exact List.pairwise_map.1 ((nodup_texts m o b headerName pollRecordsName).sublist hsub)
  unfold render at h
  rw [Logged.outcome_bind] at h
  obtain ⟨_, -, h⟩ := Outcome.bind_eq_ok_iff.1 h
  cases hscript : o.script with
  | none =>
    rw [hscript] at h
    cases h
    refine ⟨⟨[], [], {}⟩, "", includeName paths.pollRecords defaultPollRecordsName, ?_⟩
    rw [contents_nativeArtifacts]
    exact List.sublist_append_left [_, _] _
  | some s =>
    rw [hscript] at h
    obtain ⟨b, -, h⟩ := Outcome.bind_eq_ok_iff.1 ((Logged.outcome_bind _ _).symm.trans h)
    cases h
    obtain ⟨headerName, hsub⟩ := contents_bindingArtifacts b paths
    refine ⟨b, headerName, includeName paths.pollRecords defaultPollRecordsName, ?_⟩
    rw [List.map_append, contents_nativeArtifacts]
    exact (List.Sublist.refl _).append hsub

/-- A run of no device types that is written to the empty tree. -/
theorem exists_written_of_isOk (paths : OutputPaths) (h : ((Model.build []).outcome >>= fun m => (render m {} paths).outcome >>= fun artifacts =>
      (write artifacts {}).1.outcome).isOk = true) :
    ∃ m artifacts w, (Model.build []).outcome = .ok m ∧ (render m {} paths).outcome = .ok artifacts ∧
      (write artifacts {}).1.outcome = .ok w := by
  obtain ⟨w, hw⟩ := Outcome.isOk_eq_true_iff.1 h
  obtain ⟨m, hm, hw⟩ := Outcome.bind_eq_ok_iff.1 hw
  obtain ⟨artifacts, hrender, hdone⟩ := Outcome.bind_eq_ok_iff.1 hw
  exact ⟨m, artifacts, w, hm, hrender, hdone⟩

/-- The artifacts of a run go to the output paths in use, in order. Looking each one up under its path gives its own text when no two of
these paths are the same, part by part, and only then. After a write that succeeds each one is in its file when no two of them lead to the
same place, and only then. -/
theorem artifacts_kept_apart_iff {m : Model} {o : Options} {paths : OutputPaths} {artifacts : List Artifact}
    (h : (render m o paths).outcome = .ok artifacts) :
    artifacts.map Artifact.path = paths.used o ∧
      ((∀ a ∈ artifacts, Artifact.find? artifacts a.path = some a.contents) ↔
        (paths.used o).Pairwise fun p q => p.same q = false) ∧
      ∀ (t : FileTree) (w : Written), t.WellFormed → (write artifacts t).1.outcome = .ok w →
        ((∀ a ∈ artifacts, (write artifacts t).2.readBytes a.path = .ok a.bytes) ↔
          (paths.used o).Pairwise fun p q => p.place t.start ≠ q.place t.start) := by
  have hpaths := map_path_of_render h
  have hcontents := pairwise_contents_of_render h
  refine ⟨hpaths, ?_, fun t w ht hdone => ?_⟩
  · rw [find?_own_iff hcontents, hpaths]
  · rw [readBytes_own_iff ht hcontents hdone, hpaths]

/-- One path starts with a dot, so that the paths are not the same part by part, but they lead to the same place: each artifact is found
under its path, but they are not both in their files after the write. -/
theorem artifacts_kept_apart_leading_dot :
    let paths : OutputPaths := { deviceTable := ⟨"t.h"⟩, pollRecords := ⟨"./t.h"⟩ }
    ∃ m artifacts w, (Model.build []).outcome = .ok m ∧ (render m {} paths).outcome = .ok artifacts ∧
      (write artifacts {}).1.outcome = .ok w ∧ (∀ a ∈ artifacts, Artifact.find? artifacts a.path = some a.contents) ∧
      ¬ ∀ a ∈ artifacts, (write artifacts {}).2.readBytes a.path = .ok a.bytes := by
  intro paths
  obtain ⟨m, artifacts, w, hm, hrender, hdone⟩ := exists_written_of_isOk paths (by decide +kernel)
  obtain ⟨-, hfind, hread⟩ := artifacts_kept_apart_iff hrender
  refine ⟨m, artifacts, w, hm, hrender, hdone, hfind.2 (by decide +kernel), fun hall => ?_⟩
  exact absurd ((hread {} w FileTree.wellFormed_empty hdone).1 hall) (by decide +kernel)

/-- With the same path for both native artifacts a run succeeds, but one of them is not found under its path and one of them is lost. -/
theorem shared_path_loses_artifact :
    let paths : OutputPaths := { deviceTable := ⟨"a.h"⟩, pollRecords := ⟨"a.h"⟩ }
    ∃ m artifacts w, (Model.build []).outcome = .ok m ∧ (render m {} paths).outcome = .ok artifacts ∧
      (write artifacts {}).1.outcome = .ok w ∧ ¬ (artifacts.map Artifact.path).Nodup ∧
      (¬ ∀ a ∈ artifacts, Artifact.find? artifacts a.path = some a.contents) ∧
      ¬ ∀ a ∈ artifacts, (write artifacts {}).2.readBytes a.path = .ok a.bytes := by
  intro paths
  obtain ⟨m, artifacts, w, hm, hrender, hdone⟩ := exists_written_of_isOk paths (by decide +kernel)
  have hpaths := map_path_of_render hrender
  have hcontents := pairwise_contents_of_render hrender
  refine ⟨m, artifacts, w, hm, hrender, hdone, ?_, fun hall => ?_, fun hall => ?_⟩
  · rw [hpaths]
    decide +kernel
  · have hapart := (find?_own_iff hcontents).1 hall
    rw [hpaths] at hapart
    exact absurd hapart (by decide +kernel)
  · have hapart := (readBytes_own_iff FileTree.wellFormed_empty hcontents hdone).1 hall
    rw [hpaths] at hapart
    exact absurd hapart (by decide +kernel)

end Generation

end DeviceCatalog
