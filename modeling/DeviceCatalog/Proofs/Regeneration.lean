import DeviceCatalog.CommandLine
import DeviceCatalog.Proofs.CurrentArtifacts
import DeviceCatalog.Proofs.Rendering

/-!
# Running the generator again

A run that generates artifacts leaves a tree on which the same command has nothing to do. The catalogs read as before, since no artifact is
one of them, so the same artifacts are rendered; each of them is current, so none is written and none is found stale.
-/

namespace DeviceCatalog

namespace CommandLine

open Artifact (OnlyArtifactsChanged)

/-! ## The same command line for another command -/

/-- The word of a verb. -/
def Verb.word : Verb → String
  | .generate => "devtypes-gen"
  | .check => "devtypes-check"

/-- The same arguments for another command: its word stands in place of the first positional one. -/
def withVerb (v : Verb) : List String → List String
  | [] => []
  | text :: rest =>
    match Argument.ofText text with
    | .positional _ => v.word :: rest
    | _ => text :: withVerb v rest

/-- A verb is found under its word. -/
theorem Verb.ofWord?_word (v : Verb) : Verb.ofWord? v.word = some v := by
  cases v <;> rfl

theorem Verb.word_ne_helpWord (v : Verb) : v.word ≠ helpWord := by
  cases v <;> decide

theorem Argument.ofText_word (v : Verb) : Argument.ofText v.word = .positional v.word := by
  cases v <;> rfl

/-- The arguments in front of a command do not depend on its word. -/
theorem readFront?_withVerb {g front : Given} {name : String} {rest args : List String} (v : Verb)
    (h : readFront? g args = some (front, some (name, rest))) :
    readFront? g (withVerb v args) = some (front, some (v.word, rest)) := by
  -- The word of the command is the first positional argument; whatever stands in front of it is read alike.
  induction args generalizing g with
  | nil => cases h
  | cons text args ih =>
    rw [readFront?] at h
    cases hhelp : g.help with
    | true =>
      rw [hhelp] at h
      cases h
    | false =>
      rw [hhelp, if_neg Bool.false_ne_true] at h
      rw [withVerb]
      cases htext : Argument.ofText text with
      | positional p =>
        rw [htext] at h
        cases h
        simp only
        rw [readFront?, hhelp, if_neg Bool.false_ne_true, Argument.ofText_word]
      | separator =>
        rw [htext] at h
        cases h
      | long word value =>
        rw [htext] at h
        cases value with
        | some value => cases h
        | none =>
          obtain ⟨g', hg', h⟩ := Option.bind_eq_some_iff.1 h
          simp only
          rw [readFront?, hhelp, if_neg Bool.false_ne_true, htext]
          exact Option.bind_eq_some_iff.2 ⟨g', hg', ih h⟩
      | short letters =>
        rw [htext] at h
        obtain ⟨g', hg', h⟩ := Option.bind_eq_some_iff.1 h
        simp only
        rw [readFront?, hhelp, if_neg Bool.false_ne_true, htext]
        exact Option.bind_eq_some_iff.2 ⟨g', hg', ih h⟩

/-- With the word of another verb the arguments ask for the same, done as that verb says. -/
theorem parse?_withVerb {env : Environment} {args : List String} {c : Command} (v : Verb) (h : parse? env args = some (.run c)) :
    parse? env (withVerb v args) = some (.run { c with verb := v }) := by
  unfold parse? at h ⊢
  obtain ⟨⟨front, command⟩, hfront, hrest⟩ := Option.bind_eq_some_iff.1 h
  simp only at hrest
  by_cases hhelp : front.help = true
  · rw [if_pos hhelp] at hrest
    cases hrest
  rw [if_neg hhelp] at hrest
  obtain ⟨⟨name, rest⟩, hcommand, hverb⟩ := Option.bind_eq_some_iff.1 hrest
  simp only at hverb
  by_cases hname : name = helpWord
  · rw [if_pos hname] at hverb
    split at hverb <;> cases hverb
  rw [if_neg hname] at hverb
  obtain ⟨verb, -, hread⟩ := Option.bind_eq_some_iff.1 hverb
  obtain ⟨g, hg, hcommands⟩ := Option.bind_eq_some_iff.1 hread
  rw [hcommand] at hfront
  refine Option.bind_eq_some_iff.2 ⟨_, readFront?_withVerb v hfront, ?_⟩
  simp only
  rw [if_neg hhelp]
  refine Option.bind_eq_some_iff.2 ⟨_, rfl, ?_⟩
  simp only
  rw [if_neg v.word_ne_helpWord]
  refine Option.bind_eq_some_iff.2 ⟨v, v.ofWord?_word, Option.bind_eq_some_iff.2 ⟨g, hg, ?_⟩⟩
  split at hcommands
  · cases hcommands
  rename_i hnone
  split at hcommands
  · cases hcommands
  rename_i hloud
  obtain ⟨o, ho, hplaces⟩ := Option.bind_eq_some_iff.1 hcommands
  obtain ⟨⟨catalogs, paths⟩, hpaths, hc⟩ := Option.bind_eq_some_iff.1 hplaces
  cases hc
  rw [if_neg hnone, if_neg hloud]
  exact Option.bind_eq_some_iff.2 ⟨o, ho, Option.bind_eq_some_iff.2 ⟨_, hpaths, rfl⟩⟩

/-! ## Running it again -/

/-- The notices that a command lets through. -/
def Command.admitted (c : Command) (notices : List Notice) : List Notice := notices.filter fun n => c.verbosity.admits n.level

/-- Generating ends with a count of the files when the artifacts are rendered and written. -/
theorem Command.run_generate_of_written {c : Command} {t : FileTree} {artifacts : List Artifact} {w : Artifact.Written}
    (hverb : c.verb = .generate) (hrender : (c.render t).outcome = .ok artifacts) (hwrite : (Artifact.write artifacts t).1.outcome = .ok w) :
    c.run t = (⟨successCode, c.admitted ((c.render t).notices ++ ((Artifact.write artifacts t).1.notices ++
      [.filesWritten w.written.length w.unchanged.length])), ""⟩, (Artifact.write artifacts t).2) := by
  unfold Command.run Command.perform Command.admitted
  simp only [hrender, hverb, writeArtifacts, hwrite]

/-- A generating run that succeeds has rendered its artifacts and written them. -/
theorem Command.exists_written_of_run {c : Command} {t : FileTree} (hverb : c.verb = .generate) (h : (c.run t).1.code = successCode) :
    ∃ artifacts w, (c.render t).outcome = .ok artifacts ∧ (Artifact.write artifacts t).1.outcome = .ok w := by
  unfold Command.run Command.perform at h
  cases hrender : (c.render t).outcome with
  | error f =>
    simp only [hrender] at h
    cases h
  | ok artifacts =>
    simp only [hrender, hverb, writeArtifacts] at h
    cases hwrite : (Artifact.write artifacts t).1.outcome with
    | error f =>
      simp only [hwrite] at h
      cases h
    | ok w => exact ⟨artifacts, w, rfl, hwrite⟩

/-- Generating what is current reports every artifact as up to date and writes none. -/
theorem Command.run_generate_of_current {c : Command} {t : FileTree} {artifacts : List Artifact} (hverb : c.verb = .generate)
    (hrender : (c.render t).outcome = .ok artifacts) (hcurrent : ∀ a ∈ artifacts, a.isCurrent t = true) :
    c.run t = (⟨successCode, c.admitted ((c.render t).notices ++ (artifacts.map (fun a => .upToDate a.path) ++
      [.filesWritten 0 artifacts.length])), ""⟩, t.discardStaged) := by
  have hwrite := Artifact.write_of_current hcurrent
  rw [Command.run_generate_of_written hverb hrender (by rw [hwrite]), hwrite, List.length_map, List.length_nil]

/-- Checking what is current succeeds and leaves the tree alone. -/
theorem Command.run_check_of_current {c : Command} {t : FileTree} {artifacts : List Artifact} (hverb : c.verb = .check)
    (hrender : (c.render t).outcome = .ok artifacts) (hcurrent : ∀ a ∈ artifacts, a.isCurrent t = true) :
    c.run t = (⟨successCode, c.admitted ((c.render t).notices ++ [.allUpToDate]), ""⟩, t) := by
  have hcheck := Artifact.check_eq_nil_iff.2 hcurrent
  unfold Command.run Command.perform Command.admitted
  simp only [hrender, hverb, checkArtifacts, hcheck]

/-- When a generating run succeeds, its output paths in use name different files and no catalog is one of them, then nothing but the files
of its artifacts and the directories around them has changed. On the tree that it leaves, checking with the same arguments succeeds, and
generating again succeeds and reports every artifact as up to date and none as written; neither changes anything. -/
theorem regeneration_changes_nothing {env : Environment} {args : List String} {c : Command} {t : FileTree} (ht : t.WellFormed)
    (hparse : parse? env args = some (.run c)) (hverb : c.verb = .generate)
    (hapart : (c.paths.used c.options).Pairwise fun p q => p.place t.start ≠ q.place t.start)
    (hcatalogs : ∀ p ∈ Catalog.splitPaths c.catalogs, ∀ q ∈ c.paths.used c.options, p.place t.start ≠ q.place t.start)
    (hdone : (run env args t).1.code = successCode) :
    ∃ artifacts, (c.render t).outcome = .ok artifacts ∧ artifacts.map Artifact.path = c.paths.used c.options ∧
      OnlyArtifactsChanged t artifacts (run env args t).2 ∧
      run env (withVerb .check args) (run env args t).2 =
        (⟨successCode, c.admitted ((c.render t).notices ++ [.allUpToDate]), ""⟩, (run env args t).2) ∧
      run env args (run env args t).2 =
        (⟨successCode, c.admitted ((c.render t).notices ++ (artifacts.map (fun a => .upToDate a.path) ++
          [.filesWritten 0 artifacts.length])), ""⟩, (run env args t).2) := by
  have hgenerate : ∀ u, run env args u = c.run u := by
    intro u
    rw [run, hparse]
  have hcheck : ∀ u, run env (withVerb .check args) u = Command.run { c with verb := .check } u := by
    intro u
    rw [run, parse?_withVerb .check hparse]
  rw [hgenerate] at hdone
  obtain ⟨artifacts, w, hrender, hwrite⟩ := Command.exists_written_of_run hverb hdone
  have hleft : (c.run t).2 = (Artifact.write artifacts t).2 := by rw [Command.run_generate_of_written hverb hrender hwrite]
  have hpaths : artifacts.map Artifact.path = c.paths.used c.options := Generation.map_path_of_fromFiles hrender
  have hfree : ∀ p ∈ Catalog.splitPaths c.catalogs, ∀ a ∈ artifacts, p.place t.start ≠ a.path.place t.start := by
    intro p hp a ha
    exact hcatalogs p hp a.path (hpaths ▸ List.mem_map_of_mem ha)
  rw [← hpaths, List.pairwise_map] at hapart
  obtain ⟨j, hleaves, hcurrent⟩ := Artifact.write_makes_current ht hapart hwrite
  have hdiscard := Artifact.discardStaged_write t artifacts
  rw [← hleft] at hleaves hcurrent hdiscard
  rw [hcheck, hgenerate, hgenerate]
  -- The catalogs read as before, so the second run renders the same artifacts.
  have hsame : c.render (c.run t).2 = c.render t := by
    refine Generation.fromFiles_congr (fun p hp => ?_) c.options c.paths
    obtain ⟨text, htext⟩ := Generation.exists_text_of_fromFiles hrender hp
    exact (hleaves.readText_eq (hfree p hp) htext).trans htext.symm
  have hrender' : (c.render (c.run t).2).outcome = .ok artifacts := by rw [hsame, hrender]
  refine ⟨artifacts, hrender, hpaths, ⟨fun a ha => ?_, fun p hp => hleaves.at?_of_ne hp⟩, ?_, ?_⟩
  · rw [← hleaves.start]
    exact FileTree.fileAt?_eq_some_iff.1 (Artifact.fileAt?_of_isCurrent (hcurrent a ha)).2
  · rw [← hsame]
    exact Command.run_check_of_current rfl hrender' hcurrent
  · rw [Command.run_generate_of_current hverb hrender' hcurrent, hsame, hdiscard]

/-- A catalog with one device type, and no directory yet for the records header. -/
theorem regeneration_changes_nothing_new_directory :
    let text := "\x7b\"devTypes\":\x7b\"A\":[]\x7d\x7d"
    let t := ({} : FileTree).set [.given "c.json"] (.file text.toUTF8)
    let args := ["-v", "devtypes-gen", "c.json", "t.h", "out/p.h"]
    let u := (run [] args t).2
    withVerb .check args = ["-v", "devtypes-check", "c.json", "t.h", "out/p.h"] ∧
      (∃ artifacts, artifacts.map Artifact.path = [⟨"out/p.h"⟩, ⟨"t.h"⟩] ∧ OnlyArtifactsChanged t artifacts u) ∧
      (run [] (withVerb .check args) u).1.code = successCode ∧ (run [] (withVerb .check args) u).2 = u ∧
      (run [] args u).1.code = successCode ∧ (run [] args u).2 = u := by
  intro text t args u
  let c : Command := ⟨.generate, .detailed, "c.json", {}, ⟨⟨"t.h"⟩, ⟨"out/p.h"⟩, none, none, none⟩⟩
  have ht : t.WellFormed := by
    refine FileTree.wellFormed_empty.set rfl fun h => ?_
    cases h
  have hparse : parse? [] args = some (.run c) := rfl
  have hroot : Json.parse text = .ok (.object [("devTypes", .object [("A", .array [])])]) := by decide +kernel
  have htext : catalogSource t ⟨"c.json"⟩ = .ok text := by
    unfold catalogSource
    decide +kernel
  have hread : (Catalog.read (catalogSource t) ⟨"c.json"⟩).outcome = .ok [("A", {})] :=
    (Catalog.outcome_read_object htext hroot rfl).2 (.cons ⟨rfl, rfl⟩ .nil)
  have hreads : ([⟨"c.json"⟩].mapM fun p => (Catalog.read (catalogSource t) p).outcome) = .ok [[("A", {})]] :=
    Outcome.mapM_eq_ok_iff.2 (.cons hread .nil)
  have hload : (Catalog.load (catalogSource t) [⟨"c.json"⟩]).outcome = .ok [{ key := "A" }] := by
    rw [Catalog.outcome_load, hreads]
    rfl
  obtain ⟨_, hvalid⟩ : ∃ u, c.options.validate = .ok u := Outcome.isOk_eq_true_iff.1 (by decide +kernel)
  have hsplit : Catalog.splitPaths "c.json" = [⟨"c.json"⟩] := by decide +kernel
  have hlist : Generation.catalogPaths "c.json" = .ok [⟨"c.json"⟩] := by
    rw [Generation.catalogPaths_eq_ok (hsplit ▸ List.cons_ne_nil _ _), hsplit]
  have hrender : (c.render t).outcome = (Generation.fromDevices [{ key := "A" }] c.options c.paths).outcome :=
    Generation.outcome_fromFiles_of_load hvalid hlist hload c.paths
  have hwrites : ((Generation.fromDevices [{ key := "A" }] c.options c.paths).outcome >>= fun artifacts =>
      (Artifact.write artifacts t).1.outcome).isOk = true := by decide +kernel
  have hdone : (run [] args t).1.code = successCode := by
    obtain ⟨w, hw⟩ := Outcome.isOk_eq_true_iff.1 hwrites
    obtain ⟨artifacts, hartifacts, hwrite⟩ := Outcome.bind_eq_ok_iff.1 hw
    rw [run, hparse]
    simp only
    rw [Command.run_generate_of_written rfl (hrender.trans hartifacts) hwrite]
  obtain ⟨artifacts, -, hpaths, hchanged, hcheck, hagain⟩ :=
    regeneration_changes_nothing ht hparse rfl (by decide +kernel) (by decide +kernel) hdone
  refine ⟨by decide +kernel, ⟨artifacts, hpaths, hchanged⟩, ?_, ?_, ?_, ?_⟩
  · rw [hcheck]
  · rw [hcheck]
  · rw [hagain]
  · rw [hagain]

end CommandLine

end DeviceCatalog
