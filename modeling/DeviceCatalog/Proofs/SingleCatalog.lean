import DeviceCatalog.Proofs.DistinctKeys
import DeviceCatalog.Proofs.Loading

/-!
# A catalog in memory is a catalog of one file

Loading merges what it reads, and a catalog held in memory is resolved as it stands. For a single catalog that makes no difference:
the keys of an object are distinct, so the merge gives its entries back as they were. A failure of the one names another path than a
failure of the other, and nothing else of it differs.
-/

namespace DeviceCatalog

/-! ## Distinct keys survive the merge -/

namespace Merged

theorem eraseDups_of_nodup {keys : List String} (h : keys.Nodup) : keys.eraseDups = keys := by
  induction keys with
  | nil => rfl
  | cons key keys ih =>
    obtain ⟨hkey, hkeys⟩ := List.nodup_cons.1 h
    have hfilter : (keys.filter fun k => !k == key) = keys := by
      rw [List.filter_eq_self]
      intro k hk
      have hne : k ≠ key := fun heq => hkey (heq ▸ hk)
      simp [hne]
    rw [List.eraseDups_cons, hfilter, ih hkeys]

/-- Definitions of distinct keys are all left, in their order. -/
theorem survivors_of_nodup {defs : List Definition} (h : (defs.map Prod.fst).Nodup) : survivors defs = defs := by
  have hlast : ∀ d ∈ defs, ((lastDefinition? defs d.1).map fun v => (d.1, v)) = some d := by
    intro d hd
    obtain ⟨before, after, rfl⟩ := List.append_of_mem hd
    have hafter : d.1 ∉ after.map Prod.fst := by
      rw [List.map_append, List.map_cons] at h
      exact (List.nodup_cons.1 (List.nodup_append.1 h).2.1).1
    rw [lastDefinition?_eq_some_iff.2 ⟨before, after, rfl, hafter⟩]
    rfl
  rw [survivors, eraseDups_of_nodup h, List.filterMap_map]
  exact (List.filterMap_congr hlast).trans List.filterMap_some

end Merged

/-! ## Failures at another path -/

/-- The failure with another path for the catalog that it names, if it names one. -/
def Failure.locatedAt (p : Path) : Failure → Failure
  | .catalog _ cause => .catalog p cause
  | f => f

/-- An entry resolves to the same from any file, but a failure names the file. -/
theorem Entry.outcome_resolve_locatedAt (e : Entry) (key : String) (p q : Path) :
    (e.resolve key p).outcome = (e.resolve key q).outcome.mapError (Failure.locatedAt p) := by
  simp only [resolve, Logged.outcome_bind, Logged.outcome_mapError, Logged.outcome_pure, Outcome.mapError_bind]
  cases haddresses : (Address.readSpec e.addresses).outcome with
  | error f =>
    obtain ⟨token, -, rfl⟩ := Address.outcome_readSpec_eq_error_iff.1 haddresses
    rfl
  | ok addresses => cases (Response.ofDeviceInfo e.deviceInfo).outcome <;> rfl

namespace Catalog

/-- A text is the same catalog in any file, but a failure names the file. -/
theorem outcome_ofText_locatedAt (text : String) (p q : Path) :
    (ofText p text).outcome = (ofText q text).outcome.mapError (Failure.locatedAt p) := by
  unfold ofText
  cases Json.parse text with
  | error d => rfl
  | ok root =>
    simp only [ofJson]
    split
    · rfl
    · rw [Logged.outcome_mapM, Logged.outcome_mapM, Outcome.mapError_mapM]
      refine congrArg (List.mapM · _) (funext fun m => ?_)
      simp only [decodeMember, Logged.outcome_bind, Logged.outcome_mapError]
      cases (Entry.decode m.2).outcome <;> rfl
    · rfl

/-- The device types of a text without a merge, as a catalog at the path. -/
theorem outcome_mapM_resolve_locatedAt (text : String) (p q : Path) :
    ((ofText p text).outcome >>= fun catalog => catalog.mapM fun x => (x.2.resolve x.1 p).outcome) =
      ((ofText q text).outcome >>= fun catalog => catalog.mapM fun x => (x.2.resolve x.1 q).outcome).mapError
        (Failure.locatedAt p) := by
  rw [Outcome.mapError_bind, outcome_ofText_locatedAt text p q]
  refine congrArg (_ >>= ·) (funext fun catalog => ?_)
  rw [Outcome.mapError_mapM]
  exact congrArg (List.mapM · catalog) (funext fun x => x.2.outcome_resolve_locatedAt x.1 p q)

/-! ## One catalog -/

theorem Decodes.map_fst_eq {members : List (String × Json)} {catalog : Catalog} (h : Decodes members catalog) :
    catalog.map Prod.fst = members.map Prod.fst := by
  unfold Decodes at h
  induction h with
  | nil => rfl
  | cons hfirst _ ih => rw [List.map_cons, List.map_cons, hfirst.1, ih]

/-- The entries of a text have distinct keys, whatever keys are repeated in it. -/
theorem nodup_keys_of_ofText {p : Path} {text : String} {catalog : Catalog} (h : (ofText p text).outcome = .ok catalog) :
    (catalog.map Prod.fst).Nodup := by
  have hholds : Holds (fun _ => .ok text) p catalog := outcome_read_eq_ok_iff.1 h
  obtain ⟨_, root, htext, hroot, ⟨-, rfl⟩ | ⟨members, hmembers, hdecodes⟩⟩ := hholds
  · exact List.nodup_nil
  · rw [hdecodes.map_fst_eq]
    exact (Json.keysDistinct_object_iff.1 ((Json.keysDistinct_of_parse hroot).member? hmembers)).1

/-- A single catalog is resolved entry by entry: the merge leaves it as it is. -/
theorem outcome_load_singleton {source : Source} {p : Path} {text : String} (h : source p = .ok text) :
    (load source [p]).outcome =
      (ofText p text).outcome >>= fun catalog => catalog.mapM fun x => (x.2.resolve x.1 p).outcome := by
  have hread : read source p = ofText p text := by rw [read, h]
  rw [outcome_load, List.mapM_cons, List.mapM_nil, hread]
  cases hcatalog : (ofText p text).outcome with
  | error f => rfl
  | ok catalog =>
    have hdefs : definitions [(p, catalog)] = catalog.map fun x => (x.1, p, x.2) := by
      simp [definitions]
    have hnodup : ((definitions [(p, catalog)]).map Prod.fst).Nodup := by
      rw [hdefs, List.map_map]
      exact nodup_keys_of_ofText hcatalog
    show (Merged.survivors (definitions [(p, catalog)])).mapM _ = _
    rw [Merged.survivors_of_nodup hnodup, hdefs, List.mapM_map]
    rfl

/-- Parsing a text decodes it and resolves its entries. -/
theorem outcome_parse (text : String) :
    (parse text).outcome =
      (ofText inMemory text).outcome >>= fun catalog => catalog.mapM fun x => (x.2.resolve x.1 inMemory).outcome := by
  rw [parse, Logged.outcome_bind]
  exact congrArg (_ >>= ·) (funext fun catalog => Logged.outcome_mapM _ catalog)

/-- A text in memory comes to what a single file with this text comes to: the same device types in the same order, or the same
failure but for the path of the catalog that it names. -/
theorem parse_agrees_with_load {source : Source} {p : Path} {text : String} (h : source p = .ok text) :
    (load source [p]).outcome = (parse text).outcome.mapError (Failure.locatedAt p) ∧
    (parse text).outcome = (load source [p]).outcome.mapError (Failure.locatedAt inMemory) := by
  rw [outcome_load_singleton h, outcome_parse]
  exact ⟨outcome_mapM_resolve_locatedAt text p inMemory, outcome_mapM_resolve_locatedAt text inMemory p⟩

/-- A key is written twice and another entry has a number as its device info, so both end with the failure of that entry. -/
theorem parse_agrees_with_load_repeated_key :
    let text := "\x7b\"devTypes\":\x7b\"A\":[\"\",\"ten\"],\"B\":\x7b\"devInfoJson\":5\x7d,\"A\":[]\x7d\x7d"
    let source : Source := fun _ => .ok text
    let cause := SchemaFault.deviceInfo "B" (.wrongType (.number (.integer 5)) .deviceInfo)
    (load source [⟨"types.json"⟩]).outcome = .error (.catalog ⟨"types.json"⟩ (.schema cause)) ∧
    (parse text).outcome = .error (.catalog inMemory (.schema cause)) := by
  intro text source cause
  have htext : source ⟨"types.json"⟩ = .ok text := rfl
  obtain ⟨hload, -⟩ := parse_agrees_with_load htext
  have hroot : Json.parse text =
      .ok (.object [("devTypes", .object [("A", .array []), ("B", .object [("devInfoJson", .number (.integer 5))])])]) := by
    decide +kernel
  have hparse : (parse text).outcome = .error (.catalog inMemory (.schema cause)) := by
    unfold parse ofText
    rw [hroot]
    rfl
  exact ⟨by rw [hload, hparse]; rfl, hparse⟩

end Catalog

end DeviceCatalog
