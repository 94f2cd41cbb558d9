import DeviceCatalog.Proofs.Merge
import DeviceCatalog.Proofs.ReadValues

/-!
# Loading catalogs

Loading reads every catalog, merges them and resolves what survives, each step in order (`outcome_load`), so it fails with the
first file that is refused or, when all are read, with the first surviving entry that is faulty. Entries that a later catalog
hides have no say in it: two runs whose definitions differ only in such entries (`SameButHidden`) come to the same.
-/

namespace DeviceCatalog

namespace Catalog

/-- Merging reads every catalog and inserts all definitions, in order. -/
theorem outcome_mergeFrom (source : Source) (m : Merged) (paths : List Path) :
    (mergeFrom source m paths).outcome = (paths.mapM fun p => (read source p).outcome) >>= fun catalogs =>
      .ok (m.insertAll (definitions (paths.zip catalogs))) := by
  simp only [← Merged.foldl_add]
  unfold mergeFrom
  induction paths generalizing m with
  | nil => rfl
  | cons p paths ih =>
    rw [List.foldlM_cons, List.mapM_cons, Logged.outcome_bind, Logged.outcome_bind, bind_assoc, bind_assoc]
    refine congrArg ((read source p).outcome >>= ·) (funext fun catalog => ?_)
    rw [bind_assoc]
    refine (ih (m.add p catalog)).trans ?_
    refine congrArg ((paths.mapM fun p => (read source p).outcome) >>= ·) (funext fun catalogs => ?_)
    rfl

/-- The device types of a merge come from its definitions, one after the other. -/
theorem outcome_resolve (m : Merged) :
    m.resolve.outcome = m.toList.mapM fun (key, source, entry) => (entry.resolve key source).outcome := by
  rw [Merged.resolve, Logged.outcome_mapM]
  refine Eq.trans ?_ (congrArg (List.mapM _) (List.zipIdx_map_fst 0 m.toList))
  rw [List.mapM_map]
  refine congrArg (m.toList.zipIdx.mapM ·) (funext ?_)
  rintro ⟨⟨key, source, entry⟩, i⟩
  simp only [Logged.outcome_bind, Logged.outcome_note, Logged.outcome_pure, Function.comp]
  cases (entry.resolve key source).outcome <;> rfl

/-- Loading reads all catalogs, then resolves what is left of their definitions. -/
theorem outcome_load (source : Source) (paths : List Path) :
    (load source paths).outcome = (paths.mapM fun p => (read source p).outcome) >>= fun catalogs =>
      (Merged.survivors (definitions (paths.zip catalogs))).mapM fun (key, source, entry) => (entry.resolve key source).outcome := by
  rw [load, Logged.outcome_bind, outcome_mergeFrom, bind_assoc]
  refine congrArg ((paths.mapM fun p => (read source p).outcome) >>= ·) (funext fun catalogs => ?_)
  refine (outcome_resolve _).trans ?_
  rw [Merged.toList_insertAll]

/-! ## Success and failure -/

/-- Every path holds a catalog, and these entries survive the merge of all of them. -/
def Surviving (source : Source) (paths : List Path) (defs : List Definition) : Prop :=
  ∃ catalogs, List.Forall₂ (Holds source) paths catalogs ∧ LastWins (paths.zip catalogs) defs

/-- Every path holds a catalog, and the surviving entries resolve to these device types. -/
def Loads (source : Source) (paths : List Path) (devices : List DeviceType) : Prop :=
  ∃ defs, Surviving source paths defs ∧ List.Forall₂ (fun d device => d.2.2.Resolves d.1 device) defs devices

/-- What loading comes to is what the declarative description says. -/
theorem outcome_load_eq_ok_iff {source : Source} {paths : List Path} {devices : List DeviceType} :
    (load source paths).outcome = .ok devices ↔ Loads source paths devices := by
  simp only [outcome_load, Outcome.bind_eq_ok_iff, Outcome.mapM_eq_ok_iff, outcome_read_eq_ok_iff, Entry.outcome_resolve_eq_ok_iff]
  constructor
  · intro h
    obtain ⟨catalogs, hcatalogs, hresolve⟩ := h
    exact ⟨_, ⟨catalogs, hcatalogs, lastWins_survivors _⟩, hresolve⟩
  · intro h
    obtain ⟨_, ⟨catalogs, hcatalogs, hlast⟩, hresolve⟩ := h
    rw [hlast.eq_survivors] at hresolve
    exact ⟨catalogs, hcatalogs, hresolve⟩

/-- Loading fails with the first file that is refused, or, when all are read, with the first surviving entry that is faulty. -/
theorem outcome_load_eq_error_iff {source : Source} {paths : List Path} {f : Failure} :
    (load source paths).outcome = .error f ↔
      (∃ before p after cause, paths = before ++ p :: after ∧ (∀ q ∈ before, ∃ catalog, Holds source q catalog) ∧
        Refuses source p cause ∧ f = .catalog p cause) ∨
      ∃ before d after, Surviving source paths (before ++ d :: after) ∧
        (∀ x ∈ before, ∃ device, Entry.Resolves x.2.2 x.1 device) ∧ d.2.2.Faulty d.1 d.2.1 f := by
  simp only [outcome_load, Outcome.bind_eq_error_iff, Outcome.mapM_eq_error_iff, Outcome.mapM_eq_ok_iff, outcome_read_eq_ok_iff,
    outcome_read_eq_error_iff, Entry.outcome_resolve_eq_ok_iff, Entry.outcome_resolve_eq_error_iff]
  constructor
  · intro h
    rcases h with ⟨before, p, after, hsplit, hbefore, cause, hcause, rfl⟩ | ⟨catalogs, hcatalogs, hfault⟩
    · exact Or.inl ⟨before, p, after, cause, hsplit, hbefore, hcause, rfl⟩
    · obtain ⟨before, d, after, hsplit, hbefore, hd⟩ := hfault
      exact Or.inr ⟨before, d, after, ⟨catalogs, hcatalogs, lastWins_iff.2 hsplit.symm⟩, hbefore, hd⟩
  · intro h
    rcases h with ⟨before, p, after, cause, hsplit, hbefore, hcause, rfl⟩ | ⟨before, d, after, hdefs, hbefore, hd⟩
    · exact Or.inl ⟨before, p, after, hsplit, hbefore, cause, hcause, rfl⟩
    · obtain ⟨catalogs, hcatalogs, hlast⟩ := hdefs
      exact Or.inr ⟨catalogs, hcatalogs, before, d, after, hlast.eq_survivors.symm, hbefore, hd⟩

/-- A device type has the key of its entry. -/
theorem map_key_eq {defs : List Definition} {devices : List DeviceType}
    (h : List.Forall₂ (fun d device => d.2.2.Resolves d.1 device) defs devices) :
    devices.map DeviceType.key = defs.map Prod.fst := by
  induction h with
  | nil => rfl
  | cons hfirst _ ih =>
    obtain ⟨addresses, response, -, -, rfl⟩ := hfirst
    rw [List.map_cons, List.map_cons, ih]
    rfl

/-- The merge leaves every key once, so loaded device types have different keys. -/
theorem Loads.keys_nodup {source : Source} {paths : List Path} {devices : List DeviceType} (h : Loads source paths devices) :
    (devices.map DeviceType.key).Nodup := by
  obtain ⟨defs, ⟨catalogs, -, hlast⟩, hresolve⟩ := h
  rw [map_key_eq hresolve]
  exact hlast.nodup

end Catalog

/-! ## Hidden entries -/

/-- The definitions are the same but for entries of keys that are defined again later. -/
inductive SameButHidden : List Definition → List Definition → Prop where
  | nil : SameButHidden [] []
  | same {defs defs' : List Definition} (d : Definition) (h : SameButHidden defs defs') : SameButHidden (d :: defs) (d :: defs')
  | hidden {defs defs' : List Definition} (key : String) (source : Path) (entry entry' : Entry) (hkey : key ∈ defs.map Prod.fst)
      (h : SameButHidden defs defs') : SameButHidden ((key, source, entry) :: defs) ((key, source, entry') :: defs')

namespace SameButHidden

variable {defs defs' : List Definition}

theorem map_fst_eq (h : SameButHidden defs defs') : defs'.map Prod.fst = defs.map Prod.fst := by
  induction h with
  | nil => rfl
  | same d _ ih => rw [List.map_cons, List.map_cons, ih]
  | hidden key source entry entry' _ _ ih => rw [List.map_cons, List.map_cons, ih]

/-- A hidden entry is nobody's last one. -/
theorem lastDefinition?_eq (h : SameButHidden defs defs') (key : String) : lastDefinition? defs' key = lastDefinition? defs key := by
  induction h with
  | nil => rfl
  | same d _ ih => rw [← List.singleton_append, lastDefinition?_append, ih, ← lastDefinition?_append, List.singleton_append]
  | @hidden defs defs' k source entry entry' hk _ ih =>
    rw [← List.singleton_append, lastDefinition?_append, ih, ← List.singleton_append (x := (k, source, entry)),
      lastDefinition?_append]
    cases hlast : lastDefinition? defs key with
    | some v => rfl
    | none =>
      have hne : (key == k) = false := by
        refine beq_eq_false_iff_ne.2 ?_
        rintro rfl
        exact lastDefinition?_eq_none_iff.1 hlast hk
      simp only [lastDefinition?, List.reverse_singleton, List.lookup_cons, List.lookup_nil, hne]

/-- The same definitions survive. -/
theorem survivors_eq (h : SameButHidden defs defs') : Merged.survivors defs' = Merged.survivors defs := by
  rw [Merged.survivors, Merged.survivors, h.map_fst_eq]
  exact List.filterMap_congr fun key _ => by rw [h.lastDefinition?_eq]

/-- A catalog in front of the definitions may change where they hide it. -/
theorem prepend (h : SameButHidden defs defs') (source : Path) {catalog catalog' : Catalog}
    (hcatalog : List.Forall₂ (fun x x' => x'.1 = x.1 ∧ (x'.2 = x.2 ∨ x.1 ∈ defs.map Prod.fst)) catalog catalog') :
    SameButHidden (catalog.map (fun (key, entry) => (key, source, entry)) ++ defs)
      (catalog'.map (fun (key, entry) => (key, source, entry)) ++ defs') := by
  induction hcatalog with
  | nil => exact h
  | @cons x x' _ _ hx _ ih =>
    obtain ⟨key, entry⟩ := x
    obtain ⟨key', entry'⟩ := x'
    obtain ⟨rfl, hentry | hkey⟩ := hx
    · cases hentry
      exact same _ ih
    · refine hidden _ _ _ _ ?_ ih
      obtain ⟨d, hd, hfst⟩ := List.mem_map.1 hkey
      exact List.mem_map.2 ⟨d, List.mem_append_right _ hd, hfst⟩

end SameButHidden

namespace Catalog

/-! ## Replacing hidden entries -/

/-- Some bodies of `devTypes` are replaced by other bodies of entries, all of them under hidden keys. -/
def ReplacesHidden (hidden : String → Prop) (text text' : String) : Prop :=
  ∃ root root' members members', Json.parse text = .ok root ∧ Json.parse text' = .ok root' ∧
    root.member? "devTypes" = some (.object members) ∧ root'.member? "devTypes" = some (.object members') ∧
    List.Forall₂ (fun m m' => m'.1 = m.1 ∧ (m'.2 = m.2 ∨ hidden m.1 ∧ ∃ entry, (Entry.decode m'.2).outcome = .ok entry))
      members members'

/-- One of the catalogs at the paths has an entry under the key. -/
def Defines (source : Source) (paths : List Path) (key : String) : Prop :=
  ∃ p ∈ paths, ∃ catalog, (read source p).outcome = .ok catalog ∧ key ∈ catalog.map Prod.fst

/-- A catalog whose `devTypes` is an object reads as the entries of its members. -/
theorem outcome_read_object {source : Source} {p : Path} {text : String} {root : Json} {members : List (String × Json)}
    {catalog : Catalog} (htext : source p = .ok text) (hroot : Json.parse text = .ok root)
    (hmembers : root.member? "devTypes" = some (.object members)) :
    (read source p).outcome = .ok catalog ↔ Decodes members catalog := by
  rw [outcome_read_eq_ok_iff]
  constructor
  · intro h
    obtain ⟨_, _, htext', hroot', h⟩ := h
    cases htext.symm.trans htext'
    cases hroot.symm.trans hroot'
    rcases h with ⟨hnone, -⟩ | ⟨_, hmembers', h⟩
    · rw [hmembers] at hnone
      cases hnone
    · cases hmembers.symm.trans hmembers'
      exact h
  · intro h
    exact ⟨text, root, htext, hroot, Or.inr ⟨members, hmembers, h⟩⟩

/-- After such a replacement the text still reads, and its entries have changed under hidden keys only. -/
theorem ReplacesHidden.read {hidden : String → Prop} {source source' : Source} {p : Path} {text text' : String}
    (h : ReplacesHidden hidden text text') (htext : source p = .ok text) (htext' : source' p = .ok text') {catalog : Catalog}
    (hread : (Catalog.read source p).outcome = .ok catalog) :
    ∃ catalog', (Catalog.read source' p).outcome = .ok catalog' ∧
      List.Forall₂ (fun x x' => x'.1 = x.1 ∧ (x'.2 = x.2 ∨ hidden x.1)) catalog catalog' := by
  obtain ⟨root, root', members, members', hroot, hroot', hmembers, hmembers', hreplaced⟩ := h
  rw [outcome_read_object htext hroot hmembers] at hread
  simp only [outcome_read_object htext' hroot' hmembers']
  clear hmembers hmembers'
  induction hreplaced generalizing catalog with
  | nil =>
    cases hread
    exact ⟨[], .nil, .nil⟩
  | @cons m m' _ _ hm _ ih =>
    obtain ⟨x, rest, ⟨hkey, hentry⟩, hrest, rfl⟩ := List.forall₂_cons_left_iff.1 hread
    obtain ⟨rest', hread', hsame⟩ := ih hrest
    obtain ⟨hkey', hbody | ⟨hhidden, entry, hentry'⟩⟩ := hm
    · refine ⟨x :: rest', .cons ⟨hkey.trans hkey'.symm, ?_⟩ hread', .cons ⟨rfl, Or.inl rfl⟩ hsame⟩
      rw [hbody]
      exact hentry
    · refine ⟨(x.1, entry) :: rest', .cons ⟨hkey.trans hkey'.symm, hentry'⟩ hread', .cons ⟨rfl, Or.inr ?_⟩ hsame⟩
      rw [hkey]
      exact hhidden

/-- A catalog that was read is among those that were read, at its path. -/
theorem mem_zip_of_read {source : Source} {paths : List Path} {catalogs : List Catalog} {p : Path} {catalog : Catalog}
    (h : List.Forall₂ (fun p c => (read source p).outcome = .ok c) paths catalogs) (hp : p ∈ paths)
    (hread : (read source p).outcome = .ok catalog) : (p, catalog) ∈ paths.zip catalogs := by
  induction h with
  | nil => cases hp
  | cons hfirst _ ih =>
    rw [List.zip_cons_cons]
    rcases List.mem_cons.1 hp with rfl | hp
    · cases hfirst.symm.trans hread
      exact List.mem_cons_self
    · exact List.mem_cons_of_mem _ (ih hp)

/-- Texts that replace entries hidden by later catalogs read as definitions that are the same but for hidden ones. -/
theorem sameButHidden_of_replaces {source source' : Source} {paths : List Path} {catalogs : List Catalog}
    (h : List.Forall₂ (fun p c => (read source p).outcome = .ok c) paths catalogs)
    (hreplaced : ∀ before p after, paths = before ++ p :: after → source' p = source p ∨
      ∃ text text', source p = .ok text ∧ source' p = .ok text' ∧ ReplacesHidden (Defines source after) text text') :
    ∃ catalogs', List.Forall₂ (fun p c => (read source' p).outcome = .ok c) paths catalogs' ∧
      SameButHidden (definitions (paths.zip catalogs)) (definitions (paths.zip catalogs')) := by
  induction h with
  | nil => exact ⟨[], .nil, .nil⟩
  | @cons p catalog paths catalogs hread hrest ih =>
    obtain ⟨catalogs', hread', hsame⟩ := ih fun before q after hsplit => hreplaced (p :: before) q after (by rw [hsplit]; rfl)
    have hfirst : ∃ catalog', (read source' p).outcome = .ok catalog' ∧
        List.Forall₂ (fun x x' => x'.1 = x.1 ∧ (x'.2 = x.2 ∨ Defines source paths x.1)) catalog catalog' := by
      rcases hreplaced [] p paths rfl with hsource | ⟨text, text', htext, htext', hreplaces⟩
      · refine ⟨catalog, ?_, List.forall₂_same.2 fun x _ => ⟨rfl, Or.inl rfl⟩⟩
        rw [← hread, read, read, hsource]
      · exact hreplaces.read htext htext' hread
    obtain ⟨catalog', hcatalog', hhidden⟩ := hfirst
    have hdefines : ∀ key, Defines source paths key → key ∈ (definitions (paths.zip catalogs)).map Prod.fst := by
      rintro key ⟨q, hq, c, hc, hkey⟩
      rw [map_fst_definitions]
      exact List.mem_flatMap.2 ⟨(q, c), mem_zip_of_read hrest hq hc, hkey⟩
    refine ⟨catalog' :: catalogs', .cons hcatalog' hread', ?_⟩
    exact hsame.prepend p (hhidden.imp fun x x' hx => ⟨hx.1, hx.2.imp_right (hdefines x.1)⟩)

/-- Loading catalogs that all read gives every key once, at the place of its first appearance, with the entry of the last catalog that
defines it and with that catalog as the source, which is the one that a fault of the device info names. Replacing hidden entries by
other ones, whatever their addresses and device infos are, changes neither the device types nor the failure. -/
theorem load_last_definition_wins (source : Source) (paths : List Path) (catalogs : List Catalog)
    (h : List.Forall₂ (fun p c => (read source p).outcome = .ok c) paths catalogs) :
    (∃ m, (mergeFrom source .empty paths).outcome = .ok m ∧ LastWins (paths.zip catalogs) m.toList ∧
      (load source paths).outcome = m.toList.mapM fun (key, p, entry) => (entry.resolve key p).outcome) ∧
    (∀ p key cause, (load source paths).outcome = .error (.catalog p (.schema (.deviceInfo key cause))) →
      ∃ entry, LastDefinition (paths.zip catalogs) key p entry) ∧
    ∀ source' : Source,
      (∀ before p after, paths = before ++ p :: after → source' p = source p ∨
        ∃ text text', source p = .ok text ∧ source' p = .ok text' ∧ ReplacesHidden (Defines source after) text text') →
      (load source' paths).outcome = (load source paths).outcome := by
  have hreads : (paths.mapM fun p => (read source p).outcome) = .ok catalogs := Outcome.mapM_eq_ok_iff.2 h
  have hload : (load source paths).outcome =
      (Merged.survivors (definitions (paths.zip catalogs))).mapM fun (key, p, entry) => (entry.resolve key p).outcome := by
    rw [outcome_load, hreads]
    rfl
  have hlast := lastWins_survivors (paths.zip catalogs)
  refine ⟨⟨Merged.empty.insertAll (definitions (paths.zip catalogs)), ?_, ?_, ?_⟩, ?_, ?_⟩
  · rw [outcome_mergeFrom, hreads]
    rfl
  · rw [Merged.toList_insertAll]
    exact hlast
  · rw [Merged.toList_insertAll, hload]
  · intro p key cause herror
    rw [hload] at herror
    obtain ⟨before, ⟨key', p', entry⟩, after, hsplit, -, hresolve⟩ := Outcome.mapM_eq_error_iff.1 herror
    have hmem : (key', p', entry) ∈ Merged.survivors (definitions (paths.zip catalogs)) := by
      rw [hsplit]
      exact List.mem_append_right _ List.mem_cons_self
    cases Entry.outcome_resolve_eq_error_iff.1 hresolve with
    | deviceInfo => exact ⟨entry, hlast.last _ _ _ hmem⟩
  · intro source' hreplaced
    obtain ⟨catalogs', hread', hsame⟩ := sameButHidden_of_replaces h hreplaced
    rw [hload, outcome_load, Outcome.mapM_eq_ok_iff.2 hread', ← hsame.survivors_eq]
    rfl

/-- Two catalogs define the same key, so the address spec of the first one may as well be malformed. -/
theorem load_hidden_addresses :
    let plain := "\x7b\"devTypes\":\x7b\"A\":[]\x7d\x7d"
    let malformed := "\x7b\"devTypes\":\x7b\"A\":[\"\",\"ten\"]\x7d\x7d"
    let source : Source := fun _ => .ok plain
    let source' : Source := fun p => if p = ⟨"a"⟩ then .ok malformed else .ok plain
    (∃ m, (mergeFrom source .empty [⟨"a"⟩, ⟨"b"⟩]).outcome = .ok m ∧
      LastWins [(⟨"a"⟩, [("A", {})]), (⟨"b"⟩, [("A", {})])] m.toList) ∧
    (load source' [⟨"a"⟩, ⟨"b"⟩]).outcome = (load source [⟨"a"⟩, ⟨"b"⟩]).outcome := by
  intro plain malformed source source'
  have hplain : Json.parse plain = .ok (.object [("devTypes", .object [("A", .array [])])]) := by
    decide +kernel
  have hmalformed : Json.parse malformed =
      .ok (.object [("devTypes", .object [("A", .array [.string "", .string "ten"])])]) := by
    decide +kernel
  have hread : ∀ p, (read source p).outcome = .ok [("A", {})] := fun p =>
    (outcome_read_object rfl hplain rfl).2 (.cons ⟨rfl, rfl⟩ .nil)
  obtain ⟨⟨m, hm, hlast, -⟩, -, hreplace⟩ := load_last_definition_wins source [⟨"a"⟩, ⟨"b"⟩] [[("A", {})], [("A", {})]]
    (.cons (hread _) (.cons (hread _) .nil))
  refine ⟨⟨m, hm, hlast⟩, hreplace source' fun before p after hsplit => ?_⟩
  rcases before with _ | ⟨q, _ | ⟨r, before⟩⟩
  · cases hsplit
    refine Or.inr ⟨plain, malformed, rfl, rfl, _, _, _, _, hplain, hmalformed, rfl, rfl, .cons ⟨rfl, Or.inr ⟨?_, ?_⟩⟩ .nil⟩
    · exact ⟨⟨"b"⟩, List.mem_cons_self, _, hread _, List.mem_cons_self⟩
    · exact ⟨{ addresses := "ten" }, rfl⟩
  · cases hsplit
    exact Or.inl rfl
  · have hlength := congrArg List.length hsplit
    simp at hlength

end Catalog

end DeviceCatalog
