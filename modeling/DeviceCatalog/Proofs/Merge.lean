import DeviceCatalog.Proofs.Reading
import Mathlib.Data.List.Induction
import Mathlib.Data.List.Nodup

/-!
# The merge: the first definition gives the place, the last one the entry

The merge sees the definitions of all catalogs one after the other. Its keys and its entries stay in step (`insertAll_lockstep`):
the keys are those of the definitions without repetition, and under every key stands its last definition. `LastWins` says what is
left in terms of the catalogs, and nothing else has its properties (`LastWins.eq_survivors`).
-/

namespace DeviceCatalog

/-- What a catalog says of a key: the source and the entry. -/
abbrev Definition := String × Path × Entry

/-- The definitions of some catalogs, in the order in which they are merged. -/
def definitions (files : List (Path × Catalog)) : List Definition :=
  files.flatMap fun (source, catalog) => catalog.map fun (key, entry) => (key, source, entry)

/-- The last definition of a key. -/
def lastDefinition? (defs : List Definition) (key : String) : Option (Path × Entry) :=
  defs.reverse.lookup key

/-- The last definition is one of the later files if they define the key, else one of the earlier files. -/
theorem lastDefinition?_append (defs defs' : List Definition) (key : String) :
    lastDefinition? (defs ++ defs') key = (lastDefinition? defs' key).or (lastDefinition? defs key) := by
  rw [lastDefinition?, List.reverse_append, List.lookup_append]
  rfl

/-- The last definition of a key has no other one behind it. -/
theorem lastDefinition?_eq_some_iff {defs : List Definition} {key : String} {v : Path × Entry} :
    lastDefinition? defs key = some v ↔ ∃ before after, defs = before ++ (key, v) :: after ∧ key ∉ after.map Prod.fst := by
  rw [lastDefinition?, List.lookup_eq_some_iff]
  constructor
  · intro h
    obtain ⟨after, before, h, hafter⟩ := h
    refine ⟨before.reverse, after.reverse, ?_, ?_⟩
    · rw [← List.reverse_reverse defs, h]
      simp
    · intro hmem
      obtain ⟨d, hd, rfl⟩ := List.mem_map.1 hmem
      exact bne_iff_ne.1 (hafter d (List.mem_reverse.1 hd)) rfl
  · intro h
    obtain ⟨before, after, rfl, hafter⟩ := h
    refine ⟨after.reverse, before.reverse, by simp, ?_⟩
    rintro d hd
    refine bne_iff_ne.2 ?_
    rintro rfl
    exact hafter (List.mem_map_of_mem (List.mem_reverse.1 hd))

/-- A key has no last definition when nothing defines it. -/
theorem lastDefinition?_eq_none_iff {defs : List Definition} {key : String} :
    lastDefinition? defs key = none ↔ key ∉ defs.map Prod.fst := by
  rw [lastDefinition?, List.lookup_eq_none_iff]
  constructor
  · intro h hmem
    obtain ⟨d, hd, rfl⟩ := List.mem_map.1 hmem
    exact bne_iff_ne.1 (h d (List.mem_reverse.2 hd)) rfl
  · rintro h d hd
    refine bne_iff_ne.2 ?_
    rintro rfl
    exact h (List.mem_map_of_mem (List.mem_reverse.1 hd))

namespace Merged

/-! ## One insertion after the other -/

/-- Definitions put into the merge in order. -/
def insertAll (m : Merged) (defs : List Definition) : Merged :=
  defs.foldl (fun m (key, source, entry) => m.insert key source entry) m

/-- Adding the catalogs one after the other inserts their definitions one after the other. -/
theorem foldl_add (files : List (Path × Catalog)) (m : Merged) :
    files.foldl (fun m (source, catalog) => m.add source catalog) m = m.insertAll (definitions files) := by
  rw [insertAll, definitions, List.foldl_flatMap]
  refine congrArg (fun f => files.foldl f m) ?_
  funext m ⟨source, catalog⟩
  simp only [add, List.foldl_map]

/-- One more key is kept unless it is there already. -/
theorem eraseDups_concat (keys : List String) (key : String) :
    (keys ++ [key]).eraseDups = if key ∈ keys then keys.eraseDups else keys.eraseDups ++ [key] := by
  rw [List.eraseDups_append]
  by_cases h : key ∈ keys
  · rw [if_pos h]
    simp [List.removeAll, h]
  · rw [if_neg h]
    simp [List.removeAll, h, List.eraseDups_cons]

/-- The keys and the entries of a merge stay in step: the keys are those of the definitions without repetition, and under every key
stands its last definition. -/
theorem insertAll_lockstep (defs : List Definition) :
    (empty.insertAll defs).keys.toList = (defs.map Prod.fst).eraseDups ∧
      ∀ key : String, (empty.insertAll defs).entries[key]? = lastDefinition? defs key := by
  -- The merge inserts from the left, so the induction takes definitions off the right end.
  induction defs using List.reverseRecOn with
  | nil => exact ⟨rfl, fun key => Std.HashMap.getElem?_empty⟩
  | append_singleton defs d ih =>
    obtain ⟨key, source, entry⟩ := d
    obtain ⟨hkeys, hentries⟩ := ih
    have hinsert : empty.insertAll (defs ++ [(key, source, entry)]) = (empty.insertAll defs).insert key source entry := by
      rw [insertAll, List.foldl_append]
      rfl
    rw [hinsert]
    constructor
    · have hmem : key ∈ (empty.insertAll defs).entries ↔ key ∈ defs.map Prod.fst := by
        rw [← (empty.insertAll defs).mem_keys, hkeys, List.mem_eraseDups]
      rw [List.map_append, List.map_singleton, eraseDups_concat, ← hkeys]
      simp only [Merged.insert, hmem]
      split
      · rfl
      · exact Array.toList_push
    · intro k
      have hsingle : lastDefinition? [(key, source, entry)] k = if (key == k) = true then some (source, entry) else none := by
        simp only [lastDefinition?, List.reverse_singleton, List.lookup_cons, List.lookup_nil, BEq.comm (a := k)]
        cases key == k <;> rfl
      rw [lastDefinition?_append, hsingle, ← hentries]
      simp only [Merged.insert, Std.HashMap.getElem?_insert]
      split <;> rfl

/-! ## The order of the merge -/

/-- Taking every entry out as its key is listed loses none of them, since no key is listed twice. -/
theorem takeOut_eq (entries : Std.HashMap String (Path × Entry)) {keys : List String} (h : keys.Nodup) :
    takeOut entries keys = keys.filterMap fun key => entries[key]?.map fun v => (key, v) := by
  induction keys generalizing entries with
  | nil => rfl
  | cons key keys ih =>
    obtain ⟨hkey, hkeys⟩ := List.nodup_cons.1 h
    rw [takeOut, List.filterMap_cons]
    cases hentry : entries[key]? with
    | none => exact ih entries hkeys
    | some v =>
      obtain ⟨source, entry⟩ := v
      rw [ih (entries.erase key) hkeys]
      refine congrArg ((key, source, entry) :: ·) (List.filterMap_congr fun k hk => ?_)
      have hne : key ≠ k := by
        rintro rfl
        exact hkey hk
      rw [Std.HashMap.getElem?_erase, if_neg fun e => hne (beq_iff_eq.1 e)]

/-- What is left of some definitions: every key at its first appearance, with its last definition. -/
def survivors (defs : List Definition) : List Definition :=
  (defs.map Prod.fst).eraseDups.filterMap fun key => (lastDefinition? defs key).map fun v => (key, v)

/-- Definitions inserted one after the other leave the surviving ones. -/
theorem toList_insertAll (defs : List Definition) : (empty.insertAll defs).toList = survivors defs := by
  obtain ⟨hkeys, hentries⟩ := insertAll_lockstep defs
  rw [toList, takeOut_eq _ (empty.insertAll defs).nodup, hkeys, survivors]
  exact List.filterMap_congr fun key _ => by rw [hentries]

/-- The keys that survive are those that are defined, each at its first place. -/
theorem map_fst_survivors (defs : List Definition) : (survivors defs).map Prod.fst = (defs.map Prod.fst).eraseDups := by
  rw [survivors, List.map_filterMap]
  refine (List.filterMap_congr fun key hkey => ?_).trans List.filterMap_some
  cases h : lastDefinition? defs key with
  | none => exact absurd (List.mem_eraseDups.1 hkey) (lastDefinition?_eq_none_iff.1 h)
  | some v => rfl

/-- What survives under a key is its last definition. -/
theorem mem_survivors {defs : List Definition} {key : String} {v : Path × Entry} :
    (key, v) ∈ survivors defs ↔ lastDefinition? defs key = some v := by
  rw [survivors, List.mem_filterMap]
  constructor
  · intro h
    obtain ⟨k, -, h⟩ := h
    obtain ⟨w, hw, hkw⟩ := Option.map_eq_some_iff.1 h
    cases hkw
    exact hw
  · intro h
    refine ⟨key, List.mem_eraseDups.2 ?_, by rw [h, Option.map_some]⟩
    by_contra hmem
    rw [lastDefinition?_eq_none_iff.2 hmem] at h
    cases h

/-- Without repetitions keys stand in the order of their first appearance. -/
theorem pairwise_idxOf_eraseDups (keys : List String) :
    keys.eraseDups.Pairwise fun k k' => keys.idxOf k < keys.idxOf k' := by
  induction keys using List.reverseRecOn with
  | nil => exact List.Pairwise.nil
  | append_singleton keys key ih =>
    have hfirst : keys.eraseDups.Pairwise fun k k' => (keys ++ [key]).idxOf k < (keys ++ [key]).idxOf k' := by
      refine ih.imp_of_mem fun hk hk' hlt => ?_
      rw [List.idxOf_append_of_mem (List.mem_eraseDups.1 hk), List.idxOf_append_of_mem (List.mem_eraseDups.1 hk')]
      exact hlt
    rw [eraseDups_concat]
    split
    · exact hfirst
    · rename_i hnew
      refine List.pairwise_append.2 ⟨hfirst, List.pairwise_singleton _ _, fun k hk k' hk' => ?_⟩
      have hmem : k ∈ keys := List.mem_eraseDups.1 hk
      rw [List.mem_singleton.1 hk', List.idxOf_append_of_mem hmem, List.idxOf_append, if_neg hnew]
      exact Nat.lt_of_lt_of_le (List.idxOf_lt_length_of_mem hmem) (Nat.le_add_left _ _)

end Merged

/-! ## The last catalog that defines a key -/

/-- The keys of some catalogs in the order of the texts, with repetitions. -/
def keysOf (files : List (Path × Catalog)) : List String :=
  files.flatMap fun (_, catalog) => catalog.map Prod.fst

/-- The keys of the definitions are those of the files, in order. -/
theorem map_fst_definitions (files : List (Path × Catalog)) : (definitions files).map Prod.fst = keysOf files := by
  rw [definitions, keysOf, List.map_flatMap]
  refine congrArg (files.flatMap ·) ?_
  funext ⟨source, catalog⟩
  simp only [List.map_map]
  rfl

/-- The last of the catalogs that define a key is the one from this source, and it gives the key this entry. -/
def LastDefinition (files : List (Path × Catalog)) (key : String) (source : Path) (entry : Entry) : Prop :=
  ∃ before catalog after, files = before ++ (source, catalog) :: after ∧
    (∃ x y, catalog = x ++ (key, entry) :: y ∧ key ∉ y.map Prod.fst) ∧ ∀ f ∈ after, key ∉ f.2.map Prod.fst

/-- The last definition of a key is in the last file that defines it. -/
theorem lastDefinition_of_eq_some {files : List (Path × Catalog)} {key : String} {source : Path} {entry : Entry}
    (h : lastDefinition? (definitions files) key = some (source, entry)) : LastDefinition files key source entry := by
  induction files using List.reverseRecOn with
  | nil => cases h
  | append_singleton files f ih =>
    obtain ⟨p, catalog⟩ := f
    have hconcat : definitions (files ++ [(p, catalog)]) = definitions files ++ catalog.map fun (k, e) => (k, p, e) := by
      rw [definitions, List.flatMap_append, List.flatMap_singleton]
      rfl
    rw [hconcat, lastDefinition?_append] at h
    -- Either the last file defines the key, or the last definition is in the files in front of it.
    cases hlast : lastDefinition? (catalog.map fun (k, e) => (k, p, e)) key with
    | some v =>
      rw [hlast, Option.some_or] at h
      cases h
      obtain ⟨x, y, hsplit, hy⟩ := lastDefinition?_eq_some_iff.1 hlast
      obtain ⟨x, y, rfl, rfl, hcons⟩ := List.map_eq_append_iff.1 hsplit
      obtain ⟨⟨k, e⟩, y, rfl, hhead, rfl⟩ := List.map_eq_cons_iff.1 hcons
      cases hhead
      refine ⟨files, _, [], rfl, ⟨x, y, rfl, ?_⟩, nofun⟩
      rw [List.map_map] at hy
      exact hy
    | none =>
      rw [hlast, Option.none_or] at h
      obtain ⟨before, c, after, rfl, hc, hafter⟩ := ih h
      refine ⟨before, c, after ++ [(p, catalog)], by simp, hc, fun f hf => ?_⟩
      rcases List.mem_append.1 hf with hf | hf
      · exact hafter f hf
      · have hnone := lastDefinition?_eq_none_iff.1 hlast
        rw [List.map_map] at hnone
        rw [List.mem_singleton.1 hf]
        exact hnone

/-- What is left of some catalogs when the first definition of a key gives its place and the last one its source and entry. -/
structure LastWins (files : List (Path × Catalog)) (merged : List Definition) : Prop where
  /-- No key is produced twice. -/
  nodup : (merged.map Prod.fst).Nodup
  /-- The keys are those that some catalog defines. -/
  mem_keys : ∀ key, key ∈ merged.map Prod.fst ↔ ∃ f ∈ files, key ∈ f.2.map Prod.fst
  /-- They stand in the order of their first appearance. -/
  ordered : merged.Pairwise fun d d' => (keysOf files).idxOf d.1 < (keysOf files).idxOf d'.1
  /-- A source and an entry are those of the last catalog that defines the key. -/
  last : ∀ key source entry, (key, source, entry) ∈ merged → LastDefinition files key source entry

/-- A key has no other last definition. -/
theorem LastDefinition.lastDefinition?_eq {files : List (Path × Catalog)} {key : String} {source : Path} {entry : Entry}
    (h : LastDefinition files key source entry) : lastDefinition? (definitions files) key = some (source, entry) := by
  obtain ⟨before, catalog, after, rfl, ⟨x, y, rfl, hy⟩, hafter⟩ := h
  refine lastDefinition?_eq_some_iff.2 ⟨definitions before ++ x.map fun (k, e) => (k, source, e),
    (y.map fun (k, e) => (k, source, e)) ++ definitions after, ?_, ?_⟩
  · simp [definitions]
  · rw [List.map_append, List.mem_append, map_fst_definitions, List.map_map]
    rintro (hmem | hmem)
    · exact hy hmem
    · obtain ⟨f, hf, hkey⟩ := List.mem_flatMap.1 hmem
      exact hafter f hf hkey

/-- The surviving definitions are such that the last one wins. -/
theorem lastWins_survivors (files : List (Path × Catalog)) : LastWins files (Merged.survivors (definitions files)) := by
  have hkeys : (Merged.survivors (definitions files)).map Prod.fst = (keysOf files).eraseDups := by
    rw [Merged.map_fst_survivors, map_fst_definitions]
  have hordered := Merged.pairwise_idxOf_eraseDups (keysOf files)
  rw [← hkeys, List.pairwise_map] at hordered
  refine ⟨?_, fun key => ?_, hordered, fun key source entry h => ?_⟩
  · rw [List.Nodup, List.pairwise_map]
    refine hordered.imp ?_
    intro d d' hlt heq
    rw [heq] at hlt
    exact Nat.lt_irrefl _ hlt
  · rw [hkeys, List.mem_eraseDups, keysOf, List.mem_flatMap]
  · exact lastDefinition_of_eq_some (Merged.mem_survivors.1 h)

/-- Nothing else is left of the catalogs: the four properties determine the merge. -/
theorem LastWins.eq_survivors {files : List (Path × Catalog)} {merged : List Definition} (h : LastWins files merged) :
    merged = Merged.survivors (definitions files) := by
  have hs := lastWins_survivors files
  have hmem : ∀ d, d ∈ merged ↔ d ∈ Merged.survivors (definitions files) := by
    rintro ⟨key, source, entry⟩
    rw [Merged.mem_survivors]
    refine ⟨fun hd => (h.last key source entry hd).lastDefinition?_eq, fun hlast => ?_⟩
    have hkey : key ∈ (Merged.survivors (definitions files)).map Prod.fst := List.mem_map_of_mem (Merged.mem_survivors.2 hlast)
    obtain ⟨⟨k, p, e⟩, hd, rfl⟩ := List.mem_map.1 ((h.mem_keys key).2 ((hs.mem_keys key).1 hkey))
    have hd' := (h.last k p e hd).lastDefinition?_eq
    rw [hlast] at hd'
    cases hd'
    exact hd
  have hperm : merged.Perm (Merged.survivors (definitions files)) :=
    (List.perm_ext_iff_of_nodup (.of_map Prod.fst h.nodup) (.of_map Prod.fst hs.nodup)).2 hmem
  exact hperm.eq_of_pairwise (fun _ _ _ _ hlt hlt' => absurd hlt' (Nat.lt_asymm hlt)) h.ordered hs.ordered

/-- There is only one way to let the last definition win. -/
theorem lastWins_iff {files : List (Path × Catalog)} {merged : List Definition} :
    LastWins files merged ↔ merged = Merged.survivors (definitions files) := by
  refine ⟨LastWins.eq_survivors, ?_⟩
  rintro rfl
  exact lastWins_survivors files

end DeviceCatalog
