import DeviceCatalog.Proofs.DecoderBounds
import DeviceCatalog.Proofs.Identifiers
import DeviceCatalog.Proofs.LookupTables

/-!
# The names of the native files

The poll records and the device type table define names at file scope: some that are always the same, and three families of names that
go on, behind a stem of their own, with what tells records or addresses apart (`perm_definedNames`). No two of them are the same, because
a model is refused as soon as the identifier of a key comes up again (`FirstClash`).
-/

namespace DeviceCatalog

open CSource

/-! ## Clashing keys -/

namespace Model

/-- The key at the first position makes the same identifier as the key at the second one, which comes later. -/
def ClashAt (devices : List DeviceType) (i j : Nat) : Prop :=
  i < j ∧ ∃ d e, devices[i]? = some d ∧ devices[j]? = some e ∧ CSource.name d.key = CSource.name e.key

/-- The second position is the least one whose key makes the identifier of an earlier key, and the first position is that of the only
earlier key that makes it. -/
structure FirstClash (devices : List DeviceType) (i j : Nat) : Prop where
  clash : ClashAt devices i j
  least : ∀ i' j', ClashAt devices i' j' → j ≤ j'
  unique : ∀ i', ClashAt devices i' j → i' = i

/-- The names of device types are distinct when no two of them clash. -/
theorem distinctNames_iff {devices : List DeviceType} : DistinctNames devices ↔ ∀ i j, ¬ ClashAt devices i j := by
  rw [DistinctNames, List.map_map, List.nodup_iff_getElem?_ne_getElem?]
  constructor
  · rintro h i j ⟨hlt, d, e, hd, he, hname⟩
    refine h i j hlt ?_ ?_
    · rw [List.length_map]
      exact (List.getElem?_eq_some_iff.1 he).1
    · rw [List.getElem?_map, List.getElem?_map, hd, he]
      exact congrArg some hname
  · intro h i j hlt hj hsame
    rw [List.length_map] at hj
    have hi : i < devices.length := Nat.lt_trans hlt hj
    rw [List.getElem?_map, List.getElem?_map, List.getElem?_eq_getElem hi, List.getElem?_eq_getElem hj] at hsame
    exact h i j ⟨hlt, devices[i], devices[j], List.getElem?_eq_getElem hi, List.getElem?_eq_getElem hj, Option.some.inj hsame⟩

/-- Positions in front of the device types are positions among all of them. -/
theorem clashAt_append {before after : List DeviceType} {i j : Nat} (hj : j < before.length) :
    ClashAt (before ++ after) i j ↔ ClashAt before i j := by
  unfold ClashAt
  refine and_congr_right fun hlt => ?_
  rw [List.getElem?_append_left hj, List.getElem?_append_left (Nat.lt_trans hlt hj)]

/-- When the keys in front make different identifiers, the first key that makes one of these clashes first. -/
theorem firstClash_of_split {before after : List DeviceType} {d e : DeviceType} {i : Nat} (hbefore : DistinctNames before)
    (hi : before[i]? = some d) (hname : CSource.name d.key = CSource.name e.key) :
    FirstClash (before ++ e :: after) i before.length := by
  have hnone := distinctNames_iff.1 hbefore
  have hlt : i < before.length := (List.getElem?_eq_some_iff.1 hi).1
  have hlast : (before ++ e :: after)[before.length]? = some e := by simp
  refine ⟨⟨hlt, d, e, ?_, hlast, hname⟩, ?_, ?_⟩
  · rw [List.getElem?_append_left hlt, hi]
  · intro i' j' hclash
    by_contra hge
    exact hnone i' j' ((clashAt_append (Nat.not_le.1 hge)).1 hclash)
  · rintro i' ⟨hlt', d', e', hd', he', hname'⟩
    rw [List.getElem?_append_left hlt'] at hd'
    obtain rfl := Option.some.inj (hlast.symm.trans he')
    -- two positions of one identifier in front would clash there
    rcases Nat.lt_trichotomy i i' with hless | rfl | hless
    · exact absurd ⟨hless, d, d', hi, hd', hname.trans hname'.symm⟩ (hnone i i')
    · rfl
    · exact absurd ⟨hless, d', d, hd', hi, hname'.trans hname.symm⟩ (hnone i' i)

/-- The failure of the identifiers names the first clash. -/
theorem checkIdentifiers_eq_error_iff_firstClash {devices : List DeviceType} {f : Failure} :
    checkIdentifiers devices = .error f ↔
      ∃ i j d e, FirstClash devices i j ∧ devices[i]? = some d ∧ devices[j]? = some e ∧
        f = .identifierClash (CSource.name e.key) d.key e.key := by
  rw [checkIdentifiers_eq_error_iff]
  constructor
  · rintro ⟨before, e, after, rfl, hbefore, d, hd, hname, rfl⟩
    obtain ⟨i, hi⟩ := List.mem_iff_getElem?.1 hd
    have hlt : i < before.length := (List.getElem?_eq_some_iff.1 hi).1
    refine ⟨i, before.length, d, e, firstClash_of_split hbefore hi hname, ?_, by simp, rfl⟩
    rw [List.getElem?_append_left hlt, hi]
  · rintro ⟨i, j, d, e, hfirst, hd, he, rfl⟩
    obtain ⟨hlt, d', e', hd', he', hname⟩ := hfirst.clash
    obtain rfl := Option.some.inj (hd.symm.trans hd')
    obtain rfl := Option.some.inj (he.symm.trans he')
    obtain ⟨hj, rfl⟩ := List.getElem?_eq_some_iff.1 he
    -- The list is cut at the later position of the first clash: in front of it no identifier comes twice.
    have hsplit : devices = devices.take j ++ devices[j] :: devices.drop (j + 1) := by
      rw [← List.drop_eq_getElem_cons hj, List.take_append_drop]
    have htake : (devices.take j).length = j := List.length_take_of_le (Nat.le_of_lt hj)
    refine ⟨devices.take j, devices[j], devices.drop (j + 1), hsplit, ?_, d, ?_, hname, rfl⟩
    · refine distinctNames_iff.2 fun i' j' hclash => ?_
      have hj' : j' < (devices.take j).length := by
        obtain ⟨-, _, _, -, he', -⟩ := hclash
        exact (List.getElem?_eq_some_iff.1 he').1
      have hall : ClashAt devices i' j' := by
        rw [hsplit]
        exact (clashAt_append hj').2 hclash
      have hle := hfirst.least i' j' hall
      omega
    · refine List.mem_iff_getElem?.2 ⟨i, ?_⟩
      rw [List.getElem?_take_of_lt hlt, hd]

/-- Where keys clash there is a first clash. -/
theorem exists_firstClash {devices : List DeviceType} {i j : Nat} (h : ClashAt devices i j) : ∃ i j, FirstClash devices i j := by
  cases hcheck : checkIdentifiers devices with
  | ok _ => exact absurd h (distinctNames_iff.1 (checkIdentifiers_eq_ok_iff.1 hcheck) i j)
  | error f =>
    obtain ⟨i, j, -, -, hfirst, -⟩ := checkIdentifiers_eq_error_iff_firstClash.1 hcheck
    exact ⟨i, j, hfirst⟩

/-- Device types are refused for an identifier when all their layouts have the declared sizes, and the failure names the first clash. -/
theorem outcome_build_eq_clash_iff {devices : List DeviceType} {ident first second : String} :
    (build devices).outcome = .error (.identifierClash ident first second) ↔
      (∀ d ∈ devices, d.laidOutSize = d.declaredBytes) ∧ ∃ i j d e, FirstClash devices i j ∧ devices[i]? = some d ∧
        devices[j]? = some e ∧ ident = CSource.name e.key ∧ first = d.key ∧ second = e.key := by
  have hrefuses : Refuses devices (.identifierClash ident first second) ↔
      (∀ d ∈ devices, d.laidOutSize = d.declaredBytes) ∧ checkIdentifiers devices = .error (.identifierClash ident first second) := by
    rw [checkIdentifiers_eq_error_iff]
    constructor
    · intro h
      cases h with
      | identifier hsizes hsplit hbefore hearlier hname => exact ⟨hsizes, _, _, _, hsplit, hbefore, _, hearlier, hname, rfl⟩
    · rintro ⟨hsizes, before, d, after, hsplit, hbefore, earlier, hearlier, hname, hf⟩
      rw [hf]
      exact .identifier hsizes hsplit hbefore hearlier hname
  rw [outcome_build_eq_error_iff, hrefuses, checkIdentifiers_eq_error_iff_firstClash]
  simp only [Failure.identifierClash.injEq]

end Model

namespace Artifact

/-! ## Names behind stems -/

/-- Behind two stems of which neither begins with the other there are no equal names. -/
theorem append_ne_append {stem stem' : String} (h : ¬ stem.toList <+: stem'.toList) (h' : ¬ stem'.toList <+: stem.toList) (s t : String) :
    stem ++ s ≠ stem' ++ t := by
  intro heq
  have hlists := congrArg String.toList heq
  rw [String.toList_append, String.toList_append] at hlists
  have hstem : stem.toList <+: stem.toList ++ s.toList := List.prefix_append _ _
  have hstem' : stem'.toList <+: stem.toList ++ s.toList := hlists ▸ List.prefix_append _ _
  rcases List.prefix_or_prefix_of_prefix hstem hstem' with hprefix | hprefix
  · exact h hprefix
  · exact h' hprefix

/-- The names that some stems make, each with its own rests. -/
def stemmed (families : List (String × List String)) : List String :=
  families.flatMap fun family => family.2.map (family.1 ++ ·)

/-- Fixed names that begin with none of the stems, and names behind stems that do not begin with each other. -/
theorem nodup_append_stemmed {fixed : List String} {families : List (String × List String)} (hfixed : fixed.Nodup)
    (hapart : ∀ stem ∈ families.map Prod.fst, ∀ name ∈ fixed, ¬ stem.toList <+: name.toList)
    (hstems : (families.map Prod.fst).Pairwise fun stem stem' => ¬ stem.toList <+: stem'.toList ∧ ¬ stem'.toList <+: stem.toList)
    (hrests : ∀ family ∈ families, family.2.Nodup) : (fixed ++ stemmed families).Nodup := by
  have hmember : ∀ {fs : List (String × List String)} {name : String}, name ∈ stemmed fs →
      ∃ stem ∈ fs.map Prod.fst, ∃ rest, name = stem ++ rest := by
    intro fs name hname
    obtain ⟨family, hfamily, hrest⟩ := List.mem_flatMap.1 hname
    obtain ⟨rest, -, rfl⟩ := List.mem_map.1 hrest
    exact ⟨family.1, List.mem_map_of_mem hfamily, rest, rfl⟩
  have hfamilies : (stemmed families).Nodup := by
    clear hapart
    -- One family after the other: within a family the rests differ, between families the stems do.
    induction families with
    | nil => exact List.nodup_nil
    | cons family families ih =>
      rw [List.map_cons, List.pairwise_cons] at hstems
      have hown : (family.2.map (family.1 ++ ·)).Nodup :=
        (hrests family List.mem_cons_self).map fun s t hst => (String.append_right_inj _).1 hst
      have hothers : (stemmed families).Nodup := ih hstems.2 fun f hf => hrests f (List.mem_cons_of_mem family hf)
      refine List.nodup_append.2 ⟨hown, hothers, ?_⟩
      rintro name hname _ hother rfl
      obtain ⟨s, -, rfl⟩ := List.mem_map.1 hname
      obtain ⟨stem, hstem, t, heq⟩ := hmember hother
      obtain ⟨h, h'⟩ := hstems.1 stem hstem
      exact append_ne_append h h' s t heq
  refine List.nodup_append.2 ⟨hfixed, hfamilies, ?_⟩
  rintro name hname _ hother rfl
  obtain ⟨stem, hstem, rest, rfl⟩ := hmember hother
  refine hapart stem hstem _ hname ?_
  rw [String.toList_append]
  exact List.prefix_append _ _

/-! ## What the files define -/

/-- The names that the files define at file scope, in order. -/
def definedNames (m : Model) (o : Options) (pollRecordsName : String) : List String :=
  (pollRecords m o ++ deviceTable m o pollRecordsName).filterMap Item.defines?

/-- The names of the timestamp constants. -/
def timestampNames : List String :=
  ["POLL_RESULT_TIMESTAMP_SIZE", "POLL_RESULT_RESOLUTION_US", "POLL_RESULT_WRAP_US", "DECODE_STRUCT_TIMESTAMP_RESOLUTION_US"]

/-- The names of the functions that all decoders use. -/
def sharedFunctions : List String :=
  FieldType.all.map (fun t => nativeHelper ++ t.extractor) ++ [timestampFunction]

/-- The names that are the same for every model. -/
def fixedNames (decoding : Bool) : List String :=
  timestampNames ++ (if decoding then sharedFunctions else []) ++ "baseDevTypeRecords" :: leadingNames ++ trailingNames

/-- The identifiers of the records that have structures and decoders. -/
def decodedIdentifiers (m : Model) (decoding : Bool) : List String :=
  if decoding then m.records.map Record.identifier else []

/-- The names that follow from the model: structures, decoders and arrays of positions. -/
def families (m : Model) (decoding : Bool) : List (String × List String) :=
  [ ("poll_", decodedIdentifiers m decoding), ("decodePollResp_", decodedIdentifiers m decoding),
    ("baseDevTypeIndexByAddr_", m.index.claimed.map fun claim => claim.1.text) ]

/-- What the header of the records defines: the names that go with timestamps, then a struct for every decoded record. -/
theorem defines_pollRecords (m : Model) (o : Options) :
    (pollRecords m o).filterMap Item.defines? = timestampNames ++ (decodedIdentifiers m o.decoding).map ("poll_" ++ ·) := by
  have hstructs : ∀ rs : List Record, (rs.flatMap (structItems o)).filterMap Item.defines? = (rs.map Record.identifier).map ("poll_" ++ ·) := by
    intro rs
    induction rs with
    | nil => rfl
    | cons r rs ih =>
      rw [List.flatMap_cons, List.filterMap_append, ih]
      rfl
  rw [pollRecords, List.filterMap_append, decodedIdentifiers]
  cases o.decoding with
  | false => rfl
  | true =>
    rw [if_pos rfl, if_pos rfl, hstructs]
    rfl

/-- What the decoders define: the functions that they share, then one for every record. -/
theorem defines_nativeDecoders (m : Model) (o : Options) : (nativeDecoders m o).filterMap Item.defines? =
    sharedFunctions ++ (m.records.map Record.identifier).map ("decodePollResp_" ++ ·) := by
  have hhelpers : ∀ ts : List FieldType, (someHelpers nativeHelper ts).filterMap Item.defines? = ts.map fun t => nativeHelper ++ t.extractor := by
    intro ts
    induction ts with
    | nil => rfl
    | cons t ts ih =>
      rw [someHelpers, List.flatMap_cons, List.filterMap_append, List.map_cons]
      exact congrArg ((nativeHelper ++ t.extractor) :: ·) ih
  have hdecoders : ∀ rs : List Record, (rs.flatMap (decoderItems o)).filterMap Item.defines? =
      (rs.map Record.identifier).map ("decodePollResp_" ++ ·) := by
    intro rs
    induction rs with
    | nil => rfl
    | cons r rs ih =>
      rw [List.flatMap_cons, List.filterMap_append, ih]
      rfl
  rw [nativeDecoders, List.filterMap_append, List.filterMap_append, hdecoders]
  exact congrArg (· ++ _ ++ _) (hhelpers FieldType.all)

/-- Data items define what they declare. -/
theorem defines_eq_declared {items : List Item} (h : ∀ item ∈ items, item.IsData) :
    items.filterMap Item.defines? = (items.filterMap Item.declared?).map Prod.fst := by
  rw [List.map_filterMap]
  refine List.filterMap_congr fun item hitem => ?_
  have hdata := h item hitem
  cases item with
  | constant | blank | prototype | comment | pragmaOnce | includeSystem | includeLocal | usingNamespace | symbol => rfl
  | struct | function => exact hdata.elim
  | table t =>
    obtain ⟨type, name, cells⟩ := t
    cases cells with
    | records => exact hdata.2.2.elim
    | inline | row | column => rfl

/-- What the tables define: an array for every claimed address between the fixed names. -/
theorem defines_tables (index : AddressIndex) (s : ScanLists) : (indexItems index ++ scanItems s).filterMap Item.defines? =
    leadingNames ++ (index.claimed.map fun claim => claim.1.text).map ("baseDevTypeIndexByAddr_" ++ ·) ++ trailingNames := by
  have hdata : ∀ item ∈ indexItems index ++ scanItems s, item.IsData := by
    intro item hitem
    rcases List.mem_append.1 hitem with hitem | hitem
    · exact isData_indexItems index item hitem
    · exact isData_scanItems s item hitem
  rw [defines_eq_declared hdata, declared_tables, map_fst_tableDeclarations, List.map_map, List.map_map]
  rfl

/-- What the source of the tables defines, in order. -/
theorem defines_deviceTable (m : Model) (o : Options) (pollRecordsName : String) :
    (deviceTable m o pollRecordsName).filterMap Item.defines? =
      (if o.decoding then sharedFunctions else []) ++ (decodedIdentifiers m o.decoding).map ("decodePollResp_" ++ ·) ++
        "baseDevTypeRecords" :: (leadingNames ++ (m.index.claimed.map fun claim => claim.1.text).map ("baseDevTypeIndexByAddr_" ++ ·) ++
          trailingNames) := by
  have hhead : (tableHead o pollRecordsName).filterMap Item.defines? = [] := by
    unfold tableHead
    cases o.decoding <;> rfl
  have hdecoders : (if o.decoding then nativeDecoders m o else []).filterMap Item.defines? =
      (if o.decoding then sharedFunctions else []) ++ (decodedIdentifiers m o.decoding).map ("decodePollResp_" ++ ·) := by
    rw [decodedIdentifiers]
    cases o.decoding with
    | false => rfl
    | true => exact defines_nativeDecoders m o
  have hrecords : [Item.table (recordTable m o), .blank].filterMap Item.defines? = ["baseDevTypeRecords"] := rfl
  rw [deviceTable, List.append_assoc _ (indexItems m.index), List.filterMap_append, List.filterMap_append, List.filterMap_append, hhead, hdecoders,
    hrecords, defines_tables]
  simp only [List.append_assoc, List.cons_append, List.nil_append]

/-- Up to their order the names are the fixed ones and the families. -/
theorem perm_definedNames (m : Model) (o : Options) (pollRecordsName : String) :
    (definedNames m o pollRecordsName).Perm (fixedNames o.decoding ++ stemmed (families m o.decoding)) := by
  rw [definedNames, List.filterMap_append, defines_pollRecords, defines_deviceTable, fixedNames, families, stemmed]
  refine List.perm_iff_count.2 fun name => ?_
  simp only [List.flatMap_cons, List.flatMap_nil, List.count_append, List.count_cons, List.count_nil]
  omega

/-! ## They are different -/

/-- Without the decoders there are fewer fixed names. -/
theorem sublist_fixedNames (decoding : Bool) : (fixedNames decoding).Sublist (fixedNames true) := by
  cases decoding with
  | false => exact ((List.Sublist.refl timestampNames).append (List.nil_sublist sharedFunctions)).append (List.Sublist.refl _)
  | true => exact List.Sublist.refl _

theorem nodup_fixedNames (decoding : Bool) : (fixedNames decoding).Nodup := by
  have hall : (fixedNames true).Nodup := by decide
  exact hall.sublist (sublist_fixedNames decoding)

/-- The stems of the families. -/
theorem map_fst_families (m : Model) (decoding : Bool) :
    (families m decoding).map Prod.fst = ["poll_", "decodePollResp_", "baseDevTypeIndexByAddr_"] := rfl

/-- No fixed name begins as a made one does. -/
theorem not_prefix_fixedNames (decoding : Bool) : ∀ stem ∈ ["poll_", "decodePollResp_", "baseDevTypeIndexByAddr_"],
    ∀ name ∈ fixedNames decoding, ¬ stem.toList <+: name.toList := by
  have hall : ∀ stem ∈ ["poll_", "decodePollResp_", "baseDevTypeIndexByAddr_"], ∀ name ∈ fixedNames true, ¬ stem.toList <+: name.toList := by
    decide +kernel
  exact fun stem hstem name hname => hall stem hstem name ((sublist_fixedNames decoding).subset hname)

/-- No two names that the files of a model define are the same. -/
theorem nodup_definedNames {devices : List DeviceType} {m : Model} (h : m.Describes devices) (o : Options) (pollRecordsName : String) :
    (definedNames m o pollRecordsName).Nodup := by
  have hidentifiers : (decodedIdentifiers m o.decoding).Nodup := by
    unfold decodedIdentifiers
    cases o.decoding with
    | false => exact List.nodup_nil
    | true => exact h.nodup_identifiers
  have haddresses : (m.index.claimed.map fun claim => claim.1.text).Nodup := by
    have htexts := (nodup_claimed m.index).map Address.text_injective
    rwa [List.map_map] at htexts
  refine (perm_definedNames m o pollRecordsName).nodup_iff.2 (nodup_append_stemmed (nodup_fixedNames o.decoding) ?_ ?_ ?_)
  · exact not_prefix_fixedNames o.decoding
  · rw [map_fst_families]
    decide
  · intro family hfamily
    simp only [families, List.mem_cons, List.not_mem_nil, or_false] at hfamily
    rcases hfamily with rfl | rfl | rfl
    · exact hidentifiers
    · exact hidentifiers
    · exact haddresses

/-! ## They are identifiers -/

theorem isIdentifier_append {stem rest : String} (hstem : IsIdentifier stem) (hrest : ∀ c ∈ rest.toList, isNameChar c = true) :
    IsIdentifier (stem ++ rest) := by
  obtain ⟨c, cs, hchars, hfirst, hothers⟩ := hstem
  refine ⟨c, cs ++ rest.toList, ?_, hfirst, fun d hd => ?_⟩
  · rw [String.toList_append, hchars, List.cons_append]
  · rcases List.mem_append.1 hd with hd | hd
    · exact hothers d hd
    · exact isAlphanum_or_of_isNameChar (hrest d hd)

/-- A name that is kept as it is, and is not empty, is an identifier. -/
theorem isIdentifier_of_name_eq {s : String} (h : CSource.name s = s) (hne : s ≠ "") : IsIdentifier s :=
  h ▸ isIdentifier_name (h.symm ▸ hne)

theorem isIdentifier_fixedNames (decoding : Bool) : ∀ name ∈ fixedNames decoding, IsIdentifier name := by
  have hkept : ∀ name ∈ fixedNames true, CSource.name name = name ∧ name ≠ "" := by decide +kernel
  intro name hname
  obtain ⟨hsame, hne⟩ := hkept name ((sublist_fixedNames decoding).subset hname)
  exact isIdentifier_of_name_eq hsame hne

/-- The made names are identifiers, too. -/
theorem isIdentifier_families (m : Model) (decoding : Bool) : ∀ name ∈ stemmed (families m decoding), IsIdentifier name := by
  have hstems : ∀ stem ∈ ["poll_", "decodePollResp_", "baseDevTypeIndexByAddr_"], CSource.name stem = stem ∧ stem ≠ "" := by decide
  have hidentifiers : ∀ rest ∈ decodedIdentifiers m decoding, ∀ c ∈ rest.toList, isNameChar c = true := by
    intro rest hrest c hc
    unfold decodedIdentifiers at hrest
    split at hrest
    · obtain ⟨r, -, rfl⟩ := List.mem_map.1 hrest
      exact isNameChar_of_mem_name hc
    · cases hrest
  intro name hname
  obtain ⟨family, hfamily, hname⟩ := List.mem_flatMap.1 hname
  obtain ⟨rest, hrest, rfl⟩ := List.mem_map.1 hname
  obtain ⟨hkept, hne⟩ := hstems family.1 (map_fst_families m decoding ▸ List.mem_map_of_mem hfamily)
  refine isIdentifier_append (isIdentifier_of_name_eq hkept hne) ?_
  simp only [families, List.mem_cons, List.not_mem_nil, or_false] at hfamily
  rcases hfamily with rfl | rfl | rfl
  · exact hidentifiers rest hrest
  · exact hidentifiers rest hrest
  · obtain ⟨claim, -, rfl⟩ := List.mem_map.1 hrest
    exact List.all_eq_true.1 (isWord_address claim.1).2

/-- Device types are refused for an identifier exactly when all their layouts have the declared sizes and two keys make the same
identifier, and the failure names the first key that makes the identifier of an earlier one, with the only earlier key that makes it. The
names that the two native files of a model define at file scope are different identifiers. -/
theorem file_scope_names_distinct (devices : List DeviceType) :
    ((∃ ident first second, (Model.build devices).outcome = .error (.identifierClash ident first second)) ↔
      (∀ d ∈ devices, d.laidOutSize = d.declaredBytes) ∧ ∃ i j, Model.ClashAt devices i j) ∧
    (∀ ident first second, (Model.build devices).outcome = .error (.identifierClash ident first second) →
      ∃ i j d e, Model.FirstClash devices i j ∧ devices[i]? = some d ∧ devices[j]? = some e ∧
        ident = CSource.name e.key ∧ first = d.key ∧ second = e.key) ∧
    ∀ m, (Model.build devices).outcome = .ok m → ∀ (o : Options) (pollRecordsName : String),
      ((pollRecords m o ++ deviceTable m o pollRecordsName).filterMap Item.defines?).Nodup ∧
        ∀ name ∈ (pollRecords m o ++ deviceTable m o pollRecordsName).filterMap Item.defines?, IsIdentifier name := by
  refine ⟨⟨?_, ?_⟩, ?_, ?_⟩
  · rintro ⟨ident, first, second, h⟩
    obtain ⟨hsizes, i, j, -, -, hfirst, -⟩ := Model.outcome_build_eq_clash_iff.1 h
    exact ⟨hsizes, i, j, hfirst.clash⟩
  · rintro ⟨hsizes, i, j, hclash⟩
    obtain ⟨i, j, hfirst⟩ := Model.exists_firstClash hclash
    obtain ⟨-, d, e, hd, he, -⟩ := hfirst.clash
    exact ⟨_, _, _, Model.outcome_build_eq_clash_iff.2 ⟨hsizes, i, j, d, e, hfirst, hd, he, rfl, rfl, rfl⟩⟩
  · intro ident first second h
    exact (Model.outcome_build_eq_clash_iff.1 h).2
  · intro m hm o pollRecordsName
    refine ⟨nodup_definedNames (Model.describes_of_build hm) o pollRecordsName, fun name hname => ?_⟩
    rcases List.mem_append.1 ((perm_definedNames m o pollRecordsName).mem_iff.1 hname) with hname | hname
    · exact isIdentifier_fixedNames o.decoding name hname
    · exact isIdentifier_families m o.decoding name hname

/-- An empty key and one that starts with a digit make names like any other. Of three keys that make the same identifier the second one is
reported, with the first one. -/
theorem file_scope_names_distinct_odd_keys :
    let accepted : List DeviceType := [{ key := "1a" }, { key := "", addresses := [0x10] }]
    let refused : List DeviceType := [{ key := "a.b" }, { key := "c" }, { key := "a_b" }, { key := "a b" }]
    (∃ m, (Model.build accepted).outcome = .ok m ∧
      ((pollRecords m {} ++ deviceTable m {} "records.h").filterMap Item.defines?).Nodup ∧
      (∀ name ∈ (pollRecords m {} ++ deviceTable m {} "records.h").filterMap Item.defines?, IsIdentifier name) ∧
      "poll__1a" ∈ (pollRecords m {} ++ deviceTable m {} "records.h").filterMap Item.defines? ∧
      "poll_" ∈ (pollRecords m {} ++ deviceTable m {} "records.h").filterMap Item.defines?) ∧
    (Model.build refused).outcome = .error (.identifierClash "a_b" "a.b" "a_b") := by
  intro accepted refused
  refine ⟨?_, ?_⟩
  · obtain ⟨m, hm, hdevices⟩ : ∃ m, (Model.build accepted).outcome = .ok m ∧ m.records.map Record.device = accepted :=
      Model.exists_build (by decide) (by decide) (by decide)
    obtain ⟨hnodup, hidentifiers⟩ := (file_scope_names_distinct accepted).2.2 m hm {} "records.h"
    have hnames : m.records.map Record.identifier = ["_1a", ""] := by
      have hkeys : (m.records.map Record.device).map (fun d => CSource.name d.key) = ["_1a", ""] := by
        rw [hdevices]
        decide
      rwa [List.map_map] at hkeys
    have hstructs : ∀ name ∈ ["poll__1a", "poll_"], name ∈ definedNames m {} "records.h" := by
      intro name hname
      rw [definedNames, List.filterMap_append, defines_pollRecords, decodedIdentifiers, if_pos rfl, hnames]
      exact List.mem_append_left _ (List.mem_append_right _ hname)
    exact ⟨m, hm, hnodup, hidentifiers, hstructs _ (by decide), hstructs _ (by decide)⟩
  · have hsizes : ∀ d ∈ refused, d.laidOutSize = d.declaredBytes := by decide
    have hclash : Model.ClashAt refused 0 2 := ⟨by decide, _, _, rfl, rfl, by decide⟩
    obtain ⟨ident, first, second, h⟩ := (file_scope_names_distinct refused).1.2 ⟨hsizes, 0, 2, hclash⟩
    obtain ⟨i, j, d, e, hfirst, hd, he, rfl, rfl, rfl⟩ := (file_scope_names_distinct refused).2.1 ident first second h
    have hj := hfirst.least 0 2 hclash
    obtain ⟨hlt, d', e', hd', he', hname⟩ := hfirst.clash
    obtain rfl := Option.some.inj (hd.symm.trans hd')
    obtain rfl := Option.some.inj (he.symm.trans he')
    -- of the pairs of positions up to the third one, only the first and the third have the same identifier
    obtain ⟨rfl, rfl⟩ | ⟨rfl, rfl⟩ | ⟨rfl, rfl⟩ : i = 0 ∧ j = 1 ∨ i = 1 ∧ j = 2 ∨ i = 0 ∧ j = 2 := by omega
    · cases hd
      cases he
      exact absurd hname (by decide)
    · cases hd
      cases he
      exact absurd hname (by decide)
    · cases hd
      cases he
      exact h

end Artifact

end DeviceCatalog
