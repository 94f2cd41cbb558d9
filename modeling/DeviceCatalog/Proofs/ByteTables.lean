import DeviceCatalog.Proofs.Evaluation
import DeviceCatalog.Proofs.LookupTables
import DeviceCatalog.Proofs.ScanLists
import Mathlib.Data.List.Dedup
import Mathlib.Data.List.Perm.Subperm

/-!
# Tables of bytes

A table of an integer type keeps what is written into it when every number is one of the type (`Table.Fits`). The positions always are,
and so are the addresses; the counts of claims and the lengths of the scan lists are bytes too, and nothing bounds the former. A scan list
is strictly rising, so its length is a byte unless it holds every address (`length_le_iff_exists_notMem`).
-/

namespace DeviceCatalog

namespace CSource

/-- The number that a cell writes. -/
def Expr.written? : Expr → Option Int
  | .decimal n => some n
  | .address a => some a.toNat
  | _ => none

/-- All cells of a table, row after row. -/
def Cells.toList : Cells → List Expr
  | .inline cells | .row cells | .column cells => cells
  | .records rows => rows.flatten

/-- The numbers that a table writes. -/
def Table.numbers (t : Table) : List Int :=
  t.cells.toList.filterMap Expr.written?

/-- Every number that the table writes is one of its type, if that is an integer type. -/
def Table.Fits (t : Table) : Prop :=
  ∀ k, t.type.number? = some (.int k) → ∀ n ∈ t.numbers, k.wrap n = n

/-- A table of an unsigned type fits when its numbers are below the number of values of the type. -/
theorem Table.fits_iff {t : Table} {k : IntType} {ns : List Nat} (htype : t.type.number? = some (.int k)) (hk : k.signed = false)
    (hnumbers : t.numbers = ns.map Int.ofNat) : t.Fits ↔ ∀ n ∈ ns, n < k.modulus := by
  have hwritten : t.Fits ↔ ∀ n ∈ t.numbers, k.wrap n = n := by
    simp only [Table.Fits, htype, Option.some.injEq, NumberType.int.injEq, forall_eq']
  simp only [hwritten, hnumbers, List.forall_mem_map, Int.ofNat_eq_natCast, IntType.wrap_natCast_iff hk]

/-- A table of anything else has nothing to keep. -/
theorem Table.fits_of_number?_eq_none {t : Table} (htype : t.type.number? = none) : t.Fits := by
  intro k hk
  rw [htype] at hk
  cases hk

theorem filterMap_written? {β : Type} {cell : β → Expr} {value : β → Nat} (h : ∀ x, (cell x).written? = some (value x : Int))
    (xs : List β) : (xs.map cell).filterMap Expr.written? = (xs.map value).map Int.ofNat := by
  rw [List.filterMap_map, List.map_map, ← List.filterMap_eq_map]
  exact List.filterMap_congr fun x _ => h x

end CSource

open CSource

/-! ## Lists of addresses -/

theorem Address.length_all : all.length = 256 := by
  rw [all, List.length_map, List.length_range]

/-- A list of different addresses has at most 255 of them unless it holds all. -/
theorem Address.length_le_iff_exists_notMem {l : List Address} (h : l.Nodup) : l.length ≤ 255 ↔ ∃ a, a ∉ l := by
  have hall := length_all
  constructor
  · intro hlength
    by_contra hnone
    -- a list that misses no address is at least as long as the list of all
    have hsub : all.Subperm l := nodup_all.subperm fun a _ => not_not.1 fun ha => hnone ⟨a, ha⟩
    have hle := hsub.length_le
    omega
  · rintro ⟨a, ha⟩
    -- with the missing address in front, the list is still at most that long
    have hsub : (a :: l).Subperm all := (List.nodup_cons.2 ⟨ha, h⟩).subperm fun b _ => mem_all b
    have hle := hsub.length_le
    rw [List.length_cons] at hle
    omega

/-- No address is twice on a scan list. -/
theorem ScanLists.nodup_list (devices : List DeviceType) (level : ScanLevel) : ((classify devices).list level).Nodup :=
  (pairwise_list devices level).imp fun hlt => UInt8.ne_of_lt hlt

/-! ## Counts of claims -/

/-- How often the device types of a catalog list an address. -/
def claimCount (devices : List DeviceType) (a : Address) : Nat :=
  (devices.map fun d => d.addresses.count a).sum

/-- An address has as many positions as it has claims. -/
theorem AddressIndex.length_claims (devices : List DeviceType) (a : Address) :
    (claims devices.zipIdx a).length = claimCount devices a := by
  induction devices using List.reverseRecOn with
  | nil => rfl
  | append_singleton devices d ih =>
    rw [claims_zipIdx_concat, List.length_append, ih, List.length_replicate]
    simp [claimCount]

/-- The count of an indexed address is the number of its claims. -/
theorem AddressIndex.count_eq_claimCount {devices : List DeviceType} {index : AddressIndex} (h : build devices = .ok index) {a : Address}
    (ha : a.toNat < Address.indexed) : index.count a = claimCount devices a := by
  have hlength := congrArg List.length (map_toNat_positions h ha)
  rw [List.length_map, length_claims] at hlength
  exact hlength

/-- No address is claimed more often than addresses are listed. -/
theorem claimCount_le (devices : List DeviceType) (a : Address) :
    claimCount devices a ≤ (devices.flatMap DeviceType.addresses).length := by
  have hcount : claimCount devices a = (devices.flatMap DeviceType.addresses).count a := List.count_flatMap.symm
  rw [hcount]
  exact List.count_le_length

namespace Artifact

/-! ## The tables of the device type table -/

section Tables

variable {m : Model} {o : Options} {pollRecordsName : String} {t : Table}

theorem table_notMem_nativeDecoders : Item.table t ∉ nativeDecoders m o := by
  simp only [nativeDecoders, helpers, helper, timestampItems, decoderItems, List.mem_append, List.mem_flatMap, List.mem_cons,
    List.not_mem_nil, or_false, reduceCtorEq, and_false, exists_false, not_false_eq_true]

/-- The tables are the records, those that find the records of an address, and the scan lists. -/
theorem table_mem_deviceTable : Item.table t ∈ deviceTable m o pollRecordsName ↔
    t = recordTable m o ∨ Item.table t ∈ indexItems m.index ∨ Item.table t ∈ scanItems m.scan := by
  have hhead : Item.table t ∉ tableHead o pollRecordsName := by
    unfold tableHead
    split <;> simp
  have hdecoders : Item.table t ∉ if o.decoding then nativeDecoders m o else [] := by
    split
    · exact table_notMem_nativeDecoders
    · exact List.not_mem_nil
  simp only [deviceTable, List.mem_append, hhead, hdecoders, false_or, List.mem_cons, Item.table.injEq, reduceCtorEq, List.not_mem_nil,
    or_false, or_assoc]

/-- The tables of the index: the counts, the positions of every claimed address and the pointers. -/
theorem table_mem_indexItems {index : AddressIndex} : Item.table t ∈ indexItems index ↔
    t = countTable index ∨ (∃ claim ∈ index.claimed, t = positionsTable claim.1 claim.2) ∨ t = pointerTable index := by
  simp [indexItems, eq_comm]

/-- The lengths of the scan lists. -/
def lengthTable (s : ScanLists) : Table :=
  ⟨.const .uint8, "scanPriorityListLengths", .column (ScanLevel.all.map fun l => .decimal (s.list l).length)⟩

/-- The array of the scan lists. -/
def listTable : Table :=
  ⟨.pointer (.const .uint8), "scanPriorityLists", .column (ScanLevel.all.map fun l => .var (scanListName l))⟩

/-- The tables of the scan lists: one for every pass, the pointers and the lengths. -/
theorem table_mem_scanItems {s : ScanLists} : Item.table t ∈ scanItems s ↔
    (∃ level, t = scanListTable s level) ∨ t = listTable ∨ t = lengthTable s := by
  have hlevels : ∀ level, level ∈ ScanLevel.all := fun level => by cases level <;> decide
  simp [scanItems, hlevels, listTable, lengthTable]

theorem countTable_mem : Item.table (countTable m.index) ∈ deviceTable m o pollRecordsName :=
  table_mem_deviceTable.2 (Or.inr (Or.inl (table_mem_indexItems.2 (Or.inl rfl))))

theorem lengthTable_mem : Item.table (lengthTable m.scan) ∈ deviceTable m o pollRecordsName :=
  table_mem_deviceTable.2 (Or.inr (Or.inr (table_mem_scanItems.2 (Or.inr (Or.inr rfl)))))

/-! ## What fits -/

theorem numbers_countTable (index : AddressIndex) :
    (countTable index).numbers = ((Address.all.take Address.indexed).map index.count).map Int.ofNat := by
  rw [Table.numbers, countTable, Cells.toList, AddressIndex.toList, List.map_map]
  exact filterMap_written? (fun _ => rfl) _

theorem numbers_lengthTable (s : ScanLists) :
    (lengthTable s).numbers = (ScanLevel.all.map fun level => (s.list level).length).map Int.ofNat :=
  filterMap_written? (fun _ => rfl) _

/-- The table of records holds no number that might not fit. -/
theorem fits_recordTable : (recordTable m o).Fits :=
  Table.fits_of_number?_eq_none rfl

/-- Positions have 16 bits and fit their table. -/
theorem fits_positionsTable (a : Address) (ps : List UInt16) : (positionsTable a ps).Fits := by
  have hnumbers : (positionsTable a ps).numbers = (ps.map UInt16.toNat).map Int.ofNat := filterMap_written? (fun _ => rfl) _
  exact (Table.fits_iff (k := .uint16) rfl rfl hnumbers).2 (List.forall_mem_map.2 fun p _ => p.toNat_lt)

/-- Addresses have eight bits and fit their table. -/
theorem fits_scanListTable (s : ScanLists) (level : ScanLevel) : (scanListTable s level).Fits := by
  have hnumbers : (scanListTable s level).numbers = ((s.list level).map UInt8.toNat).map Int.ofNat :=
    filterMap_written? (fun _ => rfl) _
  exact (Table.fits_iff (k := .uint8) rfl rfl hnumbers).2 (List.forall_mem_map.2 fun a _ => a.toNat_lt)

/-- The counts fit their bytes when no indexed address is claimed more than 255 times. -/
theorem fits_countTable_iff {index : AddressIndex} :
    (countTable index).Fits ↔ ∀ a : Address, a.toNat < Address.indexed → index.count a ≤ 255 := by
  have hmodulus : IntType.uint8.modulus = 256 := rfl
  rw [Table.fits_iff (k := .uint8) rfl rfl (numbers_countTable index), hmodulus, List.forall_mem_map]
  simp only [AddressIndex.mem_indexed, Nat.lt_succ_iff]

/-- The lengths fit their bytes when no scan list has more than 255 addresses. -/
theorem fits_lengthTable_iff {s : ScanLists} : (lengthTable s).Fits ↔ ∀ level, (s.list level).length ≤ 255 := by
  have hmodulus : IntType.uint8.modulus = 256 := rfl
  have hlevels : ∀ level, level ∈ ScanLevel.all := fun level => by cases level <;> decide
  rw [Table.fits_iff (k := .uint8) rfl rfl (numbers_lengthTable s), hmodulus, List.forall_mem_map]
  simp only [hlevels, Nat.lt_succ_iff, true_implies]

/-- Of all tables, only the counts and the lengths can fail to fit. -/
theorem tables_fit_iff : (∀ t, Item.table t ∈ deviceTable m o pollRecordsName → t.Fits) ↔
    (countTable m.index).Fits ∧ (lengthTable m.scan).Fits := by
  constructor
  · intro h
    exact ⟨h _ countTable_mem, h _ lengthTable_mem⟩
  · intro h t ht
    obtain ⟨hcounts, hlengths⟩ := h
    rcases table_mem_deviceTable.1 ht with rfl | ht | ht
    · exact fits_recordTable
    · rcases table_mem_indexItems.1 ht with rfl | ⟨claim, -, rfl⟩ | rfl
      · exact hcounts
      · exact fits_positionsTable claim.1 claim.2
      · exact Table.fits_of_number?_eq_none rfl
    · rcases table_mem_scanItems.1 ht with ⟨level, rfl⟩ | rfl | rfl
      · exact fits_scanListTable m.scan level
      · exact Table.fits_of_number?_eq_none rfl
      · exact hlengths

end Tables

/-! ## When they fit -/

/-- The lengths fit unless a pass holds every address. The last pass never does: it keeps to the scanned window. -/
theorem fits_lengthTable_classify_iff (devices : List DeviceType) : (lengthTable (ScanLists.classify devices)).Fits ↔
    (∃ a, ∀ d ∈ devices, ¬ d.ClaimsFirst a) ∧ ∃ a, (∃ d ∈ devices, d.ClaimsFirst a) ∨ ∀ d ∈ devices, ¬ d.ClaimsSecond a := by
  -- A pass of at most 255 addresses misses one of the 256, as no address is in it twice.
  have hlength : ∀ level, ((ScanLists.classify devices).list level).length ≤ 255 ↔ ∃ a, a ∉ (ScanLists.classify devices).list level :=
    fun level => Address.length_le_iff_exists_notMem (ScanLists.nodup_list devices level)
  have hfirst : ∀ a, a ∉ (ScanLists.classify devices).list .high ↔ ∀ d ∈ devices, ¬ d.ClaimsFirst a := by
    intro a
    rw [ScanLists.list, ScanLists.mem_high_classify]
    push Not
    rfl
  have hsecond : ∀ a, a ∉ (ScanLists.classify devices).list .medium ↔
      (∃ d ∈ devices, d.ClaimsFirst a) ∨ ∀ d ∈ devices, ¬ d.ClaimsSecond a := by
    intro a
    rw [ScanLists.list, ScanLists.mem_medium_classify, ScanLists.mem_high_classify, not_and_or, not_not]
    push Not
    rfl
  have hlast : (0 : Address) ∉ (ScanLists.classify devices).list .low := by
    intro h
    obtain ⟨⟨hwindow, -⟩, -⟩ := (ScanLists.mem_low_classify devices 0).1 h
    exact absurd hwindow (by decide)
  rw [fits_lengthTable_iff]
  simp only [hlength]
  constructor
  · intro h
    exact ⟨(exists_congr hfirst).1 (h .high), (exists_congr hsecond).1 (h .medium)⟩
  · rintro ⟨hhigh, hmedium⟩ level
    cases level with
    | high => exact (exists_congr hfirst).2 hhigh
    | medium => exact (exists_congr hsecond).2 hmedium
    | low => exact ⟨0, hlast⟩

/-- A catalog that lists at most 255 addresses in all leaves an address that no device type claims. -/
theorem exists_unclaimed {devices : List DeviceType} (h : (devices.flatMap DeviceType.addresses).length ≤ 255) :
    ∃ a, ∀ d ∈ devices, ¬ d.ClaimsFirst a ∧ ¬ d.ClaimsSecond a := by
  have hdedup : (devices.flatMap DeviceType.addresses).dedup.length ≤ 255 := Nat.le_trans (List.dedup_sublist _).length_le h
  obtain ⟨a, ha⟩ := (Address.length_le_iff_exists_notMem (List.nodup_dedup _)).1 hdedup
  have hunlisted : ∀ d ∈ devices, a ∉ d.addresses := fun d hd hmem => ha (List.mem_dedup.2 (List.mem_flatMap.2 ⟨d, hd, hmem⟩))
  refine ⟨a, fun d hd => ⟨fun hfirst => hunlisted d hd (List.mem_of_head? hfirst.2), ?_⟩⟩
  rintro (⟨-, htail⟩ | ⟨-, hmem⟩)
  · exact hunlisted d hd (List.mem_of_mem_tail htail)
  · exact hunlisted d hd hmem

/-- The table of counts holds the claims of every indexed address and the table of lengths those of the scan lists, both as bytes.
Everything that the device type table writes fits its type exactly when no indexed address is claimed more than 255 times and neither
of the first two passes has all 256 addresses: some address is claimed first by no device type, and some address is claimed first by
one or second by none. A catalog that lists at most 255 addresses always fits. -/
theorem byte_tables_fit_iff {devices : List DeviceType} {m : Model} (h : (Model.build devices).outcome = .ok m) (o : Options)
    (pollRecordsName : String) :
    (∃ t, Item.table t ∈ deviceTable m o pollRecordsName ∧ t.name = "baseDevTypeCountByAddr" ∧ t.type = .const .uint8 ∧
      t.numbers = (Address.all.take Address.indexed).map fun a => (claimCount devices a : Int)) ∧
    (∃ t, Item.table t ∈ deviceTable m o pollRecordsName ∧ t.name = "scanPriorityListLengths" ∧ t.type = .const .uint8 ∧
      t.numbers = ScanLevel.all.map fun level => (((ScanLists.classify devices).list level).length : Int)) ∧
    ((∀ t, Item.table t ∈ deviceTable m o pollRecordsName → t.Fits) ↔
      (∀ a ≤ (0x7F : Address), claimCount devices a ≤ 255) ∧ (∃ a, ∀ d ∈ devices, ¬ d.ClaimsFirst a) ∧
        ∃ a, (∃ d ∈ devices, d.ClaimsFirst a) ∨ ∀ d ∈ devices, ¬ d.ClaimsSecond a) ∧
    ((devices.flatMap DeviceType.addresses).length ≤ 255 → ∀ t, Item.table t ∈ deviceTable m o pollRecordsName → t.Fits) := by
  have hdescribes := Model.describes_of_build h
  have hcounts : ∀ a ∈ Address.all.take Address.indexed, m.index.count a = claimCount devices a := fun a ha =>
    AddressIndex.count_eq_claimCount hdescribes.index (AddressIndex.mem_indexed.1 ha)
  have hcountsFit : (countTable m.index).Fits ↔ ∀ a ≤ (0x7F : Address), claimCount devices a ≤ 255 := by
    rw [fits_countTable_iff]
    refine forall_congr' fun a => ?_
    have hindexed : a.toNat < Address.indexed ↔ a ≤ 0x7F := by rw [UInt8.le_iff_toNat_le, ← Nat.lt_succ_iff]; rfl
    rw [hindexed]
    exact imp_congr_right fun ha => by rw [hcounts a (AddressIndex.mem_indexed.2 (hindexed.2 ha))]
  have hfits : (∀ t, Item.table t ∈ deviceTable m o pollRecordsName → t.Fits) ↔ _ := tables_fit_iff
  rw [hcountsFit, hdescribes.scan, fits_lengthTable_classify_iff] at hfits
  refine ⟨⟨countTable m.index, countTable_mem, rfl, rfl, ?_⟩, ⟨lengthTable m.scan, lengthTable_mem, rfl, rfl, ?_⟩, hfits,
    fun hfew => hfits.2 ⟨?_, ?_, ?_⟩⟩
  · rw [numbers_countTable, List.map_map]
    exact List.map_congr_left fun a ha => congrArg Int.ofNat (hcounts a ha)
  · rw [numbers_lengthTable, List.map_map, hdescribes.scan]
    rfl
  · exact fun a _ => Nat.le_trans (claimCount_le devices a) hfew
  · obtain ⟨a, ha⟩ := exists_unclaimed hfew
    exact ⟨a, fun d hd => (ha d hd).1⟩
  · obtain ⟨a, ha⟩ := exists_unclaimed hfew
    exact ⟨a, Or.inr fun d hd => (ha d hd).2⟩

/-- Two device types share an address, which the first one lists twice: it is counted three times, and all tables fit. -/
theorem byte_tables_fit_shared_address :
    let devices : List DeviceType :=
      [{ key := "A", addresses := [0x10, 0x10], scanPriority := some (.named "high") }, { key := "B", addresses := [0x10] }]
    ∃ m, (Model.build devices).outcome = .ok m ∧
      (∃ t, Item.table t ∈ deviceTable m { includeDeviceInfo := false } "Polls.h" ∧ t.name = "baseDevTypeCountByAddr" ∧
        t.numbers[0x10]? = some 3) ∧
      ∀ t, Item.table t ∈ deviceTable m { includeDeviceInfo := false } "Polls.h" → t.Fits := by
  intro devices
  obtain ⟨m, hm, -⟩ : ∃ m, (Model.build devices).outcome = .ok m ∧ m.records.map Record.device = devices :=
    Model.exists_build (by decide) (by decide) (by decide)
  obtain ⟨⟨t, ht, hname, -, hnumbers⟩, -, -, hfew⟩ := byte_tables_fit_iff hm { includeDeviceInfo := false } "Polls.h"
  refine ⟨m, hm, ⟨t, ht, hname, ?_⟩, hfew (by decide)⟩
  rw [hnumbers]
  decide

/-- A device type of medium priority with all addresses leaves none to the other passes. -/
theorem numbers_lengthTable_all {d : DeviceType} (hlevel : d.scanLevel? = some .medium) (haddresses : d.addresses = Address.all) :
    (lengthTable (ScanLists.classify [d])).numbers = [0, 256, 0] := by
  have hfirst : ∀ a, a ∉ (ScanLists.classify [d]).high := by
    intro a ha
    obtain ⟨d', hd', hclaims, -⟩ := (ScanLists.mem_high_classify [d] a).1 ha
    rw [List.mem_singleton.1 hd', hlevel] at hclaims
    cases hclaims
  have hsecond : ∀ a, a ∈ (ScanLists.classify [d]).medium := fun a =>
    (ScanLists.mem_medium_classify [d] a).2
      ⟨hfirst a, d, List.mem_singleton_self d, Or.inr ⟨hlevel, haddresses ▸ Address.mem_all a⟩⟩
  have hlast : ∀ a, a ∉ (ScanLists.classify [d]).low := fun a ha => ((ScanLists.mem_low_classify [d] a).1 ha).2.2 (hsecond a)
  have hmedium : (ScanLists.classify [d]).medium.Perm Address.all :=
    (List.perm_ext_iff_of_nodup (ScanLists.nodup_list [d] .medium) Address.nodup_all).2 fun a =>
      iff_of_true (hsecond a) (Address.mem_all a)
  rw [numbers_lengthTable]
  simp only [ScanLevel.all, List.map_cons, List.map_nil, ScanLists.list, hmedium.length_eq, List.eq_nil_iff_forall_not_mem.2 hfirst,
    List.eq_nil_iff_forall_not_mem.2 hlast, Address.length_all]
  rfl

/-- A spec of one token stands for the addresses of that token. -/
theorem outcome_readSpec_of_token {spec : String} {token : List Char} {first last : Address} (htokens : Address.tokens spec = [token])
    (hparse : Address.parseToken? token = some (first, last)) :
    (Address.readSpec spec).outcome = .ok (Address.span first last) := by
  have hread : (Address.readToken spec token).outcome = .ok (Address.span first last) := Address.outcome_readToken_of_parse hparse
  generalize Address.span first last = addresses at hread ⊢
  rw [Address.readSpec, Logged.outcome_bind, Logged.outcome_mapM, htokens, List.mapM_cons, hread]
  exact congrArg Except.ok (List.append_nil addresses)

/-- One device type of medium priority has all addresses: the second scan list holds 256 of them, which is no byte. -/
theorem scan_list_length_exceeds_byte :
    let devices : List DeviceType :=
      [{ key := "A", addressSpec := "0x00-0xff", addresses := Address.span 0x00 0xff, scanPriority := some (.level 2) }]
    ∃ m, (Model.build devices).outcome = .ok m ∧ (Address.readSpec "0x00-0xff").outcome = .ok (Address.span 0x00 0xff) ∧
      ∃ t, Item.table t ∈ deviceTable m { includeDeviceInfo := false } "Polls.h" ∧ t.name = "scanPriorityListLengths" ∧
        t.type = .const .uint8 ∧ t.numbers = [0, 256, 0] ∧ ¬ t.Fits ∧ ¬ ∀ n ∈ t.numbers, 0 ≤ n ∧ n ≤ 255 := by
  intro devices
  obtain ⟨m, hm, -⟩ : ∃ m, (Model.build devices).outcome = .ok m ∧ m.records.map Record.device = devices :=
    Model.exists_build (by decide) (by decide) (by decide)
  have hspan : Address.span 0x00 0xff = Address.all := by
    refine List.map_congr_left fun i _ => ?_
    have hzero : (0x00 : Address).toNat = 0 := rfl
    rw [hzero, Nat.zero_add]
  have hspec : (Address.readSpec "0x00-0xff").outcome = .ok (Address.span 0x00 0xff) :=
    outcome_readSpec_of_token (by decide : Address.tokens "0x00-0xff" = ["0x00-0xff".toList]) (by decide)
  have hnumbers : (lengthTable m.scan).numbers = [0, 256, 0] := by
    rw [(Model.describes_of_build hm).scan]
    exact numbers_lengthTable_all rfl hspan
  refine ⟨m, hm, hspec, lengthTable m.scan, lengthTable_mem, rfl, rfl, hnumbers, fun hfits => ?_, fun hbytes => ?_⟩
  · have hwrap := hfits .uint8 rfl 256 (by rw [hnumbers]; decide)
    exact absurd hwrap (by decide)
  · have hbyte := (hbytes 256 (by rw [hnumbers]; decide)).2
    exact absurd hbyte (by decide)

end Artifact

end DeviceCatalog
