import DeviceCatalog.Proofs.AddressGrammar
import DeviceCatalog.Proofs.AddressIndex
import DeviceCatalog.Proofs.RecordTable

/-!
# The lookup tables read back

The tables behind the records hold numbers, addresses and names of each other. Read back, they are the index and the scan lists of the
model: `tableDeclarations` lists what they declare, in order, and every promise about them is a lookup in that list.
-/

namespace DeviceCatalog

open CSource

/-! ## Numerals and addresses -/

/-- The text of an address is read as the address. -/
theorem Address.parse?_text (a : Address) : parse? a.text.toList = some a := by
  have htext : a.text.toList = ['0', 'x', Nat.digitChar (a.toNat / 16), Nat.digitChar (a.toNat % 16)] := by
    simp [Address.text, Text.hexByte]
  exact parse?_eq_some_iff.2 (spells_iff.2 ⟨_, _, htext, Or.inl rfl, Or.inl rfl⟩)

/-- Different addresses have different texts. -/
theorem Address.text_injective : Function.Injective Address.text := by
  intro a b h
  have hread := congrArg (fun s => parse? s.toList) h
  simpa [parse?_text] using hread

theorem Address.nodup_all : all.Nodup := by
  refine List.Nodup.map_on ?_ List.nodup_range
  intro i hi j hj h
  have hvalues := congrArg UInt8.toNat h
  rwa [UInt8.toNat_ofNat_of_lt' (List.mem_range.1 hi), UInt8.toNat_ofNat_of_lt' (List.mem_range.1 hj)] at hvalues

/-- The indexed addresses stand in the list of all addresses at their own number. -/
theorem Address.all_take_getElem? {a : Address} (h : a.toNat < indexed) : (all.take indexed)[a.toNat]? = some a := by
  have hlt := a.toNat_lt
  rw [List.getElem?_take, if_pos h, all, List.getElem?_map, List.getElem?_range hlt, Option.map_some, UInt8.ofNat_toNat]

namespace Artifact

/-! ## What the tables declare -/

/-- The cells of a list of positions. -/
def positionCells (ps : List UInt16) : List Cell :=
  ps.map fun p => .word (Text.decimal p.toNat)

/-- The cells that count the claims of each address. -/
def countCells (index : AddressIndex) : List Cell :=
  index.toList.map fun entry => .word (Text.decimal (index.count entry.1))

/-- The cells that point to the positions of each address. -/
def slotCells (index : AddressIndex) : List Cell :=
  index.toList.map fun entry => .word (if entry.2.isNone then "nullptr" else positionsName entry.1)

/-- The arrays of positions, by their names. -/
def positionArrays (index : AddressIndex) : List (String × List Cell) :=
  index.claimed.map fun claim => (positionsName claim.1, positionCells claim.2)

/-- What stands before the arrays of positions. -/
def leadingDeclarations (index : AddressIndex) : List (String × List Cell) :=
  [ ("BASE_DEV_INDEX_BY_ARRAY_MIN_ADDR", [.word "0"]), ("BASE_DEV_INDEX_BY_ARRAY_MAX_ADDR", [.word "0x77"]),
    ("baseDevTypeCountByAddr", countCells index) ]

/-- What stands behind the arrays of positions. -/
def trailingDeclarations (index : AddressIndex) (s : ScanLists) : List (String × List Cell) :=
  [ ("baseDevTypeIndexByAddr", slotCells index),
    ("scanPriority0", s.high.map fun a => .word a.text), ("scanPriority1", s.medium.map fun a => .word a.text),
    ("scanPriority2", s.low.map fun a => .word a.text),
    ("scanPriorityLists", [.word "scanPriority0", .word "scanPriority1", .word "scanPriority2"]),
    ("scanPriorityListLengths",
      [.word (Text.decimal s.high.length), .word (Text.decimal s.medium.length), .word (Text.decimal s.low.length)]),
    ("numScanPriorityLists", [.word "3"]) ]

/-- Everything that the lookup tables declare, in order. -/
def tableDeclarations (index : AddressIndex) (s : ScanLists) : List (String × List Cell) :=
  leadingDeclarations index ++ positionArrays index ++ trailingDeclarations index s

/-! ## Their items are data -/

theorem isWord_positionsName (a : Address) : IsWord (positionsName a).toList := by
  have hstart : IsWord "baseDevTypeIndexByAddr_".toList := ⟨by decide, by decide⟩
  exact hstart.append (List.all_eq_true.1 (isWord_address a).2)

/-- The items of the index declare tables and constants only. -/
theorem isData_indexItems (index : AddressIndex) : ∀ item ∈ indexItems index, item.IsData := by
  -- Three kinds of tables take their cells from the index: the counts, the pointers and the positions.
  have hcounts : ∀ e ∈ index.toList.map (fun entry => Expr.decimal (index.count entry.1)), e.IsPlain := by
    intro e he
    obtain ⟨entry, -, rfl⟩ := List.mem_map.1 he
    exact isPlain_decimal _
  have hslots : ∀ e ∈ index.toList.map (fun entry => if entry.2.isNone then Expr.var "nullptr" else .var (positionsName entry.1)),
      e.IsPlain := by
    intro e he
    obtain ⟨entry, -, rfl⟩ := List.mem_map.1 he
    split
    · exact isPlain_var ⟨by decide, by decide⟩
    · exact isPlain_var (isWord_positionsName _)
  have hpositions : ∀ (ps : List UInt16), ∀ e ∈ ps.map (fun p => Expr.decimal p.toNat), e.IsPlain := by
    intro ps e he
    obtain ⟨p, -, rfl⟩ := List.mem_map.1 he
    exact isPlain_decimal _
  intro item hitem
  simp only [indexItems, List.mem_append, List.mem_cons, List.not_mem_nil, or_false, List.mem_map] at hitem
  rcases hitem with ((rfl | rfl | rfl | rfl | rfl) | ⟨claim, -, rfl⟩) | rfl | rfl
  · exact ⟨trivial, ⟨by decide, by decide⟩, isPlain_decimal 0⟩
  · exact ⟨trivial, ⟨by decide, by decide⟩, isPlain_address _⟩
  · trivial
  · exact ⟨trivial, (⟨by decide, by decide⟩ : IsWord "baseDevTypeCountByAddr".toList), hcounts⟩
  · trivial
  · exact ⟨trivial, isWord_positionsName _, hpositions claim.2⟩
  · trivial
  · exact ⟨trivial, (⟨by decide, by decide⟩ : IsWord "baseDevTypeIndexByAddr".toList), hslots⟩

theorem isWord_scanListName (level : ScanLevel) : IsWord (scanListName level).toList := by
  cases level <;> exact ⟨by decide, by decide⟩

/-- The items of the scan lists declare tables and constants only. -/
theorem isData_scanItems (s : ScanLists) : ∀ item ∈ scanItems s, item.IsData := by
  have haddresses : ∀ level, ∀ e ∈ (s.list level).map Expr.address, e.IsPlain := by
    intro level e he
    obtain ⟨a, -, rfl⟩ := List.mem_map.1 he
    exact isPlain_address a
  have hnames : ∀ e ∈ ScanLevel.all.map (fun l => Expr.var (scanListName l)), e.IsPlain := by
    intro e he
    obtain ⟨level, -, rfl⟩ := List.mem_map.1 he
    exact isPlain_var (isWord_scanListName level)
  have hlengths : ∀ e ∈ ScanLevel.all.map (fun l => Expr.decimal (s.list l).length), e.IsPlain := by
    intro e he
    obtain ⟨level, -, rfl⟩ := List.mem_map.1 he
    exact isPlain_decimal _
  intro item hitem
  simp only [scanItems, List.mem_append, List.mem_flatMap, List.mem_cons, List.not_mem_nil, or_false] at hitem
  rcases hitem with ⟨level, -, rfl | rfl | rfl⟩ | rfl | rfl | rfl | rfl | rfl | rfl
  · trivial
  · trivial
  · exact ⟨trivial, isWord_scanListName level, haddresses level⟩
  · trivial
  · exact ⟨trivial, ⟨by decide, by decide⟩, hnames⟩
  · trivial
  · exact ⟨trivial, (⟨by decide, by decide⟩ : IsWord "scanPriorityListLengths".toList), hlengths⟩
  · trivial
  · exact ⟨trivial, ⟨by decide, by decide⟩, isPlain_decimal _⟩

/-- What the index declares: its size and its counts, then the arrays of positions, then the table of pointers to them. -/
theorem declared_indexItems (index : AddressIndex) : (indexItems index).filterMap Item.declared? =
    leadingDeclarations index ++ positionArrays index ++ [("baseDevTypeIndexByAddr", slotCells index)] := by
  have hminimum : (Expr.decimal 0).cell = .word "0" := Expr.cell_decimal 0
  have hmaximum : (Expr.address Address.lastScanned).cell = .word "0x77" := by decide
  have hcounts : (index.toList.map fun entry => Expr.decimal (index.count entry.1)).map Expr.cell = countCells index := by
    simp [countCells]
  have harrays : (index.claimed.map fun claim => Item.table (positionsTable claim.1 claim.2)).filterMap Item.declared? =
      positionArrays index := by
    rw [List.filterMap_map, positionArrays, ← List.filterMap_eq_map]
    refine List.filterMap_congr fun claim _ => ?_
    simp [positionsTable, Item.declared?, positionCells]
  have hslots : (index.toList.map fun entry => if entry.2.isNone then Expr.var "nullptr" else .var (positionsName entry.1)).map
      Expr.cell = slotCells index := by
    simp [slotCells, apply_ite Expr.cell, apply_ite Cell.word]
  simp only [indexItems, List.filterMap_append, harrays]
  simp only [List.filterMap_cons, List.filterMap_nil, Item.declared?, countTable, pointerTable, hminimum, hmaximum, hcounts, hslots,
    leadingDeclarations]

theorem scanListName_eq : scanListName .high = "scanPriority0" ∧ scanListName .medium = "scanPriority1" ∧
    scanListName .low = "scanPriority2" := by
  decide

/-- What the table of pointers and the scan lists declare. -/
theorem declared_scanItems (index : AddressIndex) (s : ScanLists) :
    ("baseDevTypeIndexByAddr", slotCells index) :: (scanItems s).filterMap Item.declared? = trailingDeclarations index s := by
  have haddresses : ∀ as : List Address, (as.map Expr.address).map Expr.cell = as.map fun a => .word a.text := by simp
  have hthree : Text.decimal (0 + 1 + 1 + 1) = "3" := by decide
  simp only [scanItems, ScanLevel.all, scanListTable, ScanLists.list, List.flatMap_cons, List.flatMap_nil, List.map_cons, List.map_nil,
    List.cons_append, List.nil_append, List.append_nil, List.filterMap_cons, List.filterMap_nil, Item.declared?, haddresses, scanListName_eq,
    Expr.cell_var, Expr.cell_decimal, List.length_cons, List.length_nil, hthree, trailingDeclarations]

/-- The tables declare what is listed, in that order. -/
theorem declared_tables (index : AddressIndex) (s : ScanLists) :
    (indexItems index ++ scanItems s).filterMap Item.declared? = tableDeclarations index s := by
  rw [List.filterMap_append, declared_indexItems, tableDeclarations, ← declared_scanItems, List.append_assoc, List.singleton_append]

/-- Index and scan lists read back as the declarations of the tables. -/
theorem declarations?_tables (index : AddressIndex) (s : ScanLists) :
    declarations? (fileText (indexItems index ++ scanItems s)) = some (tableDeclarations index s) := by
  rw [← declared_tables]
  refine declarations?_fileText fun item hitem => ?_
  rcases List.mem_append.1 hitem with hitem | hitem
  · exact isData_indexItems index item hitem
  · exact isData_scanItems s item hitem

/-! ## Their names -/

/-- Different addresses have arrays of different names. -/
theorem positionsName_injective : Function.Injective positionsName := by
  intro a b h
  unfold positionsName at h
  exact Address.text_injective ((String.append_right_inj _).1 h)

/-- The name starts as that of an array of positions. -/
def IsPositionsName (name : String) : Prop :=
  "baseDevTypeIndexByAddr_".toList <+: name.toList

instance (name : String) : Decidable (IsPositionsName name) :=
  inferInstanceAs (Decidable (_ <+: _))

theorem isPositionsName_positionsName (a : Address) : IsPositionsName (positionsName a) := by
  unfold IsPositionsName positionsName
  rw [String.toList_append]
  exact List.prefix_append _ _

/-- The names in front of the arrays of positions. -/
def leadingNames : List String :=
  ["BASE_DEV_INDEX_BY_ARRAY_MIN_ADDR", "BASE_DEV_INDEX_BY_ARRAY_MAX_ADDR", "baseDevTypeCountByAddr"]

/-- The names behind them. -/
def trailingNames : List String :=
  ["baseDevTypeIndexByAddr", "scanPriority0", "scanPriority1", "scanPriority2", "scanPriorityLists", "scanPriorityListLengths",
    "numScanPriorityLists"]

/-- The names of the tables, in order. -/
theorem map_fst_tableDeclarations (index : AddressIndex) (s : ScanLists) : (tableDeclarations index s).map Prod.fst =
    leadingNames ++ (index.claimed.map Prod.fst).map positionsName ++ trailingNames := by
  simp only [tableDeclarations, List.map_append, positionArrays, List.map_map]
  rfl

/-- No address is listed twice among the claimed ones. -/
theorem nodup_claimed (index : AddressIndex) : (index.claimed.map Prod.fst).Nodup := by
  have hclaimed : index.claimed.map Prod.fst = (Address.all.take Address.indexed).filter fun a => (index.positions? a).isSome := by
    rw [AddressIndex.claimed, AddressIndex.toList, List.filterMap_map, List.map_filterMap, ← List.filterMap_eq_filter]
    refine List.filterMap_congr fun a _ => ?_
    cases h : index.positions? a <;> simp [Option.guard, h]
  rw [hclaimed]
  exact (Address.nodup_all.sublist (List.take_sublist _ _)).filter _

/-- No name is declared twice. -/
theorem nodup_tableDeclarations (index : AddressIndex) (s : ScanLists) : ((tableDeclarations index s).map Prod.fst).Nodup := by
  have hleading : ∀ name ∈ leadingNames, ¬ IsPositionsName name := by decide
  have htrailing : ∀ name ∈ trailingNames, ¬ IsPositionsName name := by decide
  have hapart : ∀ name ∈ leadingNames, ∀ other ∈ trailingNames, name ≠ other := by decide
  have harrays : ∀ name ∈ (index.claimed.map Prod.fst).map positionsName, IsPositionsName name := by
    intro name hname
    obtain ⟨a, -, rfl⟩ := List.mem_map.1 hname
    exact isPositionsName_positionsName a
  rw [map_fst_tableDeclarations, List.nodup_append, List.nodup_append]
  refine ⟨⟨by decide, (nodup_claimed index).map positionsName_injective, ?_⟩, by decide, ?_⟩
  · rintro name hname _ hother rfl
    exact hleading name hname (harrays name hother)
  · rintro name hname _ hother rfl
    rcases List.mem_append.1 hname with hname | hname
    · exact hapart name hname name hother rfl
    · exact htrailing name hother (harrays name hname)

/-! ## Their cells -/

theorem length_toList (index : AddressIndex) : index.toList.length = Address.indexed := by
  rw [AddressIndex.toList, List.length_map, List.length_take, Address.all, List.length_map, List.length_range]
  rfl

/-- The entry of an address stands at its number. -/
theorem toList_getElem? (index : AddressIndex) {a : Address} (h : a.toNat < Address.indexed) :
    index.toList[a.toNat]? = some (a, index.positions? a) := by
  rw [AddressIndex.toList, List.getElem?_map, Address.all_take_getElem? h, Option.map_some]

/-- The cell at the number of an address says how many device types claim it. -/
theorem countCells_getElem? (index : AddressIndex) {a : Address} (h : a.toNat < Address.indexed) :
    (countCells index)[a.toNat]?.bind Cell.number? = some (index.count a) := by
  rw [countCells, List.getElem?_map, toList_getElem? index h, Option.map_some, Option.bind_some, Cell.number?_decimal]

/-- The cell at the number of an address names the array of its positions, or says that there is none. -/
theorem slotCells_getElem? (index : AddressIndex) {a : Address} (h : a.toNat < Address.indexed) :
    (slotCells index)[a.toNat]? = some (.word (if (index.positions? a).isNone then "nullptr" else positionsName a)) := by
  rw [slotCells, List.getElem?_map, toList_getElem? index h, Option.map_some]

theorem number?_positionCells (ps : List UInt16) : (positionCells ps).map Cell.number? = ps.map fun p => some p.toNat := by
  rw [positionCells, List.map_map]
  exact List.map_congr_left fun p _ => Cell.number?_decimal p.toNat

theorem address?_addressCells (as : List Address) : (as.map fun a => Cell.word a.text).map Cell.address? = as.map some := by
  rw [List.map_map]
  exact List.map_congr_left fun a _ => Address.parse?_text a

theorem positionsName_ne_nullptr (a : Address) : positionsName a ≠ "nullptr" := by
  have hnull : ¬ IsPositionsName "nullptr" := by decide
  intro h
  exact hnull (h ▸ isPositionsName_positionsName a)

/-! ## The arrays of positions -/

/-- An array of positions is declared with the positions of its address, if that has any. -/
theorem mem_positionArrays_iff {index : AddressIndex} {a : Address} {cells : List Cell} :
    (positionsName a, cells) ∈ positionArrays index ↔ ∃ ps, index.positions? a = some ps ∧ cells = positionCells ps := by
  rw [positionArrays, List.mem_map]
  constructor
  · intro h
    obtain ⟨⟨b, ps⟩, hmem, heq⟩ := h
    obtain ⟨hname, rfl⟩ := Prod.mk.inj heq
    obtain rfl := positionsName_injective hname
    exact ⟨ps, AddressIndex.mem_claimed.1 hmem, rfl⟩
  · intro h
    obtain ⟨ps, hps, rfl⟩ := h
    exact ⟨(a, ps), AddressIndex.mem_claimed.2 hps, rfl⟩

/-- No other table has the name of an array of positions. -/
theorem mem_tableDeclarations_iff {index : AddressIndex} {s : ScanLists} {a : Address} {cells : List Cell} :
    (positionsName a, cells) ∈ tableDeclarations index s ↔ (positionsName a, cells) ∈ positionArrays index := by
  have hleading : ∀ name ∈ leadingNames, ¬ IsPositionsName name := by decide
  have htrailing : ∀ name ∈ trailingNames, ¬ IsPositionsName name := by decide
  have hname := isPositionsName_positionsName a
  rw [tableDeclarations, List.mem_append, List.mem_append]
  constructor
  · rintro ((h | h) | h)
    · exact absurd hname (hleading _ (List.mem_map_of_mem h : positionsName a ∈ (leadingDeclarations index).map Prod.fst))
    · exact h
    · exact absurd hname (htrailing _ (List.mem_map_of_mem h : positionsName a ∈ (trailingDeclarations index s).map Prod.fst))
  · exact fun h => Or.inl (Or.inr h)

/-- The listed positions are those of device types that have the address. -/
theorem exists_device_of_mem_positions {devices : List DeviceType} {index : AddressIndex} (h : AddressIndex.build devices = .ok index)
    {a : Address} {p : UInt16} (hp : p ∈ index.positions a) : ∃ d, devices[p.toNat]? = some d ∧ a ∈ d.addresses := by
  have ha : a.toNat < Address.indexed := by
    by_contra hge
    rw [AddressIndex.positions, AddressIndex.positions?_of_le index (Nat.not_lt.1 hge)] at hp
    cases hp
  have hclaim : p.toNat ∈ AddressIndex.claims devices.zipIdx a := by
    rw [← AddressIndex.map_toNat_positions h ha]
    exact List.mem_map_of_mem hp
  obtain ⟨d, hd, hmem⟩ := AddressIndex.mem_claims.1 hclaim
  exact ⟨d, List.mem_zipIdx_iff_getElem?.1 hd, hmem⟩

/-! ## The tables of a model -/

/-- The declarations and the rows of the table of records say what the model says: the claims of every address, where to find them, and
the scan lists. -/
structure TablesSay (devices : List DeviceType) (m : Model) (o : Options) (rows : List (List Cell)) (ds : List (String × List Cell)) :
    Prop where
  /-- No name is declared twice. -/
  names : (ds.map Prod.fst).Nodup
  /-- The counts of the indexed addresses are the numbers of their claims. -/
  counts : ∃ cells, ("baseDevTypeCountByAddr", cells) ∈ ds ∧ cells.length = 128 ∧
    ∀ a ≤ (0x7F : Address), cells[a.toNat]?.bind Cell.number? = some (m.index.positions a).length
  /-- Exactly the addresses with claims have an array. -/
  arrays : ∀ a : Address, (∃ cells, ("baseDevTypeIndexByAddr_" ++ a.text, cells) ∈ ds) ↔ (m.index.positions a).length ≠ 0
  /-- The array of an address holds its claims. -/
  positions : ∀ (a : Address) (cells : List Cell), ("baseDevTypeIndexByAddr_" ++ a.text, cells) ∈ ds →
    cells.map Cell.number? = (m.index.positions a).map fun p => some p.toNat
  /-- A claim is the place, in the table of records, of a device type with the address. -/
  claims : ∀ a, ∀ p ∈ m.index.positions a, ∃ d, devices[p.toNat]? = some d ∧ a ∈ d.addresses ∧ rows[p.toNat]? = some (recordCells o d)
  /-- The pointer of an address is null when it has no claims; otherwise it is its array, which is declared before. -/
  pointers : ∃ earlier cells later, ds = earlier ++ ("baseDevTypeIndexByAddr", cells) :: later ∧ cells.length = 128 ∧
    ∀ a ≤ (0x7F : Address), (cells[a.toNat]? = some (.word "nullptr") ↔ (m.index.positions a).length = 0) ∧
      ((m.index.positions a).length ≠ 0 → cells[a.toNat]? = some (.word ("baseDevTypeIndexByAddr_" ++ a.text)) ∧
        ∃ array, ("baseDevTypeIndexByAddr_" ++ a.text, array) ∈ earlier)
  /-- The scan lists and their lengths are those of the device types. -/
  scanLists : ∃ lengths, ("scanPriorityListLengths", lengths) ∈ ds ∧ lengths.length = 3 ∧
    ∀ level : ScanLevel, lengths[level.index]?.bind Cell.number? = some ((ScanLists.classify devices).list level).length ∧
      ∃ cells, ("scanPriority" ++ Text.decimal level.index, cells) ∈ ds ∧
        cells.map Cell.address? = ((ScanLists.classify devices).list level).map some

/-- No device type claims an address exactly when the index has no positions for it. -/
theorem positions_length_eq_zero_iff {devices : List DeviceType} {index : AddressIndex} (h : AddressIndex.build devices = .ok index)
    (a : Address) : (index.positions a).length = 0 ↔ index.positions? a = none := by
  rw [List.length_eq_zero_iff, AddressIndex.positions?_eq_none_iff (AddressIndex.noneEmpty_of_build h)]

/-- There is an array of positions for an address exactly when it has positions. -/
theorem exists_array_iff {devices : List DeviceType} {index : AddressIndex} (h : AddressIndex.build devices = .ok index) (a : Address) :
    (∃ cells, (positionsName a, cells) ∈ positionArrays index) ↔ (index.positions a).length ≠ 0 := by
  rw [ne_eq, positions_length_eq_zero_iff h, ← ne_eq, Option.ne_none_iff_exists']
  simp only [mem_positionArrays_iff]
  constructor
  · rintro ⟨cells, ps, hps, -⟩
    exact ⟨ps, hps⟩
  · rintro ⟨ps, hps⟩
    exact ⟨_, ps, hps, rfl⟩

/-- The pointer of an address is null exactly when the address has no claims. -/
theorem slotCells_eq_nullptr_iff {devices : List DeviceType} {index : AddressIndex} (h : AddressIndex.build devices = .ok index) {a : Address}
    (ha : a.toNat < Address.indexed) : (slotCells index)[a.toNat]? = some (.word "nullptr") ↔ (index.positions a).length = 0 := by
  rw [slotCells_getElem? index ha, positions_length_eq_zero_iff h]
  cases index.positions? a with
  | none => exact iff_of_true rfl rfl
  | some ps => exact iff_of_false (fun heq => positionsName_ne_nullptr a (Cell.word.inj (Option.some.inj heq))) (Option.some_ne_none ps)

/-- An address with claims has the array of its claims as its pointer. -/
theorem slotCells_of_claimed {devices : List DeviceType} {index : AddressIndex} (h : AddressIndex.build devices = .ok index) {a : Address}
    (ha : a.toNat < Address.indexed) (hclaimed : (index.positions a).length ≠ 0) :
    (slotCells index)[a.toNat]? = some (.word (positionsName a)) := by
  rw [ne_eq, positions_length_eq_zero_iff h] at hclaimed
  rw [slotCells_getElem? index ha, Option.isNone_eq_false_iff.2 (Option.isSome_iff_ne_none.2 hclaimed)]
  rfl

/-- The table of lengths holds the lengths of the scan lists. -/
theorem exists_scanListLengths (index : AddressIndex) (s : ScanLists) :
    ∃ lengths, ("scanPriorityListLengths", lengths) ∈ tableDeclarations index s ∧ lengths.length = 3 ∧
      ∀ level : ScanLevel, lengths[level.index]?.bind Cell.number? = some (s.list level).length := by
  refine ⟨[.word (Text.decimal s.high.length), .word (Text.decimal s.medium.length), .word (Text.decimal s.low.length)],
    List.mem_append_right _ (by simp [trailingDeclarations]), rfl, fun level => ?_⟩
  cases level
  · exact Cell.number?_decimal _
  · exact Cell.number?_decimal _
  · exact Cell.number?_decimal _

/-- Every scan list is among the declared tables, under its name and with its addresses. -/
theorem mem_tableDeclarations_scanList (index : AddressIndex) (s : ScanLists) (level : ScanLevel) :
    (scanListName level, (s.list level).map fun a => Cell.word a.text) ∈ tableDeclarations index s := by
  refine List.mem_append_right _ ?_
  cases level <;> simp [trailingDeclarations, ScanLists.list, scanListName_eq]

/-- The tables of a model say what the model holds, and the model describes the device types: so they say of each device type what is known
of it. -/
theorem tablesSay_of_describes {devices : List DeviceType} {m : Model} (h : m.Describes devices) (o : Options) :
    TablesSay devices m o (devices.map (recordCells o)) (tableDeclarations m.index m.scan) where
  names := nodup_tableDeclarations m.index m.scan
  counts := by
    refine ⟨countCells m.index, by simp [tableDeclarations, leadingDeclarations], ?_, fun a ha => ?_⟩
    · rw [countCells, List.length_map, length_toList, Address.indexed]
    · exact countCells_getElem? m.index (Nat.lt_succ_of_le (UInt8.le_iff_toNat_le.1 ha))
  arrays := by
    intro a
    rw [← exists_array_iff h.index a]
    exact exists_congr fun cells => mem_tableDeclarations_iff
  positions := by
    intro a cells hcells
    obtain ⟨ps, hps, rfl⟩ := mem_positionArrays_iff.1 (mem_tableDeclarations_iff.1 hcells)
    rw [number?_positionCells, AddressIndex.positions, hps, Option.getD_some]
  claims := by
    intro a p hp
    obtain ⟨d, hd, ha⟩ := exists_device_of_mem_positions h.index hp
    exact ⟨d, hd, ha, by rw [List.getElem?_map, hd, Option.map_some]⟩
  pointers := by
    refine ⟨leadingDeclarations m.index ++ positionArrays m.index, slotCells m.index, (trailingDeclarations m.index m.scan).tail, rfl, ?_,
      fun a ha => ?_⟩
    · rw [slotCells, List.length_map, length_toList, Address.indexed]
    · have hindexed : a.toNat < Address.indexed := Nat.lt_succ_of_le (UInt8.le_iff_toNat_le.1 ha)
      refine ⟨slotCells_eq_nullptr_iff h.index hindexed, fun hclaimed => ⟨slotCells_of_claimed h.index hindexed hclaimed, ?_⟩⟩
      obtain ⟨array, harray⟩ := (exists_array_iff h.index a).2 hclaimed
      exact ⟨array, List.mem_append_right _ harray⟩
  scanLists := by
    obtain ⟨lengths, hmem, hthree, hlengths⟩ := exists_scanListLengths m.index m.scan
    rw [← h.scan]
    exact ⟨lengths, hmem, hthree, fun level =>
      ⟨hlengths level, _, mem_tableDeclarations_scanList m.index m.scan level, address?_addressCells _⟩⟩

/-- The lookup tables stand at the end of the file of a model, and read back, with the table of records before them, they say what the
model says. -/
theorem lookup_tables_read_back {devices : List DeviceType} {m : Model} (h : (Model.build devices).outcome = .ok m) (o : Options)
    (pollRecordsName : String) :
    ∃ before between rows ds, deviceTable m o pollRecordsName =
        before ++ .table (recordTable m o) :: between ++ (indexItems m.index ++ scanItems m.scan) ∧
      rows? (Item.table (recordTable m o)).text = some ("baseDevTypeRecords", rows) ∧
      declarations? (fileText (indexItems m.index ++ scanItems m.scan)) = some ds ∧ TablesSay devices m o rows ds := by
  have hdescribes := Model.describes_of_build h
  refine ⟨tableHead o pollRecordsName ++ (if o.decoding then nativeDecoders m o else []), [.blank], _, _, ?_,
    rows?_recordTable hdescribes o, declarations?_tables m.index m.scan, tablesSay_of_describes hdescribes o⟩
  simp [deviceTable]

/-- Two device types share an address, which the first one lists twice: the array of the address holds three positions and the next
address has none. -/
theorem lookup_tables_shared_address :
    let devices : List DeviceType :=
      [{ key := "A", addresses := [0x10, 0x10], scanPriority := some (.named "high") }, { key := "B", addresses := [0x10] }]
    ∃ m ds, (Model.build devices).outcome = .ok m ∧ declarations? (fileText (indexItems m.index ++ scanItems m.scan)) = some ds ∧
      (∃ cells, ("baseDevTypeIndexByAddr_0x10", cells) ∈ ds ∧ cells.map Cell.number? = [some 0, some 0, some 1]) ∧
      ∀ cells, ("baseDevTypeIndexByAddr_0x11", cells) ∉ ds := by
  intro devices
  have hnames : Model.DistinctNames devices := by
    unfold Model.DistinctNames
    decide
  have haccepts : Model.Accepts devices := ⟨by decide, hnames, Model.positionsFit_of_length (by decide)⟩
  obtain ⟨m, hm⟩ := Model.exists_outcome_build_eq_ok_iff.2 haccepts
  obtain ⟨-, -, rows, ds, -, -, hds, hsay⟩ := lookup_tables_read_back hm { includeDeviceInfo := false } ""
  have hindex := (Model.describes_of_build hm).index
  have hclaims : ∀ a : Address, a.toNat < Address.indexed →
      (m.index.positions a).map UInt16.toNat = AddressIndex.claims devices.zipIdx a := fun a ha =>
    AddressIndex.map_toNat_positions hindex ha
  have hshared : (m.index.positions 0x10).map UInt16.toNat = [0, 0, 1] := hclaims 0x10 (by decide)
  have hother : (m.index.positions 0x11).map UInt16.toNat = [] := hclaims 0x11 (by decide)
  refine ⟨m, ds, hm, hds, ?_, ?_⟩
  · have hsome : (m.index.positions 0x10).length ≠ 0 := by
      have hlength := congrArg List.length hshared
      rw [List.length_map] at hlength
      rw [hlength]
      decide
    obtain ⟨cells, hcells⟩ := (hsay.arrays 0x10).2 hsome
    have hnumbers := hsay.positions 0x10 cells hcells
    have hsplit := congrArg (List.map some) hshared
    rw [List.map_map] at hsplit
    exact ⟨cells, hcells, hnumbers.trans hsplit⟩
  · intro cells hcells
    have hsome := (hsay.arrays 0x11).1 ⟨cells, hcells⟩
    rw [List.map_eq_nil_iff.1 hother] at hsome
    exact hsome rfl

end Artifact

end DeviceCatalog
