import DeviceCatalog.Artifact.Decoders

/-!
# The device type table

The records of all device types, the tables that find the records of an address, and the addresses of each scan list. With
decoding, the decoders stand in front, so that the records can refer to them.
-/

namespace DeviceCatalog.Artifact

open CSource

/-- The columns of a record: five texts, the size of the poll response, the device info and the decoder. -/
def recordColumns (o : Options) (r : Record) : List Expr :=
  [ .raw r.device.typeName, .raw r.device.addressSpec, .raw r.device.detectionValues, .raw r.device.initValues,
    .raw r.device.pollInfo.compact, .decimal r.layout.size,
    if o.includeDeviceInfo then .raw r.device.deviceInfo.compact else .var "nullptr" ] ++
    (if o.decoding then [.var (decoderName r)] else [])

/-- The table of records. -/
def recordTable (m : Model) (o : Options) : Table :=
  ⟨.named "DeviceTypeRecord", "baseDevTypeRecords", .records (m.records.map (recordColumns o))⟩

/-- The array that holds the positions of an address. -/
def positionsName (a : Address) : String := "baseDevTypeIndexByAddr_" ++ a.text

/-- The number of records of each address. -/
def countTable (index : AddressIndex) : Table :=
  ⟨.const .uint8, "baseDevTypeCountByAddr", .row (index.toList.map fun (a, _) => .decimal (index.count a))⟩

/-- The positions of an address. -/
def positionsTable (a : Address) (positions : List UInt16) : Table :=
  ⟨.uint16, positionsName a, .inline (positions.map fun p => .decimal p.toNat)⟩

/-- The array of each address, or none. -/
def pointerTable (index : AddressIndex) : Table :=
  ⟨.pointer .uint16, "baseDevTypeIndexByAddr",
    .column (index.toList.map fun (a, ps) => if ps.isNone then .var "nullptr" else .var (positionsName a))⟩

/-- The tables that find the records of an address. -/
def indexItems (index : AddressIndex) : List Item :=
  [ .constant .uint32 "BASE_DEV_INDEX_BY_ARRAY_MIN_ADDR" (.decimal 0),
    .constant .uint32 "BASE_DEV_INDEX_BY_ARRAY_MAX_ADDR" (.address Address.lastScanned),
    .blank, .table (countTable index), .blank ] ++
    (index.claimed.map fun (a, ps) => .table (positionsTable a ps)) ++ [.blank, .table (pointerTable index)]

/-- The array that holds a scan list. -/
def scanListName (level : ScanLevel) : String := "scanPriority" ++ Text.decimal level.index

/-- The addresses of a scan list. -/
def scanListTable (s : ScanLists) (level : ScanLevel) : Table :=
  ⟨.const .uint8, scanListName level, .row ((s.list level).map Expr.address)⟩

/-- The scan lists, the array of them, their lengths and their number. -/
def scanItems (s : ScanLists) : List Item :=
  (ScanLevel.all.flatMap fun level => [.blank, .blank, .table (scanListTable s level)]) ++
    [ .blank,
      .table ⟨.pointer (.const .uint8), "scanPriorityLists", .column (ScanLevel.all.map fun l => .var (scanListName l))⟩,
      .blank,
      .table ⟨.const .uint8, "scanPriorityListLengths",
        .column (ScanLevel.all.map fun l => .decimal (s.list l).length)⟩,
      .blank, .constant .uint8 "numScanPriorityLists" (.decimal ScanLevel.all.length) ]

/-- The directives at the start of the table. -/
def tableHead (o : Options) (pollRecordsName : String) : List Item :=
  [.pragmaOnce, .includeSystem "stdint.h", .includeLocal pollRecordsName, .includeLocal "RaftUtils.h"] ++
    (if o.decoding then [.includeLocal "RaftBus.h"] else []) ++ [.usingNamespace "Raft", .blank]

/-- The device type table. -/
def deviceTable (m : Model) (o : Options) (pollRecordsName : String) : List Item :=
  tableHead o pollRecordsName ++ (if o.decoding then nativeDecoders m o else []) ++
    [.table (recordTable m o), .blank] ++ indexItems m.index ++ scanItems m.scan

end DeviceCatalog.Artifact
