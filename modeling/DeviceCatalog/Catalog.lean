import DeviceCatalog.Catalog.Entry
import DeviceCatalog.Json.Reader
import Std.Data.HashMap

/-!
# Catalogs

A catalog is JSON text whose member `devTypes` maps keys to entries. Several catalogs are merged in order: a key keeps the place
where it first appeared and takes the entry of the last catalog that has it, with that catalog as its source. Only the entries
that survive the merge are resolved.
-/

namespace DeviceCatalog

/-- The entries of one catalog, in the order of its text. -/
abbrev Catalog := List (String × Entry)

namespace Catalog

/-- The entry of one member of `devTypes`. -/
def decodeMember (source : Path) (member : String × Json) : Logged Failure (String × Entry) := do
  let entry ← (Entry.decode member.2).mapError fun m =>
    Failure.catalog source (.schema (.entry member.1 m))
  pure (member.1, entry)

/-- The entries of a JSON value. A value without `devTypes` has none. -/
def ofJson (source : Path) (root : Json) : Logged Failure Catalog :=
  match root.member? "devTypes" with
  | none => pure []
  | some (.object ms) => ms.mapM (decodeMember source)
  | some _ => .fail (.catalog source (.schema .notAnObject))

/-- The entries of a text. -/
def ofText (source : Path) (text : String) : Logged Failure Catalog :=
  match Json.parse text with
  | .ok root => ofJson source root
  | .error d => .fail (.catalog source (.json d))

/-- Where the bytes of catalogs come from. -/
abbrev Source := Path → Except DiskFault String

/-- The entries of the catalog at a path. -/
def read (source : Source) (path : Path) : Logged Failure Catalog :=
  match source path with
  | .ok text => ofText path text
  | .error fault => .fail (.catalog path (.disk fault))

/-- The path that stands for a catalog that is no file. -/
def inMemory : Path := ⟨"<memory>"⟩

end Catalog

/-- Catalogs merged: the keys in the order of their first appearance and, under every key, its source and its entry. -/
structure Merged where
  keys : Array String
  entries : Std.HashMap String (Path × Entry)
  /-- Every key is listed once. -/
  nodup : keys.toList.Nodup
  /-- The keys that are listed are those that have an entry. -/
  mem_keys : ∀ key, key ∈ keys.toList ↔ key ∈ entries

namespace Merged

/-- Nothing merged yet. -/
def empty : Merged where
  keys := #[]
  entries := ∅
  nodup := by simp
  mem_keys := by simp

/-- An entry put into the merge: in place if its key is there, else at the end. -/
def insert (m : Merged) (key : String) (source : Path) (entry : Entry) : Merged where
  keys := if key ∈ m.entries then m.keys else m.keys.push key
  entries := m.entries.insert key (source, entry)
  nodup := by
    split
    · exact m.nodup
    · rename_i h
      rw [Array.toList_push, List.nodup_append]
      refine ⟨m.nodup, by simp, ?_⟩
      intro k hk j hj hkj
      rw [hkj, List.mem_singleton.1 hj] at hk
      exact h ((m.mem_keys key).1 hk)
  mem_keys := by
    intro k
    rw [Std.HashMap.mem_insert, ← m.mem_keys k, beq_iff_eq]
    split
    · rename_i h
      refine ⟨Or.inr, ?_⟩
      rintro (rfl | hk)
      · exact (m.mem_keys key).2 h
      · exact hk
    · rw [Array.toList_push, List.mem_append, List.mem_singleton, or_comm, eq_comm]

/-- A whole catalog put into the merge. -/
def add (m : Merged) (source : Path) (catalog : Catalog) : Merged :=
  catalog.foldl (fun m (key, entry) => m.insert key source entry) m

/-- The entries under some keys, each taken out as it is listed. -/
def takeOut (entries : Std.HashMap String (Path × Entry)) : List String → List (String × Path × Entry)
  | [] => []
  | key :: keys =>
    match entries[key]? with
    | some (source, entry) => (key, source, entry) :: takeOut (entries.erase key) keys
    | none => takeOut entries keys

/-- The keys of the merge in order, each with its source and its entry. -/
def toList (m : Merged) : List (String × Path × Entry) :=
  takeOut m.entries m.keys.toList

/-- The device types of the merge, in order. -/
def resolve (m : Merged) : Logged Failure (List DeviceType) :=
  m.toList.zipIdx.mapM fun ((key, source, entry), i) => do
    let d ← entry.resolve key source
    Logged.note (.recordResolved i d.key d.addresses)
    pure d

end Merged

namespace Catalog

/-- The catalogs at the paths merged into what is there already; each is reported as it is read. -/
def mergeFrom (source : Source) (m : Merged) (paths : List Path) : Logged Failure Merged :=
  paths.foldlM (fun m path => do
    let catalog ← read source path
    Logged.note (.catalogRead catalog.length path)
    pure (m.add path catalog)) m

/-- The device types of the catalogs at the paths. -/
def load (source : Source) (paths : List Path) : Logged Failure (List DeviceType) := do
  let m ← mergeFrom source .empty paths
  m.resolve

/-- The device types of a single catalog held in memory. -/
def parse (text : String) : Logged Failure (List DeviceType) := do
  let catalog ← ofText inMemory text
  catalog.mapM fun (key, entry) => entry.resolve key inMemory

/-- The paths of a list of catalogs: separated by commas, optionally between brackets, blank items ignored. -/
def splitPaths (list : String) : List Path :=
  let cs := Text.trimList list.toList
  let cs := match cs with
    | '[' :: r => r
    | r => r
  let cs := if cs.getLast? = some ']' then cs.dropLast else cs
  ((Text.pieces ',' cs).map Text.trimList).filter (· ≠ []) |>.map fun p => ⟨String.ofList p⟩

end Catalog

end DeviceCatalog
