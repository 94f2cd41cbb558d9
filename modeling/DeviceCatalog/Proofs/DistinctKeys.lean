import DeviceCatalog.Proofs.ReadValues

/-!
# The keys of read objects are distinct

A JSON text may write a key twice, but the value that is read from it holds every key of an object once: a member that is written
again is set in place. So it is at every depth, for the reader sets all members in the same way.
-/

namespace DeviceCatalog.Json

/-- No object of the value, however deep, holds a key twice. -/
inductive KeysDistinct : Json → Prop where
  | null : KeysDistinct .null
  | bool (b : Bool) : KeysDistinct (.bool b)
  | number (n : Number) : KeysDistinct (.number n)
  | string (s : String) : KeysDistinct (.string s)
  | array {items : List Json} (h : ∀ v ∈ items, KeysDistinct v) : KeysDistinct (.array items)
  | object {ms : List (String × Json)} (hkeys : (ms.map Prod.fst).Nodup) (h : ∀ m ∈ ms, KeysDistinct m.2) :
      KeysDistinct (.object ms)

/-- The keys of an object are distinct everywhere when its own are and those of its members are. -/
theorem keysDistinct_object_iff {ms : List (String × Json)} :
    KeysDistinct (.object ms) ↔ (ms.map Prod.fst).Nodup ∧ ∀ m ∈ ms, KeysDistinct m.2 := by
  constructor
  · intro h
    cases h with
    | object hkeys h => exact ⟨hkeys, h⟩
  · rintro ⟨hkeys, h⟩
    exact .object hkeys h

/-- That keys are distinct passes from the parts of a value to the whole. -/
theorem inherited_keysDistinct : Inherited KeysDistinct :=
  ⟨.null, .bool, .string, fun {_ _ x _} _ => .number x, .array, .object⟩

/-- A text reads as a value whose objects hold every key once. -/
theorem keysDistinct_of_parse {text : String} {root : Json} (h : parse text = .ok root) : root.KeysDistinct :=
  inherited_keysDistinct.of_parse h

/-- So does every member of it. -/
theorem KeysDistinct.member? {root v : Json} {key : String} (h : root.KeysDistinct) (hv : root.member? key = some v) :
    v.KeysDistinct := by
  obtain ⟨ms, rfl, hmem⟩ := mem_of_member? hv
  exact (keysDistinct_object_iff.1 h).2 (key, v) hmem

end DeviceCatalog.Json
