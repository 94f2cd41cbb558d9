import DeviceCatalog.Failure
import DeviceCatalog.Logged

/-!
# Shapes of JSON values

The decoders from which catalog entries are read. A record may be written as an object, with its fields in any order and unknown
members ignored, or as an array, with its fields by position and the last ones left out. Fields that are absent keep their
default; a field of the wrong shape fails at once.
-/

namespace DeviceCatalog.Shape

/-- A decoder: what a JSON value stands for, or why it does not fit. -/
abbrev Decoder (α : Type) := Json → Logged Mismatch α

/-- A text. -/
def text : Decoder String
  | .string s => pure s
  | v => .fail (.wrongType v .text)

/-- A natural number below `2 ^ 64`, written as an integer. -/
def count : Decoder Nat
  | .number (.integer (.ofNat n)) => pure n
  | .number (.integer n) => .fail (.negativeCount n)
  | v => .fail (.wrongType v .count)

/-- A number, integers rounded to the nearest one. -/
def number : Decoder Binary64
  | v =>
    match v.number? with
    | some x => pure x
    | none => .fail (.wrongType v .number)

/-- Nothing for null, else what the decoder says. -/
def optional {α : Type} (decode : Decoder α) : Decoder (Option α)
  | .null => pure none
  | v => do
    let a ← decode v
    pure (some a)

/-- An array whose items all fit. -/
def list {α : Type} (decode : Decoder α) : Decoder (List α)
  | .array items => items.mapM decode
  | v => .fail (.wrongType v .sequence)

/-- One field of a record: its name, and the record after the field's value was read into it. -/
structure Field (ρ : Type) where
  name : String
  read : Json → ρ → Logged Mismatch ρ

/-- A field that stores what its decoder gives. -/
def field {ρ α : Type} (name : String) (decode : Decoder α) (store : α → ρ → ρ) : Field ρ where
  name := name
  read v r := do
    let a ← decode v
    pure (store a r)

/-- The member of an object read into a record; members without a field are ignored. -/
def readMember {ρ : Type} (fields : List (Field ρ)) (r : ρ) (member : String × Json) : Logged Mismatch ρ :=
  match fields.find? fun f => f.name == member.1 with
  | some f => f.read member.2 r
  | none => pure r

/-- A record with its fields in positional order, starting from the defaults. An array that is too long is refused only after its
fields were read. -/
def record {ρ : Type} (expected : Expected) (fields : List (Field ρ)) (defaults : ρ) : Decoder ρ
  | .object ms => ms.foldlM (readMember fields) defaults
  | .array items => do
    let r ← (fields.zip items).foldlM (fun r (f, v) => f.read v r) defaults
    if fields.length < items.length then .fail (.tooManyFields items.length) else pure r
  | v => .fail (.wrongType v expected)

end DeviceCatalog.Shape
