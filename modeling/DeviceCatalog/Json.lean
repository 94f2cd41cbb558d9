import DeviceCatalog.Binary64.Nearest

/-!
# JSON values

A catalog is JSON text. Integers that fit 64 bits, signed or unsigned, stay integers and every other number is a `Binary64`. The
members of an object keep the order of the text; a key that is written again keeps its place and takes the later value, so the
keys of an object are distinct.
-/

namespace DeviceCatalog

/-- A number of a JSON text. -/
inductive Json.Number where
  | integer (n : Int)
  | float (x : Binary64)
deriving DecidableEq

/-- A JSON value. -/
inductive Json where
  | null
  | bool (b : Bool)
  | number (n : Json.Number)
  | string (s : String)
  | array (items : List Json)
  | object (members : List (String × Json))
deriving Inhabited

namespace Json

/-- The object without members. -/
def emptyObject : Json := .object []

/-- The members of an object and nothing of any other value. -/
def members : Json → List (String × Json)
  | .object ms => ms
  | _ => []

/-- The value of a member of an object. -/
def member? (v : Json) (key : String) : Option Json :=
  v.members.lookup key

/-- The text of a string value. -/
def string? : Json → Option String
  | .string s => some s
  | _ => none

/-- A number as `Binary64`, an integer rounded to the nearest one. -/
def number? : Json → Option Binary64
  | .number (.integer n) => some (.ofInt n)
  | .number (.float x) => some x
  | _ => none

/-- A member set: in place if the key is there, else at the end. -/
def setMember (key : String) (value : Json) : List (String × Json) → List (String × Json)
  | [] => [(key, value)]
  | (k, v) :: ms => if k = key then (k, value) :: ms else (k, v) :: setMember key value ms

end Json

end DeviceCatalog
