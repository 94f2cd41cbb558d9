/-!
# Blank characters

The characters that may stand around an address, a token or a path, and cutting them off both ends of a text.
-/

namespace DeviceCatalog.Text

/-- A blank character: white space as the Unicode standard lists it. -/
def isBlank (c : Char) : Bool :=
  let n := c.toNat
  (9 ≤ n && n ≤ 13) || n == 0x20 || n == 0x85 || n == 0xA0 || n == 0x1680 || (0x2000 ≤ n && n ≤ 0x200A) ||
    n == 0x2028 || n == 0x2029 || n == 0x202F || n == 0x205F || n == 0x3000

/-- The characters without the blank ones at either end. -/
def trimList (cs : List Char) : List Char :=
  ((cs.dropWhile isBlank).reverse.dropWhile isBlank).reverse

/-- The text without the blank characters at either end. -/
def trim (s : String) : String :=
  String.ofList (trimList s.toList)

end DeviceCatalog.Text
