/-
  White space of the Unicode standard, and text without the
  white space around it.

  Key definitions include:
    * `Blank.isBlank`
    * `Blank.trim`
-/

namespace Dmg.Blank

/- The characters with the property White_Space. -/
def isBlank
    (c : Char) : Bool :=
  let n := c.toNat
  (0x09 ≤ n && n ≤ 0x0D) || n == 0x20 || n == 0x85 ||
    n == 0xA0 || n == 0x1680 ||
    (0x2000 ≤ n && n ≤ 0x200A) || n == 0x2028 ||
    n == 0x2029 || n == 0x202F || n == 0x205F ||
    n == 0x3000

/- Drop the white space at both ends. -/
def trim
    (cs : List Char) : List Char :=
  ((cs.dropWhile isBlank).reverse.dropWhile isBlank).reverse

end Dmg.Blank
