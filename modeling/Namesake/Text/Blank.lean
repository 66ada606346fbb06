import Namesake.Text.Utf8

/-
  This file defines white space and the removal of white
  space around a text.

  Key definitions include:
    * `isSpace`
    * `Bytes.trimSpace`
-/

namespace Namesake

------------------------------------------------------------
-- White Space
------------------------------------------------------------

/- A white space character, by its code point. -/
def isSpace
    (n : Nat) : Bool :=
  (0x09 ≤ n && n ≤ 0x0d) || n == 0x20 || n == 0x85 || n == 0xa0 ||
    n == 0x1680 || (0x2000 ≤ n && n ≤ 0x200a) || n == 0x2028 ||
    n == 0x2029 || n == 0x202f || n == 0x205f || n == 0x3000

/- Is this glyph white space? -/
def Glyph.isSpace
    (g : Glyph) : Bool :=
  Namesake.isSpace g.code

namespace Bytes

/- The text without white space at its beginning. -/
def trimSpaceLeft
    (s : Bytes) : Bytes :=
  (s.glyphs.dropWhile Glyph.isSpace).flatMap Glyph.bytes

/- The text without white space at its end. -/
def trimSpaceRight
    (s : Bytes) : Bytes :=
  (s.glyphs.reverse.dropWhile Glyph.isSpace).reverse.flatMap Glyph.bytes

/- The text without white space around it. -/
def trimSpace
    (s : Bytes) : Bytes :=
  trimSpaceRight (trimSpaceLeft s)

end Bytes

end Namesake
