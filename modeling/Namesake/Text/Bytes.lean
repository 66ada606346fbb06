/-
  This file defines the text type of the library.  A text is
  a list of bytes, normally but not necessarily valid UTF-8,
  so that every offset, width and column counts bytes.

  Key definitions include:
    * `Bytes`
    * `utf8`
    * `Bytes.startsWith`
    * `Bytes.endsWith`
    * `Bytes.trimEnding`
    * `Bytes.lines`
    * `Bytes.join`
    * `Bytes.contains`
    * `Bytes.ofNat`
    * `Bytes.ofInt`
-/

------------------------------------------------------------
-- Texts
------------------------------------------------------------

namespace Namesake

/- A text is a list of bytes. -/
abbrev Bytes :=
  List UInt8

/- The UTF-8 encoding of a string. -/
def utf8
    (s : String) : Bytes :=
  s.toList.flatMap String.utf8EncodeChar

/- The byte of an ASCII character. -/
def ascii
    (c : Char) : UInt8 :=
  c.toNat.toUInt8

namespace Bytes

------------------------------------------------------------
-- Beginnings and Ends
------------------------------------------------------------

/- Does the text begin with `start`? -/
abbrev startsWith
    (s start : Bytes) : Bool :=
  start.isPrefixOf s

/- Does the text end with `ending`? -/
abbrev endsWith
    (s ending : Bytes) : Bool :=
  ending.isSuffixOf s

/- The text without a given ending; unchanged if it has none. -/
def trimEnding
    (s ending : Bytes) : Bytes :=
  (ending.isSuffixOf? s).getD s

/- The text without the trailing bytes that satisfy `p`. -/
def trimRight
    (p : UInt8 → Bool)
    (s : Bytes) : Bytes :=
  (s.reverse.dropWhile p).reverse

/- The text without the leading and trailing bytes of `p`. -/
def trim
    (p : UInt8 → Bool)
    (s : Bytes) : Bytes :=
  trimRight p (s.dropWhile p)

/- Does `part` occur in the text? -/
def containsText
    (part : Bytes) : Bytes → Bool
  | [] => part.isEmpty
  | b :: s => startsWith (b :: s) part || containsText part s

/- What stands before and after the first `part`. -/
def splitFirst?
    (part : Bytes) : Bytes → Option (Bytes × Bytes)
  | [] => if part.isEmpty then some ([], []) else none
  | b :: s =>
      match part.isPrefixOf? (b :: s) with
      | some rest => some ([], rest)
      | none =>
          (splitFirst? part s).map fun r => (b :: r.1, r.2)

/- Replace every occurrence of one byte by a text. -/
def replaceByte
    (s : Bytes)
    (b : UInt8)
    (t : Bytes) : Bytes :=
  s.flatMap fun x => if x = b then t else [x]

------------------------------------------------------------
-- Splitting and Joining
------------------------------------------------------------

/- The lines of a text: the pieces between line feeds. -/
def lines
    (s : Bytes) : List Bytes :=
  s.splitOn 0x0a

/- Texts with a separator between them. -/
abbrev join
    (sep : Bytes)
    (pieces : List Bytes) : Bytes :=
  sep.intercalate pieces

------------------------------------------------------------
-- Numbers
------------------------------------------------------------

/- The decimal digits of a number. -/
def ofNat
    (n : Nat) : Bytes :=
  (Nat.toDigits 10 n).map ascii

/- The decimal text of an integer. -/
def ofInt : Int → Bytes
  | .ofNat n => ofNat n
  | .negSucc n => 0x2d :: ofNat (n + 1)

/- The lower case hexadecimal digit of a number below 16. -/
def hexDigit
    (n : Nat) : UInt8 :=
  if n < 10 then (0x30 + n).toUInt8 else (0x57 + n).toUInt8

/- Exactly `width` low hexadecimal digits of a number. -/
def hex
    (n : Nat) : (width : Nat) → Bytes
  | 0 => []
  | width + 1 => hex (n / 16) width ++ [hexDigit (n % 16)]

/- Lexicographic order by byte value. -/
def lt : Bytes → Bytes → Bool
  | [], [] => false
  | [], _ :: _ => true
  | _ :: _, [] => false
  | a :: s, b :: t =>
      if a < b then true else if b < a then false else lt s t

/- Not after, in the order by byte value. -/
def le
    (s t : Bytes) : Bool :=
  !lt t s

end Bytes

end Namesake
