import Namesake.Yaml.Error

/-
  This file defines how the bytes of a YAML text are read as
  characters.  A byte order mark tells the encoding; without
  one it is UTF-8.

  Key definitions include:
    * `Yaml.isAllowed`
    * `Yaml.fromOctets`
    * `Yaml.fromUnits`
    * `Yaml.characters`
-/

namespace Namesake

namespace Yaml

------------------------------------------------------------
-- Characters
------------------------------------------------------------

/- May a YAML text contain the character? -/
def isAllowed
    (n : Nat) : Bool :=
  n == 0x09 || n == 0x0a || n == 0x0d || (0x20 ≤ n && n ≤ 0x7e) ||
    n == 0x85 || (0xa0 ≤ n && n ≤ 0xd7ff) ||
    (0xe000 ≤ n && n ≤ 0xfffd) || (0x10000 ≤ n && n ≤ 0x10ffff)

/- The character of a code point that a text may contain. -/
def allowed
    (n : Nat) : Except Problem Char :=
  if isAllowed n then
    .ok (Char.ofNat n)
  else
    .error .controlCharacter

------------------------------------------------------------
-- UTF-8
------------------------------------------------------------

/- The number of octets that a leading octet announces. -/
def octetCount
    (b : Nat) : Option Nat :=
  if b < 0x80 then some 1
  else if b / 0x20 = 0x06 then some 2
  else if b / 0x10 = 0x0e then some 3
  else if b / 0x08 = 0x1e then some 4
  else none

/- The bits of a leading octet that belong to the code point. -/
def leadingBits
    (b count : Nat) : Nat :=
  match count with
  | 1 => b
  | 2 => b % 0x20
  | 3 => b % 0x10
  | _ => b % 0x08

/- Add the bits of trailing octets to those read so far. -/
def trailingBits
    (value : Nat) : Bytes → Except Problem Nat
  | [] => .ok value
  | b :: bs =>
      if b.toNat / 0x40 = 0x02 then
        trailingBits (value * 0x40 + b.toNat % 0x40) bs
      else
        .error .trailingOctet

/- The least code point that needs a number of octets. -/
def leastOf : (count : Nat) → Nat
  | 2 => 0x80
  | 3 => 0x800
  | 4 => 0x10000
  | _ => 0

/- Check a code point that was read from a number of octets. -/
def checkOctets
    (value count : Nat) : Except Problem Char :=
  if value < leastOf count then
    .error .octetCount
  else if (0xd800 ≤ value && value ≤ 0xdfff) || 0x10ffff < value then
    .error .noCharacter
  else
    allowed value

/- The characters of octets; `skip` octets are read already. -/
def fromOctets : (skip : Nat) → Bytes → Except Problem (List Char)
  | _, [] => .ok []
  | skip + 1, _ :: bs => fromOctets skip bs
  | 0, b :: bs => do
      match octetCount b.toNat with
      | none => .error .leadingOctet
      | some count =>
          if bs.length < count - 1 then
            .error .incompleteOctets
          else
            let value ←
              trailingBits (leadingBits b.toNat count)
                (bs.take (count - 1))
            let c ← checkOctets value count
            let cs ← fromOctets (count - 1) bs
            .ok (c :: cs)

------------------------------------------------------------
-- UTF-16
------------------------------------------------------------

/- The 16-bit units of bytes; the second result is a byte left over. -/
def units
    (bigEndian : Bool) : Bytes → List Nat × Bool
  | [] => ([], false)
  | [_] => ([], true)
  | a :: b :: rest =>
      let (us, left) := units bigEndian rest
      let unit :=
        if bigEndian then
          a.toNat * 0x100 + b.toNat
        else
          b.toNat * 0x100 + a.toNat
      (unit :: us, left)

/- The characters of 16-bit units. -/
def fromUnits
    (left : Bool) : List Nat → Except Problem (List Char)
  | [] => if left then .error .incompleteUnit else .ok []
  | u :: us =>
      if u / 0x400 = 0x37 then
        .error .lowSurrogate
      else if u / 0x400 = 0x36 then
        match us with
        | [] => .error .incompletePair
        | v :: vs => do
            if v / 0x400 = 0x37 then
              let c ← allowed (0x10000 + u % 0x400 * 0x400 + v % 0x400)
              let cs ← fromUnits left vs
              .ok (c :: cs)
            else
              .error .noLowSurrogate
      else do
        let c ← allowed u
        let cs ← fromUnits left us
        .ok (c :: cs)

------------------------------------------------------------
-- Encodings
------------------------------------------------------------

/- The characters of a text. -/
def characters
    (text : Bytes) : Except Problem (List Char) :=
  match text with
  | 0xff :: 0xfe :: rest =>
      let (us, left) := units false rest
      fromUnits left us
  | 0xfe :: 0xff :: rest =>
      let (us, left) := units true rest
      fromUnits left us
  | 0xef :: 0xbb :: 0xbf :: rest => fromOctets 0 rest
  | _ => fromOctets 0 text

end Yaml

end Namesake
