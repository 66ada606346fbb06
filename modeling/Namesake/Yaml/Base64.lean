import Namesake.Text.Bytes

/-
  This file defines the text form of bytes with 64 digits,
  four of them for three bytes.

  Key definitions include:
    * `Yaml.Base64.encode`
    * `Yaml.Base64.decode?`
-/

namespace Namesake

namespace Yaml

namespace Base64

/- The digit of a number below 64. -/
def digit
    (n : Nat) : UInt8 :=
  if n < 26 then (0x41 + n).toUInt8
  else if n < 52 then (0x61 + (n - 26)).toUInt8
  else if n < 62 then (0x30 + (n - 52)).toUInt8
  else if n = 62 then 0x2b
  else 0x2f

/- The number of a digit. -/
def value?
    (b : UInt8) : Option Nat :=
  let n := b.toNat
  if 0x41 ≤ n && n ≤ 0x5a then some (n - 0x41)
  else if 0x61 ≤ n && n ≤ 0x7a then some (n - 0x61 + 26)
  else if 0x30 ≤ n && n ≤ 0x39 then some (n - 0x30 + 52)
  else if n = 0x2b then some 62
  else if n = 0x2f then some 63
  else none

/- The sign that fills up the last group. -/
def padding : UInt8 :=
  0x3d

/- The text form of bytes. -/
def encode : Bytes → Bytes
  | [] => []
  | [a] =>
      [digit (a.toNat / 4), digit (a.toNat % 4 * 16), padding, padding]
  | [a, b] =>
      [digit (a.toNat / 4), digit (a.toNat % 4 * 16 + b.toNat / 16),
        digit (b.toNat % 16 * 4), padding]
  | a :: b :: c :: rest =>
      digit (a.toNat / 4) ::
        digit (a.toNat % 4 * 16 + b.toNat / 16) ::
        digit (b.toNat % 16 * 4 + c.toNat / 64) ::
        digit (c.toNat % 64) :: encode rest

/- The bytes of groups of four digits. -/
def groups : Bytes → Option Bytes
  | [] => some []
  | a :: b :: c :: d :: rest => do
      let x ← value? a
      let y ← value? b
      let first := (x * 4 + y / 16).toUInt8
      if c = padding then
        if d = padding && rest.isEmpty then some [first] else none
      else
        let z ← value? c
        let second := (y % 16 * 16 + z / 4).toUInt8
        if d = padding then
          if rest.isEmpty then some [first, second] else none
        else
          let w ← value? d
          let third := (z % 4 * 64 + w).toUInt8
          let more ← groups rest
          some (first :: second :: third :: more)
  | _ => none

/- The bytes of a text form; line ends do not count. -/
def decode?
    (s : Bytes) : Option Bytes :=
  groups (s.filter fun b => b ≠ 0x0a && b ≠ 0x0d)

end Base64

end Yaml

end Namesake
