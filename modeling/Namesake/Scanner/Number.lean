import Namesake.Scanner.Cursor
import Namesake.Token

/-
  This file defines the extent and the faults of number
  literals.  A literal is read as far as it can be; what is
  wrong with it is reported and it stays one token.

  Key definitions include:
    * `Number.Run`
    * `Number.run`
    * `Number.badSeparator?`
    * `Number.scan`
-/

namespace Namesake

namespace Number

------------------------------------------------------------
-- Runs of Digits
------------------------------------------------------------

/- A run of digits and separators. -/
structure Run where
  cursor : Cursor
  faults : List Fault
  hasDigit : Bool
  hasSeparator : Bool
  tooLarge : Option (Nat × UInt8)

/- A byte that may stand in a number of the given base. -/
def isDigitByte
    (base : Nat)
    (n : Nat) : Bool :=
  n == 0x5f || isAsciiDigit n ||
    (base > 10 &&
      ((0x41 ≤ n && n ≤ 0x46) || (0x61 ≤ n && n ≤ 0x66)))

/-
  The offset and text of the first decimal digit that is too
  large for the base.
-/
def tooLarge?
    (base offset : Nat) : Bytes → Option (Nat × UInt8)
  | [] => none
  | b :: s =>
      if b ≠ 0x5f && base ≤ 10 && 0x30 + base ≤ b.toNat then
        some (offset, b)
      else
        tooLarge? base (offset + 1) s

/- Read a run of digits and separators. -/
def run
    (base : Nat)
    (c : Cursor) : Run :=
  let r := c.skipWhile (isDigitByte base)
  let text := c.rest.take (r.1.offset - c.offset)
  { cursor := r.1
    faults := r.2
    hasDigit := text.any (· ≠ 0x5f)
    hasSeparator := text.contains 0x5f
    tooLarge := tooLarge? base c.offset text }

------------------------------------------------------------
-- Separators
------------------------------------------------------------

/- What stood before a byte of a number. -/
inductive Before where
  | digit
  | separator
  | other
deriving DecidableEq

/- The index of the first separator that is not between digits. -/
def badSeparatorFrom?
    (hexadecimal : Bool)
    (index : Nat) : Before → Bytes → Option Nat
  | .separator, [] => some (index - 1)
  | _, [] => none
  | before, b :: s =>
      if b = 0x5f then
        if before = .digit then
          badSeparatorFrom? hexadecimal (index + 1) .separator s
        else
          some index
      else if isDigitByte (if hexadecimal then 16 else 10) b.toNat then
        badSeparatorFrom? hexadecimal (index + 1) .digit s
      else if before = .separator then
        some (index - 1)
      else
        badSeparatorFrom? hexadecimal (index + 1) .other s

/-
  The index of the first separator of a literal that is not
  between digits.  The two letters that name the base count
  as a digit.
-/
def badSeparator?
    (text : Bytes) : Option Nat :=
  match text with
  | 0x30 :: b :: s =>
      if b = 0x78 || b = 0x58 then
        badSeparatorFrom? true 2 .digit s
      else if b = 0x6f || b = 0x4f || b = 0x62 || b = 0x42 then
        badSeparatorFrom? false 2 .digit s
      else
        badSeparatorFrom? false 0 .other text
  | _ => badSeparatorFrom? false 0 .other text

------------------------------------------------------------
-- Literals
------------------------------------------------------------

/- The form of a number and the place where its digits start. -/
def form
    (c : Cursor) : NumberForm × Cursor × Bool :=
  match c.rest with
  | 0x30 :: b :: _ =>
      if b = 0x78 || b = 0x58 then
        (.hexadecimal, c.skip 2, false)
      else if b = 0x6f || b = 0x4f then
        (.octal, c.skip 2, false)
      else if b = 0x62 || b = 0x42 then
        (.binary, c.skip 2, false)
      else
        (.leadingZero, c.skip 1, true)
  | 0x30 :: [] => (.leadingZero, c.skip 1, true)
  | _ => (.decimal, c, false)

/- The fraction of a number, from its point on. -/
def fraction
    (form : NumberForm)
    (c : Cursor) : Option Run :=
  if c.byte? = some 0x2e then
    let radix : List Fault :=
      if form = .octal || form = .binary then
        [⟨c.offset, .radixPoint form⟩]
      else
        []
    let d := c.skip 1
    let r := run form.base d
    some { r with faults := radix ++ d.arrive ++ r.faults }
  else
    none

/- The exponent of a number, from its letter on. -/
def exponent
    (form : NumberForm)
    (c : Cursor) : Option Run :=
  match c.byte? with
  | none => none
  | some b =>
      let decimal := b = 0x65 || b = 0x45
      let binary := b = 0x70 || b = 0x50
      if decimal || binary then
        let mantissa : List Fault :=
          if decimal && form ≠ .decimal && form ≠ .leadingZero then
            [⟨c.offset, .decimalExponent b.toNat⟩]
          else if binary && form ≠ .hexadecimal then
            [⟨c.offset, .hexExponent b.toNat⟩]
          else
            []
        let d := c.skip 1
        let signed := d.byte? = some 0x2b || d.byte? = some 0x2d
        let e := if signed then d.skip 1 else d
        let r := run 10 e
        let empty : List Fault :=
          if r.hasDigit then [] else [⟨r.cursor.offset, .exponentDigits⟩]
        let arrived := d.arrive ++ if signed then e.arrive else []
        some
          { r with
            faults := mantissa ++ arrived ++ r.faults ++ empty }
      else
        none

/-
  Read a number literal, which starts with a digit or with a
  point and a digit.
-/
def scan
    (c : Cursor) : TokenKind × Cursor × List Fault :=
  let (form, start, zero) := form c
  let whole := run form.base start
  let arrived := if start.offset = c.offset then [] else start.arrive
  let frac := fraction form whole.cursor
  let mantissaEnd := (frac.map Run.cursor).getD whole.cursor
  let hasDigit :=
    zero || whole.hasDigit || (frac.map Run.hasDigit).getD false
  let noDigits : List Fault :=
    if hasDigit then [] else [⟨mantissaEnd.offset, .noDigits form⟩]
  let power := exponent form mantissaEnd
  let powerEnd := (power.map Run.cursor).getD mantissaEnd
  let noPower : List Fault :=
    if power.isNone && form = .hexadecimal && frac.isSome then
      [⟨powerEnd.offset, .hexMantissa⟩]
    else
      []
  let imaginary := powerEnd.byte? = some 0x69
  let last := if imaginary then powerEnd.skip 1 else powerEnd
  let kind : TokenKind :=
    if imaginary then .imag
    else if frac.isSome || power.isSome then .float
    else .int
  let badDigit : List Fault :=
    match whole.tooLarge with
    | some (offset, b) =>
        if kind = .int then [⟨offset, .digit b.toNat form⟩] else []
    | none => []
  let separated :=
    whole.hasSeparator || (frac.map Run.hasSeparator).getD false ||
      (power.map Run.hasSeparator).getD false
  let badSeparator : List Fault :=
    if separated then
      match badSeparator? (c.rest.take (last.offset - c.offset)) with
      | some i => [⟨c.offset + i, .separator⟩]
      | none => []
    else
      []
  let faults :=
    arrived ++ whole.faults ++ (frac.map Run.faults).getD [] ++
      noDigits ++ (power.map Run.faults).getD [] ++ noPower ++
      (if imaginary then last.arrive else []) ++
      badDigit ++ badSeparator
  (kind, last, faults)

end Number

end Namesake
