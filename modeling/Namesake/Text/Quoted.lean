import Namesake.Text.Letter
import Namesake.Text.Printable
import Namesake.Text.Utf8

/-
  This file defines quoted text: a text between double
  quotes in which everything unprintable is escaped, and the
  reading of such literals.

  Key definitions include:
    * `Quoted.escape`
    * `Quoted.encode`
    * `Quoted.encodeChar`
    * `Quoted.codePoint`
    * `Quoted.decode?`
-/

namespace Namesake

namespace Quoted

------------------------------------------------------------
-- Writing
------------------------------------------------------------

/- The letter that follows the backslash in a short escape. -/
def shortEscape? : Nat → Option Char
  | 0x07 => some 'a'
  | 0x08 => some 'b'
  | 0x0c => some 'f'
  | 0x0a => some 'n'
  | 0x0d => some 'r'
  | 0x09 => some 't'
  | 0x0b => some 'v'
  | _ => none

/- The escaped form of a character inside the given quotes. -/
def escapeCode
    (quote : UInt8)
    (n : Nat) : Bytes :=
  if n = quote.toNat || n = 0x5c then
    [0x5c, n.toUInt8]
  else if isPrintable n then
    Utf8.encode n
  else
    match shortEscape? n with
    | some c => [0x5c, ascii c]
    | none =>
        if n < 0x20 || n = 0x7f then
          utf8 "\\x" ++ Bytes.hex n 2
        else if n < 0x10000 then
          utf8 "\\u" ++ Bytes.hex n 4
        else
          utf8 "\\U" ++ Bytes.hex n 8

/- The escaped form of one glyph; a stray byte is written in hexadecimal. -/
def escape
    (quote : UInt8) : Glyph → Bytes
  | .char c => escapeCode quote c.toNat
  | .stray b => utf8 "\\x" ++ Bytes.hex b.toNat 2

/- A text between double quotes. -/
def encode
    (s : Bytes) : Bytes :=
  [0x22] ++ s.glyphs.flatMap (escape 0x22) ++ [0x22]

/- The escaped form of one glyph without characters beyond ASCII. -/
def escapeAscii : Glyph → Bytes
  | .char c =>
      let n := c.toNat
      if n < 0x80 then
        escapeCode 0x22 n
      else if n < 0x10000 then
        utf8 "\\u" ++ Bytes.hex n 4
      else
        utf8 "\\U" ++ Bytes.hex n 8
  | .stray b => utf8 "\\x" ++ Bytes.hex b.toNat 2

/- A text between double quotes without characters beyond ASCII. -/
def encodeAscii
    (s : Bytes) : Bytes :=
  [0x22] ++ s.glyphs.flatMap escapeAscii ++ [0x22]

/- A character between single quotes. -/
def encodeChar
    (n : Nat) : Bytes :=
  [0x27] ++ escapeCode 0x27 n ++ [0x27]

/- The hexadecimal digits of a code point, at least four, in upper case. -/
def codeDigits
    (n : Nat) : Bytes :=
  let digits := (Nat.toDigits 16 n).map fun c => ascii c.toUpper
  List.replicate (4 - digits.length) 0x30 ++ digits

/-
  The name of a code point, followed by the character itself
  when that is printable.
-/
def codePoint
    (n : Nat) : Bytes :=
  utf8 "U+" ++ codeDigits n ++
    if isPrintable n then
      utf8 " '" ++ Utf8.encode n ++ utf8 "'"
    else
      []

------------------------------------------------------------
-- Reading
------------------------------------------------------------

/- The value of a hexadecimal digit; 16 for any other byte. -/
def digitValue
    (b : UInt8) : Nat :=
  let n := b.toNat
  if 0x30 ≤ n && n ≤ 0x39 then
    n - 0x30
  else if 0x61 ≤ n && n ≤ 0x66 then
    n - 0x57
  else if 0x41 ≤ n && n ≤ 0x46 then
    n - 0x37
  else
    16

/- Read exactly `count` digits of a base. -/
def digits?
    (base : Nat) : (count : Nat) → (value : Nat) → Bytes → Option (Nat × Bytes)
  | 0, value, s => some (value, s)
  | _ + 1, _, [] => none
  | count + 1, value, b :: s =>
      if digitValue b < base then
        digits? base count (value * base + digitValue b) s
      else
        none

/- Reading digits leaves no more than there was. -/
theorem length_of_digits?
    {base count value n : Nat}
    {s rest : Bytes}
    (h : digits? base count value s = some (n, rest)) :
    rest.length ≤ s.length := by
  induction count generalizing value s with
  | zero =>
      simp only [digits?, Option.some.injEq, Prod.mk.injEq] at h
      exact Nat.le_of_eq (congrArg List.length h.2.symm)
  | succ count ih =>
      cases s with
      | nil => simp [digits?] at h
      | cons b s =>
          simp only [digits?] at h
          split at h
          · exact Nat.le_succ_of_le (ih h)
          · simp at h

/- Is this a code point of a character? -/
def isCharacter
    (n : Nat) : Bool :=
  n < 0xd800 || (0xe000 ≤ n && n < 0x110000)

/- The byte that a one-letter escape stands for. -/
def shortValue?
    (quote b : UInt8) : Option UInt8 :=
  if b = 0x61 then some 0x07
  else if b = 0x62 then some 0x08
  else if b = 0x66 then some 0x0c
  else if b = 0x6e then some 0x0a
  else if b = 0x72 then some 0x0d
  else if b = 0x74 then some 0x09
  else if b = 0x76 then some 0x0b
  else if b = 0x5c || b = quote then some b
  else none

/-
  Read an escape of digits, which stands for what `encode`
  makes of their value if `accepts` takes it.
-/
def digitEscape?
    (accepts : Nat → Bool)
    (encode : Nat → Bytes)
    (base count : Nat)
    (s : Bytes) : Option (Bytes × Bytes) :=
  match digits? base count 0 s with
  | some (n, rest) =>
      if accepts n then some (encode n, rest) else none
  | none => none

/- Read an escape of digits that stands for a byte. -/
def byteEscape?
    (base count : Nat)
    (s : Bytes) : Option (Bytes × Bytes) :=
  digitEscape? (· < 256) (fun n => [n.toUInt8]) base count s

/- Read an escape of digits that stands for a character. -/
def charEscape?
    (count : Nat)
    (s : Bytes) : Option (Bytes × Bytes) :=
  digitEscape? isCharacter Utf8.encode 16 count s

/- Read what follows a backslash. -/
def escape?
    (quote : UInt8) : Bytes → Option (Bytes × Bytes)
  | [] => none
  | b :: s =>
      match shortValue? quote b with
      | some v => some ([v], s)
      | none =>
          if b = 0x78 then byteEscape? 16 2 s
          else if b = 0x75 then charEscape? 4 s
          else if b = 0x55 then charEscape? 8 s
          else byteEscape? 8 3 (b :: s)

/- Reading an escape of digits leaves no more than there was. -/
theorem length_of_digitEscape?
    {accepts : Nat → Bool}
    {encode : Nat → Bytes}
    {base count : Nat}
    {s value rest : Bytes}
    (h :
      digitEscape? accepts encode base count s =
        some (value, rest)) :
    rest.length ≤ s.length := by
  unfold digitEscape? at h
  split at h
  case h_1 n r hDigits =>
    split at h
    · simp only [Option.some.injEq, Prod.mk.injEq] at h
      exact h.2 ▸ length_of_digits? hDigits
    · simp at h
  case h_2 => simp at h

/- Reading an escape leaves no more than there was. -/
theorem length_of_escape?
    {quote : UInt8}
    {s value rest : Bytes}
    (h : escape? quote s = some (value, rest)) :
    rest.length ≤ s.length := by
  cases s with
  | nil => simp [escape?] at h
  | cons b s =>
      simp only [escape?] at h
      cases hv : shortValue? quote b with
      | some v =>
          simp only [hv, Option.some.injEq, Prod.mk.injEq] at h
          exact h.2 ▸ Nat.le_succ _
      | none =>
          simp only [hv] at h
          split at h
          · exact Nat.le_succ_of_le (length_of_digitEscape? h)
          · split at h
            · exact Nat.le_succ_of_le (length_of_digitEscape? h)
            · split at h
              · exact Nat.le_succ_of_le (length_of_digitEscape? h)
              · exact length_of_digitEscape? h

/-
  Read the inside of a quoted literal up to its closing
  quote, which must be the last byte.
-/
def inside?
    (quote : UInt8)
    (s : Bytes) : Option Bytes :=
  match _h : Utf8.split? s with
  | none => none
  | some (g, rest) =>
      if g = .char (Char.ofNat quote.toNat) then
        if rest.isEmpty then some [] else none
      else if g = .char '\n' then
        none
      else if g = .char '\\' then
        match _hEsc : escape? quote rest with
        | none => none
        | some (value, rest') =>
            (inside? quote rest').map fun t => value ++ t
      else
        (inside? quote rest).map fun t => Utf8.encode g.code ++ t
termination_by s.length
decreasing_by
  · exact Nat.lt_of_le_of_lt (length_of_escape? _hEsc)
      (Utf8.length_of_split? _h)
  · exact Utf8.length_of_split? _h

/-
  The value of a string literal: between double quotes with
  escapes, or between back quotes without any, where carriage
  returns do not count.
-/
def decode? : Bytes → Option Bytes
  | 0x22 :: s => inside? 0x22 s
  | 0x60 :: s =>
      match s.reverse with
      | 0x60 :: body =>
          if body.contains 0x60 then
            none
          else
            some (body.reverse.filter (· ≠ 0x0d))
      | _ => none
  | _ => none

end Quoted

end Namesake
