import Namesake.Text.Bytes

/-
  This file defines what a scalar without a tag is: a null, a
  boolean, a number, a time, or a text.

  Key definitions include:
    * `Yaml.Tag.short`
    * `Yaml.isInteger`
    * `Yaml.isDecimal`
    * `Yaml.isTime`
    * `Yaml.implicitTag`
-/

namespace Namesake

namespace Yaml

------------------------------------------------------------
-- Tags
------------------------------------------------------------

namespace Tag

/- The tag of texts. -/
def str : Bytes :=
  utf8 "!!str"

/- The tag of truth values. -/
def bool : Bytes :=
  utf8 "!!bool"

/- The tag of whole numbers. -/
def int : Bytes :=
  utf8 "!!int"

/- The tag of other numbers. -/
def float : Bytes :=
  utf8 "!!float"

/- The tag of the null. -/
def null : Bytes :=
  utf8 "!!null"

/- The tag of times. -/
def timestamp : Bytes :=
  utf8 "!!timestamp"

/- The tag of bytes. -/
def binary : Bytes :=
  utf8 "!!binary"

/- The tag of sequences. -/
def seq : Bytes :=
  utf8 "!!seq"

/- The tag of mappings. -/
def map : Bytes :=
  utf8 "!!map"

/- The tag of keys that merge mappings. -/
def merge : Bytes :=
  utf8 "!!merge"

/- What the short form of a tag stands for. -/
def longStart : Bytes :=
  utf8 "tag:yaml.org,2002:"

/- The short form of a tag. -/
def short
    (tag : Bytes) : Bytes :=
  match longStart.isPrefixOf? tag with
  | some name => utf8 "!!" ++ name
  | none => tag

end Tag

------------------------------------------------------------
-- Numbers
------------------------------------------------------------

/- Is this a decimal digit? -/
def isDigitByte
    (b : UInt8) : Bool :=
  0x30 ≤ b && b ≤ 0x39

/- The value of a digit in a base up to 16. -/
def digitIn?
    (base : Nat)
    (b : UInt8) : Option Nat :=
  let n := b.toNat
  let value :=
    if 0x30 ≤ n && n ≤ 0x39 then n - 0x30
    else if 0x61 ≤ n && n ≤ 0x66 then n - 0x57
    else if 0x41 ≤ n && n ≤ 0x46 then n - 0x37
    else 16
  if value < base then some value else none

/- The number that digits write. -/
def numberFrom
    (base value : Nat) : Bytes → Option Nat
  | [] => some value
  | b :: s =>
      match digitIn? base b with
      | some d => numberFrom base (value * base + d) s
      | none => none

/- The number that digits write; there is at least one. -/
def number?
    (base : Nat)
    (s : Bytes) : Option Nat :=
  if s.isEmpty then none else numberFrom base 0 s

/- The digits behind a mark for their base, and that base. -/
def baseOf
    (s : Bytes) : Nat × Bytes :=
  match s with
  | 0x30 :: x :: rest =>
      if x = 0x78 || x = 0x58 then (16, rest)
      else if x = 0x62 || x = 0x42 then (2, rest)
      else if x = 0x6f || x = 0x4f then (8, rest)
      else (8, x :: rest)
  | _ => (10, s)

/- A sign and what follows it. -/
def splitSign
    (s : Bytes) : Bytes × Bytes :=
  match s with
  | 0x2b :: rest => ([0x2b], rest)
  | 0x2d :: rest => ([0x2d], rest)
  | _ => ([], s)

/- Is this a whole number of at most 64 bits? -/
def isInteger
    (s : Bytes) : Bool :=
  let (sign, body) := splitSign s
  let (base, digits) := baseOf body
  match number? base digits with
  | none => false
  | some n =>
      if sign == [0x2d] then n ≤ Nat.pow 2 63
      else if sign == [0x2b] then n < Nat.pow 2 63
      else n < Nat.pow 2 64

/- The exponent at the end of a decimal number. -/
def exponent?
    (s : Bytes) : Option Int :=
  match s with
  | [] => some 0
  | e :: rest =>
      if e = 0x65 || e = 0x45 then
        let (sign, digits) := splitSign rest
        (number? 10 digits).map fun n =>
          if sign == [0x2d] then -(n : Int) else n
      else
        none

/-
  Is the number with these digits, times a power of ten, too
  large for 64 bits of floating point?
-/
def overflows
    (digits : Bytes)
    (power : Int) : Bool :=
  let significant := digits.dropWhile (· == 0x30)
  let size := (significant.length : Int) + power
  if significant.isEmpty || size < 308 then
    false
  else if 310 < size then
    true
  else
    let n := (number? 10 significant).getD 0
    let limit := Nat.pow 2 1024 - Nat.pow 2 970
    if 0 ≤ power then
      limit ≤ n * Nat.pow 10 power.toNat
    else
      limit * Nat.pow 10 (-power).toNat ≤ n

/- Is this a decimal number with a point or an exponent? -/
def isDecimal
    (s : Bytes) : Bool :=
  let body := (splitSign s).2
  let whole := body.takeWhile isDigitByte
  let rest := body.drop whole.length
  let (fraction, tail) :=
    match rest with
    | 0x2e :: r => (r.takeWhile isDigitByte, r.dropWhile isDigitByte)
    | r => ([], r)
  if whole.isEmpty && fraction.isEmpty then
    false
  else
    match exponent? tail with
    | none => false
    | some e =>
        !overflows (whole ++ fraction) (e - (fraction.length : Int))

------------------------------------------------------------
-- Times
------------------------------------------------------------

/- Read one or two digits as a number within bounds. -/
def shortNumber?
    (low high : Nat)
    (s : Bytes) : Option (Nat × Bytes) :=
  let digits := (s.takeWhile isDigitByte).take 2
  match number? 10 digits with
  | some n =>
      if low ≤ n && n ≤ high then
        some (n, s.drop digits.length)
      else
        none
  | none => none

/- Read a given byte. -/
def byte?
    (b : UInt8)
    (s : Bytes) : Option Bytes :=
  match s with
  | x :: rest => if x = b then some rest else none
  | [] => none

/- The number of days of a month. -/
def daysIn
    (year month : Nat) : Nat :=
  if month = 2 then
    if year % 4 = 0 && (year % 100 ≠ 0 || year % 400 = 0) then 29
    else 28
  else if [4, 6, 9, 11].contains month then 30
  else 31

/- Read a date. -/
def date?
    (s : Bytes) : Option Bytes := do
  let year ← number? 10 (s.take 4)
  let rest ← byte? 0x2d (s.drop 4)
  let (month, rest) ← shortNumber? 1 12 rest
  let rest ← byte? 0x2d rest
  let (_, rest) ← shortNumber? 1 (daysIn year month) rest
  some rest

/- Step over a fraction of a second. -/
def skipFraction
    (s : Bytes) : Bytes :=
  match s with
  | b :: rest =>
      if (b = 0x2e || b = 0x2c) &&
          (rest.head?.map isDigitByte).getD false then
        rest.dropWhile isDigitByte
      else
        s
  | [] => s

/- Read a time of day. -/
def clock?
    (s : Bytes) : Option Bytes := do
  let (_, rest) ← shortNumber? 0 23 s
  let rest ← byte? 0x3a rest
  let (_, rest) ← shortNumber? 0 59 rest
  let rest ← byte? 0x3a rest
  let (_, rest) ← shortNumber? 0 59 rest
  some (skipFraction rest)

/- Is this a number up to a bound? -/
def isAtMost
    (high : Nat)
    (s : Bytes) : Bool :=
  match number? 10 s with
  | some n => n ≤ high
  | none => false

/- Is this a time zone? -/
def isZone
    (s : Bytes) : Bool :=
  match s with
  | [0x5a] => true
  | [sign, a, b, 0x3a, c, d] =>
      (sign = 0x2b || sign = 0x2d) &&
        isAtMost 24 [a, b] && isAtMost 60 [c, d]
  | _ => false

/- Is this a date, with or without a time of day? -/
def isTime
    (s : Bytes) : Bool :=
  match date? s with
  | none => false
  | some [] => true
  | some (b :: rest) =>
      match clock? rest with
      | none => false
      | some zone =>
          if b = 0x20 then zone.isEmpty
          else (b = 0x54 || b = 0x74) && isZone zone

------------------------------------------------------------
-- Plain Scalars
------------------------------------------------------------

/- Is the text one of some words? -/
def isWord
    (words : List String)
    (s : Bytes) : Bool :=
  words.any fun w => s == utf8 w

/- Is the text a truth value? -/
def isTrue
    (s : Bytes) : Bool :=
  isWord ["true", "True", "TRUE"] s

/- Is the text the other truth value? -/
def isFalse
    (s : Bytes) : Bool :=
  isWord ["false", "False", "FALSE"] s

/- Is the text a null? -/
def isNull
    (s : Bytes) : Bool :=
  isWord ["", "~", "null", "Null", "NULL"] s

/- The key whose value is merged into its mapping. -/
def mergeKey : Bytes :=
  utf8 "<<"

/- Is the text a number that no digits can write? -/
def isSpecialNumber
    (s : Bytes) : Bool :=
  isWord
    [".nan", ".NaN", ".NAN", ".inf", ".Inf", ".INF", "+.inf", "+.Inf",
      "+.INF", "-.inf", "-.Inf", "-.INF"] s

/- Does the text start like a number? -/
def startsNumber
    (s : Bytes) : Bool :=
  match s with
  | b :: _ => isDigitByte b || b = 0x2b || b = 0x2d
  | [] => false

/- The tag of a number or a time. -/
def numberTag?
    (times : Bool)
    (s : Bytes) : Option Bytes :=
  let plain := s.filter (· ≠ 0x5f)
  if times && isTime s then some Tag.timestamp
  else if isInteger plain then some Tag.int
  else if isDecimal plain then some Tag.float
  else none

/-
  What a scalar is, if texts and bytes are not asked for.
  Times are only seen if they may be.
-/
def implicitTag
    (times : Bool)
    (s : Bytes) : Bytes :=
  if isTrue s || isFalse s then Tag.bool
  else if isNull s then Tag.null
  else if s == mergeKey then Tag.merge
  else if isSpecialNumber s then Tag.float
  else if startsNumber s then (numberTag? times s).getD Tag.str
  else if s.head? == some 0x2e && isDecimal s then Tag.float
  else Tag.str

end Yaml

end Namesake
