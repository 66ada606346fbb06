import Namesake.Text.Quoted

/-
  This file defines messages that are made from a format and
  texts.  A verb of the format, such as `%s` or `%-8q`, stands
  for the next text, or for the one whose number is in
  brackets in front of it.

  What is wrong with a format is told in the message.

  Key definitions include:
    * `Log.Flags`
    * `Log.Verb`
    * `Log.Verb.display`
    * `Log.Turn`
    * `Log.readVerb`
    * `Log.format`
-/

namespace Namesake

namespace Log

------------------------------------------------------------
-- Verbs
------------------------------------------------------------

/- The flags behind a percent sign. -/
structure Flags where
  minus : Bool := false
  plus : Bool := false
  sharp : Bool := false
  space : Bool := false
  zero : Bool := false
deriving DecidableEq, Repr

/- A verb: its flags, width, precision and letter. -/
structure Verb where
  flags : Flags := {}
  width : Option Nat := none
  precision : Option Nat := none
  letter : Nat := 0x73
deriving DecidableEq, Repr

namespace Verb

/- Pad a text to the width, which counts characters. -/
def pad
    (v : Verb)
    (s : Bytes) : Bytes :=
  let missing := v.width.getD 0 - s.glyphs.length
  if v.flags.minus then
    s ++ List.replicate missing 0x20
  else if v.flags.zero then
    List.replicate missing 0x30 ++ s
  else
    List.replicate missing 0x20 ++ s

/- As many characters of a text as the precision allows. -/
def truncate
    (v : Verb)
    (s : Bytes) : Bytes :=
  match v.precision with
  | some n => (s.glyphs.take n).flatMap Glyph.bytes
  | none => s

/- A byte in two hexadecimal digits. -/
def hexDigits
    (upper : Bool)
    (b : UInt8) : Bytes :=
  let digits := Bytes.hex b.toNat 2
  if upper then
    digits.map fun d => if 0x61 ≤ d then d - 0x20 else d
  else
    digits

/- The bytes of a text in hexadecimal digits. -/
def hexText
    (v : Verb)
    (upper : Bool)
    (s : Bytes) : Bytes :=
  let mark :=
    if !v.flags.sharp then []
    else if upper then utf8 "0X"
    else utf8 "0x"
  if s.isEmpty then
    []
  else if v.flags.space then
    Bytes.join (utf8 " ") (s.map fun b => mark ++ hexDigits upper b)
  else
    mark ++ s.flatMap (hexDigits upper)

/- Can a text stand between back quotes? -/
def canBackquote
    (s : Bytes) : Bool :=
  s.glyphs.all fun g =>
    match g with
    | .stray _ => false
    | .char c =>
        let n := c.toNat
        n != 0xfeff && (n ≥ 0x20 || n == 0x09) && n != 0x60 && n != 0x7f

/- A text between quotes; a sharp asks for back quotes. -/
def quoteText
    (v : Verb)
    (s : Bytes) : Bytes :=
  if v.flags.sharp && canBackquote s then
    utf8 "`" ++ s ++ utf8 "`"
  else if v.flags.plus then
    Quoted.encodeAscii s
  else
    Quoted.encode s

/- A text under the letter `v`. -/
def showPlain
    (v : Verb)
    (quoted : Bool)
    (s : Bytes) : Bytes :=
  let s := v.truncate s
  v.pad (if quoted then Quoted.encode s else s)

/- A text under a verb; a letter without a meaning is told. -/
def display
    (v : Verb)
    (s : Bytes) : Bytes :=
  if v.letter = 0x76 then
    v.showPlain v.flags.sharp s
  else if v.letter = 0x73 then
    v.showPlain false s
  else if v.letter = 0x71 then
    v.pad (v.quoteText (v.truncate s))
  else if v.letter = 0x78 || v.letter = 0x58 then
    let s := match v.precision with
      | some n => s.take n
      | none => s
    v.pad (v.hexText (v.letter = 0x58) s)
  else if v.letter = 0x54 then
    v.showPlain false (utf8 "string")
  else
    utf8 "%!" ++ Utf8.encode v.letter ++ utf8 "(string=" ++
      v.showPlain (v.letter = 0x77 && v.flags.sharp) s ++ utf8 ")"

/- The complaint about a verb. -/
def complaint
    (v : Verb)
    (reason : String) : Bytes :=
  utf8 "%!" ++ Utf8.encode v.letter ++ utf8 "(" ++ utf8 reason ++
    utf8 ")"

end Verb

------------------------------------------------------------
-- Reading Verbs
------------------------------------------------------------

/- Read the flags of a verb. -/
def readFlags
    (f : Flags) : Bytes → Flags × Bytes
  | 0x2d :: s => readFlags { f with minus := true } s
  | 0x2b :: s => readFlags { f with plus := true } s
  | 0x23 :: s => readFlags { f with sharp := true } s
  | 0x20 :: s => readFlags { f with space := true } s
  | 0x30 :: s => readFlags { f with zero := true } s
  | s => (f, s)

/- The largest number to which a format may add a digit. -/
def numberLimit : Nat :=
  1000000

/- Read a number.  One that is too large ends the format. -/
def readNumber
    (s : Bytes) : Option Nat × Bytes :=
  let digits := s.takeWhile fun b => isAsciiDigit b.toNat
  let value := digits.foldl (fun n b => n * 10 + (b.toNat - 0x30)) 0
  if digits.isEmpty then
    (none, s)
  else if numberLimit < value / 10 then
    (none, [])
  else
    (some value, s.drop digits.length)

/-
  Whose turn it is: the text for the next verb, whether a
  number chose a text before, and whether all numbers in the
  current verb were good.  What is told before the verb is in
  `told`.
-/
structure Turn where
  next : Nat := 0
  chosen : Bool := false
  good : Bool := true
  told : Bytes := []
deriving DecidableEq, Repr

/-
  Let a number in brackets choose one of `count` texts.  The
  last result says whether there was a number.
-/
def choose
    (count : Nat)
    (t : Turn) : Bytes → Turn × Bytes × Bool
  | 0x5b :: s =>
      let inside := s.takeWhile (· != 0x5d)
      let bad := { t with chosen := true, good := false }
      if s.length < 2 || inside.length = s.length then
        (bad, s, false)
      else
        let rest := s.drop (inside.length + 1)
        match readNumber inside with
        | (some n, []) =>
            if 1 ≤ n && n ≤ count then
              ({ t with next := n - 1, chosen := true }, rest, true)
            else
              (bad, rest, true)
        | _ => (bad, rest, false)
  | s => (t, s, false)

/- A star takes a text for a number, which no text is. -/
def takeStar
    (count : Nat)
    (reason : String)
    (t : Turn) : Turn :=
  { t with
    next := if t.next < count then t.next + 1 else t.next
    told := t.told ++ utf8 "%!(" ++ utf8 reason ++ utf8 ")" }

/- Read a width.  `numbered` says whether a number stands before it. -/
def readWidth
    (count : Nat)
    (t : Turn)
    (numbered : Bool) : Bytes → Turn × Option Nat × Bytes × Bool
  | 0x2a :: s => (takeStar count "BADWIDTH" t, none, s, false)
  | s =>
      let (width, rest) := readNumber s
      let good := t.good && !(numbered && width.isSome)
      ({ t with good }, width, rest, numbered)

/- Read a precision, which follows a point. -/
def readPrecision
    (count : Nat)
    (t : Turn)
    (numbered : Bool) : Bytes → Turn × Option Nat × Bytes × Bool
  | 0x2e :: s =>
      let t := { t with good := t.good && !numbered }
      match choose count t s with
      | (t, 0x2a :: s, _) => (takeStar count "BADPREC" t, none, s, false)
      | (t, s, numbered) =>
          let (precision, rest) := readNumber s
          (t, some (precision.getD 0), rest, numbered)
  | s => (t, none, s, numbered)

/-
  Read what stands behind a percent sign.  There is no verb if
  the format ends before its letter.
-/
def readVerb
    (count : Nat)
    (t : Turn)
    (s : Bytes) : Turn × Option (Verb × Bytes) :=
  let (flags, s) := readFlags {} s
  let (t, s, numbered) := choose count { t with good := true, told := [] } s
  let (t, width, s, numbered) := readWidth count t numbered s
  let (t, precision, s, numbered) := readPrecision count t numbered s
  let (t, s) :=
    if numbered then
      (t, s)
    else
      let r := choose count t s
      (r.1, r.2.1)
  match Utf8.split? s with
  | none => (t, none)
  | some (g, rest) =>
      (t, some ({ flags, width, precision, letter := g.code }, rest))

------------------------------------------------------------
-- Messages
------------------------------------------------------------

/- The complaint about texts that no verb stands for. -/
def extra : List Bytes → Bytes
  | [] => []
  | args =>
      utf8 "%!(EXTRA " ++
        Bytes.join (utf8 ", ") (args.map fun a => utf8 "string=" ++ a) ++
        utf8 ")"

/- What a format says at its end. -/
def farewell
    (args : List Bytes)
    (t : Turn) : Bytes :=
  if t.chosen then [] else extra (args.drop t.next)

/- What a verb says, and whose turn it is then. -/
def speak
    (args : List Bytes)
    (t : Turn)
    (v : Verb) : Bytes × Turn :=
  if v.letter = 0x25 then
    (utf8 "%", t)
  else if !t.good then
    (v.complaint "BADINDEX", t)
  else
    match args[t.next]? with
    | none => (v.complaint "MISSING", t)
    | some arg => (v.display arg, { t with next := t.next + 1 })

/-
  Fill the verbs of a format.  The fuel is the length of the
  format, which every step shortens.
-/
def fill
    (args : List Bytes) : (fuel : Nat) → Turn → Bytes → Bytes
  | 0, t, _ => farewell args t
  | _ + 1, t, [] => farewell args t
  | fuel + 1, t, 0x25 :: s =>
      match readVerb args.length t s with
      | (t, none) => t.told ++ utf8 "%!(NOVERB)" ++ farewell args t
      | (t, some (v, rest)) =>
          let (said, next) := speak args t v
          t.told ++ said ++ fill args fuel next rest
  | fuel + 1, t, b :: s => b :: fill args fuel t s

/-
  A message from a format and texts.  Without texts the format
  is the message; an empty format joins the texts.
-/
def format
    (template : Bytes)
    (args : List Bytes) : Bytes :=
  if args.isEmpty then
    template
  else if template.isEmpty then
    args.flatten
  else
    fill args template.length {} template

end Log

end Namesake
