import Namesake.Text.Utf8
import Namesake.Yaml.Base64
import Namesake.Yaml.Resolve
import Namesake.Yaml.Token

/-
  This file defines how texts and truth values are written as
  the values of a mapping, and how mappings are written.

  A text is written plain if it reads back as the same text.
  Lines are written as a block if nothing in them is lost.

  Key definitions include:
    * `Yaml.Traits`
    * `Yaml.Traits.of`
    * `Yaml.styleOf`
    * `Yaml.scalarText`
    * `Yaml.Entry`
    * `Yaml.mappingText`
-/

namespace Namesake

namespace Yaml

------------------------------------------------------------
-- Traits
------------------------------------------------------------

/- What matters about a text when its style is chosen. -/
structure Traits where
  indicator : Bool := false
  lineBreak : Bool := false
  special : Bool := false
  tab : Bool := false
  edgeSpace : Bool := false
  edgeBreak : Bool := false
  trailingSpace : Bool := false
  breakSpace : Bool := false
  spaceBreak : Bool := false
deriving Repr

/- Can the character be shown as it is? -/
def isPrintable
    (c : Char) : Bool :=
  let n := c.toNat
  n == 0x0a || (0x20 ≤ n && n ≤ 0x7e) || (0xa0 ≤ n && n ≤ 0xd7ff) ||
    (0xe000 ≤ n && n ≤ 0xfffd && n ≠ 0xfeff)

/- Is the rest of a text empty, or does it start with a blank? -/
def blankAhead : List Char → Bool
  | [] => true
  | c :: _ => isBlank c

/- Is the first character of a text read as something else? -/
def firstIndicates : List Char → Bool
  | [] => false
  | c :: rest =>
      [ '#', ',', '[', ']', '\x7b', '\x7d', '&', '*', '!', '|', '>',
        '\x27', '"', '%', '@', '\x60' ].contains c ||
        ((c == '?' || c == ':' || c == '-') && blankAhead rest)

/- Is a later character read as something else? -/
def laterIndicates : (previous : Char) → List Char → Bool
  | _, [] => false
  | previous, c :: rest =>
      (c == ':' && blankAhead rest) ||
        (c == '#' && (isBlank previous || isBreak previous)) ||
        laterIndicates c rest

/- Does a text start like the start or the end of a document? -/
def startsDocument
    (cs : List Char) : Bool :=
  cs.take 3 == [ '-', '-', '-' ] || cs.take 3 == [ '.', '.', '.' ]

/- Do two characters of the given classes follow each other? -/
def adjacent
    (p q : Char → Bool) : List Char → Bool
  | [] => false
  | [_] => false
  | a :: b :: rest => (p a && q b) || adjacent p q (b :: rest)

/- The traits of a text. -/
def Traits.of
    (cs : List Char) : Traits :=
  let space := fun (c : Char) => c == ' '
  let first := cs.head?
  let last := cs.getLast?
  { indicator :=
      startsDocument cs || firstIndicates cs ||
        laterIndicates (first.getD ' ') (cs.drop 1)
    lineBreak := cs.any isBreak
    special := cs.any fun c => c != '\t' && !isPrintable c
    tab := cs.contains '\t'
    edgeSpace := first == some ' ' || last == some ' '
    edgeBreak :=
      (first.map isBreak).getD false || (last.map isBreak).getD false
    trailingSpace := last == some ' '
    breakSpace := adjacent isBreak space cs
    spaceBreak := adjacent space isBreak cs }

namespace Traits

/- Can the text stand between single quotes? -/
def singleAllowed
    (t : Traits) : Bool :=
  !t.breakSpace && !t.spaceBreak && !t.tab && !t.special

/- Can the text stand without quotes? -/
def plainAllowed
    (t : Traits) : Bool :=
  t.singleAllowed && !t.edgeSpace && !t.edgeBreak && !t.lineBreak &&
    !t.indicator

/- Can the text be written as a block of lines? -/
def blockAllowed
    (t : Traits) : Bool :=
  !t.trailingSpace && !t.spaceBreak && !t.special

end Traits

------------------------------------------------------------
-- Styles
------------------------------------------------------------

/- Skip digits between underscores. -/
def skipDigits
    (s : Bytes) : Bytes :=
  s.dropWhile fun b => isDigitByte b || b = 0x5f

/- Parts of an hour or a minute, each behind a colon. -/
def sixtieths : (fuel : Nat) → Bytes → Option Bytes
  | 0, _ => none
  | fuel + 1, s => do
      let rest ← byte? 0x3a s
      let digits := (rest.takeWhile isDigitByte).take 2
      let n ← number? 10 digits
      let rest := rest.drop digits.length
      if digits.length = 2 && 60 ≤ n then
        none
      else if rest.head? == some 0x3a then
        sixtieths fuel rest
      else
        some rest

/- Is this a number to the base of 60, as in times of day? -/
def isSixtyBased
    (s : Bytes) : Bool :=
  let body := (splitSign s).2
  match body with
  | [] => false
  | b :: _ =>
      isDigitByte b &&
        match sixtieths (s.length + 1) (skipDigits body) with
        | none => false
        | some [] => true
        | some (x :: rest) => x = 0x2e && (skipDigits rest).isEmpty

/- Is this a word that other readers take for a truth value? -/
def isOldTruth
    (s : Bytes) : Bool :=
  isWord
    ["y", "Y", "yes", "Yes", "YES", "on", "On", "ON", "n", "N", "no",
      "No", "NO", "off", "Off", "OFF"] s

/- Does a text read back as a text without quotes? -/
def staysText
    (s : Bytes) : Bool :=
  implicitTag true s == Tag.str && !isSixtyBased s && !isOldTruth s

/-
  The style of a text.  A text with a tag need not read back
  without quotes.
-/
def styleOf
    (tagged : Bool)
    (s : Bytes)
    (cs : List Char) : Style :=
  let t := Traits.of cs
  if cs.contains '\n' then
    if t.blockAllowed then .literal else .doubleQuoted
  else if !tagged && !staysText s then
    .doubleQuoted
  else if t.plainAllowed then
    .plain
  else if t.singleAllowed then
    .singleQuoted
  else
    .doubleQuoted

------------------------------------------------------------
-- Scalars
------------------------------------------------------------

/- The escape of a character in double quotes. -/
def escapeText
    (c : Char) : Bytes :=
  let upper := fun (n width : Nat) =>
    (Bytes.hex n width).map fun d => if 0x61 ≤ d then d - 0x20 else d
  match c with
  | '\x00' => utf8 "\\0"
  | '\x07' => utf8 "\\a"
  | '\x08' => utf8 "\\b"
  | '\t' => utf8 "\\t"
  | '\n' => utf8 "\\n"
  | '\x0b' => utf8 "\\v"
  | '\x0c' => utf8 "\\f"
  | '\r' => utf8 "\\r"
  | '\x1b' => utf8 "\\e"
  | '"' => utf8 "\\\""
  | '\\' => utf8 "\\\\"
  | '\u0085' => utf8 "\\N"
  | '\u00a0' => utf8 "\\_"
  | '\u2028' => utf8 "\\L"
  | '\u2029' => utf8 "\\P"
  | c =>
      let n := c.toNat
      if n ≤ 0xff then utf8 "\\x" ++ upper n 2
      else if n ≤ 0xffff then utf8 "\\u" ++ upper n 4
      else utf8 "\\U" ++ upper n 8

/- A text between double quotes. -/
def doubleQuotedText
    (cs : List Char) : Bytes :=
  let body := cs.flatMap fun c =>
    if !isPrintable c || isBreak c || c == '"' || c == '\\' then
      escapeText c
    else
      encode [c]
  utf8 "\"" ++ body ++ utf8 "\""

/- The inside of single quotes, with the indent of later lines. -/
def singleQuotedFrom
    (indent : Nat)
    (broken : Bool) : List Char → Bytes
  | [] => []
  | c :: rest =>
      if isBreak c then
        encode [c] ++ singleQuotedFrom indent true rest
      else
        (if broken && c != ' ' then List.replicate indent 0x20 else []) ++
          (if c == '\x27' then utf8 "''" else encode [c]) ++
          singleQuotedFrom indent (broken && c == ' ') rest

/- A text between single quotes. -/
def singleQuotedText
    (indent : Nat)
    (cs : List Char) : Bytes :=
  utf8 "'" ++ singleQuotedFrom indent false cs ++ utf8 "'"

/- The distance between the columns of nested parts. -/
def indentWidth : Nat :=
  4

/- The head of a block: its indent if needed, and its end. -/
def blockHints
    (cs : List Char) : Bytes :=
  let hint :=
    match cs with
    | c :: _ =>
        if c == ' ' || isBreak c then Bytes.ofNat indentWidth else []
    | [] => []
  let ending :=
    match cs.reverse with
    | [] => utf8 "-"
    | [c] => if isBreak c then utf8 "+" else utf8 "-"
    | c :: d :: _ =>
        if !isBreak c then utf8 "-"
        else if isBreak d then utf8 "+"
        else []
  hint ++ ending

/-
  The lines of a block.  At the start of a line, `fresh` tells
  whether the line before has ended.
-/
def blockFrom
    (indent : Nat)
    (starting fresh : Bool) : List Char → Bytes
  | [] => []
  | c :: rest =>
      if isBreak c then
        encode [c] ++ blockFrom indent true true rest
      else
        (if starting then
          (if fresh then [] else utf8 "\n") ++
            List.replicate indent 0x20
        else
          []) ++ encode [c] ++ blockFrom indent false false rest

/- A text as a block of lines. -/
def blockText
    (indent : Nat)
    (cs : List Char) : Bytes :=
  utf8 "|" ++ blockHints cs ++ blockFrom indent true false cs

/- A text in its style. -/
def textIn
    (indent : Nat)
    (tagged : Bool)
    (s : Bytes) : Bytes :=
  let cs := s.glyphs.map fun g => Char.ofNat g.code
  match styleOf tagged s cs with
  | .plain => s
  | .singleQuoted => singleQuotedText indent cs
  | .doubleQuoted => doubleQuotedText cs
  | _ => blockText indent cs

/- Digits in lines of 70, if there is more than one line. -/
def wrapDigits
    (s : Bytes) : Bytes :=
  if s.length < 70 then
    s
  else
    let rec go : (fuel : Nat) → Bytes → Bytes
      | 0, _ => []
      | fuel + 1, s =>
          if s.isEmpty then
            []
          else
            s.take 70 ++ utf8 "\n" ++ go fuel (s.drop 70)
    go (s.length + 1) s

/- A text as a value; bytes that are no text have a tag. -/
def scalarText
    (indent : Nat)
    (s : Bytes) : Bytes :=
  if s.isUtf8 then
    textIn indent false s
  else
    Tag.binary ++ utf8 " " ++
      textIn indent true (wrapDigits (Base64.encode s))

------------------------------------------------------------
-- Mappings
------------------------------------------------------------

/- An entry of a mapping. -/
inductive Entry where
  | text (key value : Bytes)
  | truth (key : Bytes) (value : Bool)
  | mapping (key : Bytes) (entries : List Entry)

/- A value, with the end of its line. -/
def lineText
    (value : Bytes) : Bytes :=
  if value.getLast? == some 0x0a then value else value ++ utf8 "\n"

mutual

/- An entry in lines with an indent. -/
def entryText
    (indent : Nat) : Entry → Bytes
  | .text key value =>
      List.replicate indent 0x20 ++ key ++ utf8 ": " ++
        lineText (scalarText (indent + indentWidth) value)
  | .truth key value =>
      List.replicate indent 0x20 ++ key ++ utf8 ": " ++
        (if value then utf8 "true\n" else utf8 "false\n")
  | .mapping key entries =>
      List.replicate indent 0x20 ++ key ++ utf8 ":\n" ++
        entriesText (indent + indentWidth) entries

/- Entries in lines with an indent. -/
def entriesText
    (indent : Nat) : List Entry → Bytes
  | [] => []
  | e :: es => entryText indent e ++ entriesText indent es

end

/- The text of a mapping. -/
def mappingText
    (entries : List Entry) : Bytes :=
  entriesText 0 entries

end Yaml

end Namesake
