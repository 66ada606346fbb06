import Namesake.Text.Bytes

/-
  This file defines the tokens of YAML and the characters
  that separate them.

  Key definitions include:
    * `Yaml.Mark`
    * `Yaml.Style`
    * `Yaml.Shape`
    * `Yaml.Token`
    * `Yaml.isBlank`
    * `Yaml.isBreak`
    * `Yaml.endsWord`
-/

namespace Namesake

namespace Yaml

------------------------------------------------------------
-- Places
------------------------------------------------------------

/- A place in a text; everything counts from 0. -/
structure Mark where
  index : Nat := 0
  line : Nat := 0
  column : Nat := 0
deriving DecidableEq, Repr

------------------------------------------------------------
-- Characters
------------------------------------------------------------

/- Is this a space or a tab? -/
def isBlank
    (c : Char) : Bool :=
  c == ' ' || c == '\t'

/- Does the character end a line? -/
def isBreak
    (c : Char) : Bool :=
  c == '\n' || c == '\r' || c == '\u0085' || c == '\u2028' ||
    c == '\u2029'

/- Does the text start with a blank, a line end or nothing? -/
def endsWord : List Char → Bool
  | [] => true
  | c :: _ => isBlank c || isBreak c

/- Does the text start with a line end or nothing? -/
def endsLine : List Char → Bool
  | [] => true
  | c :: _ => isBreak c

/- May the character be part of a name? -/
def isWordChar
    (c : Char) : Bool :=
  ('0' ≤ c && c ≤ '9') || ('A' ≤ c && c ≤ 'Z') ||
    ('a' ≤ c && c ≤ 'z') || c == '_' || c == '-'

/- Is this a decimal digit? -/
def isDigit
    (c : Char) : Bool :=
  '0' ≤ c && c ≤ '9'

/- The value of a hexadecimal digit. -/
def hexValue?
    (c : Char) : Option Nat :=
  if '0' ≤ c && c ≤ '9' then some (c.toNat - 0x30)
  else if 'A' ≤ c && c ≤ 'F' then some (c.toNat - 0x37)
  else if 'a' ≤ c && c ≤ 'f' then some (c.toNat - 0x57)
  else none

/- The UTF-8 encoding of characters. -/
def encode
    (cs : List Char) : Bytes :=
  cs.flatMap String.utf8EncodeChar

------------------------------------------------------------
-- Tokens
------------------------------------------------------------

/- How a scalar is written. -/
inductive Style where
  | plain
  | singleQuoted
  | doubleQuoted
  | literal
  | folded
deriving DecidableEq, Repr

/- What a token is. -/
inductive Shape where
  | streamStart
  | streamEnd
  | versionDirective (major minor : Nat)
  | tagDirective (handle start : Bytes)
  | documentStart
  | documentEnd
  | blockSequenceStart
  | blockMappingStart
  | blockEnd
  | flowSequenceStart
  | flowSequenceEnd
  | flowMappingStart
  | flowMappingEnd
  | blockEntry
  | flowEntry
  | key
  | value
  | reference (name : Bytes)
  | anchor (name : Bytes)
  | tag (handle suffix : Bytes)
  | scalar (value : Bytes) (style : Style)
deriving DecidableEq, Repr

/- A token and where it starts. -/
structure Token where
  shape : Shape
  start : Mark
  stop : Mark
deriving DecidableEq, Repr

end Yaml

end Namesake
