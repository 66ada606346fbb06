import Namesake.Text.Blank
import Namesake.Text.LowerCase
import Namesake.Text.Quoted

/-
  This file defines log lines: a coloured level, a message
  and the fields that a logger carries.

  Key definitions include:
    * `Log.Level`
    * `Log.Level.parse?`
    * `Log.Value`
    * `Log.Logger`
    * `Log.Logger.emit`
    * `Log.Logger.withPairs`
    * `Log.Logger.emitPairs`
-/

namespace Namesake

namespace Log

------------------------------------------------------------
-- Levels
------------------------------------------------------------

/- How important a log line is. -/
inductive Level where
  | debug
  | info
  | warn
  | error
deriving DecidableEq, Repr

namespace Level

/- The rank of a level. -/
def rank : Level → Nat
  | .debug => 0
  | .info => 1
  | .warn => 2
  | .error => 3

/- The name of a level. -/
def name : Level → Bytes
  | .debug => utf8 "debug"
  | .info => utf8 "info"
  | .warn => utf8 "warn"
  | .error => utf8 "error"

/- The level of a name, in any case and with white space around it. -/
def parse?
    (s : Bytes) : Option Level :=
  let s := s.trimSpace.toLower
  [Level.debug, .info, .warn, .error].find? fun l => l.name == s

/- The level as a line shows it, in its colour. -/
def label : Level → Bytes
  | .debug => utf8 "\x1b[35mDEBUG\x1b[0m"
  | .info => utf8 "\x1b[34mINFO\x1b[0m"
  | .warn => utf8 "\x1b[33mWARN\x1b[0m"
  | .error => utf8 "\x1b[31mERROR\x1b[0m"

end Level

------------------------------------------------------------
-- Fields
------------------------------------------------------------

/- The value of a field. -/
inductive Value where
  | text (s : Bytes)
  | texts (ss : List Bytes)
deriving DecidableEq, Repr

/- One glyph of a quoted text. -/
def escape : Glyph → Bytes
  | .stray _ => utf8 "\\ufffd"
  | .char c =>
      let n := c.toNat
      if n = 0x22 || n = 0x5c then
        [0x5c, n.toUInt8]
      else if n = 0x0a then
        utf8 "\\n"
      else if n = 0x0d then
        utf8 "\\r"
      else if n = 0x09 then
        utf8 "\\t"
      else if n < 0x20 then
        utf8 "\\u00" ++ Bytes.hex n 2
      else
        (Glyph.char c).bytes

/- A quoted text. -/
def quote
    (s : Bytes) : Bytes :=
  [0x22] ++ s.glyphs.flatMap escape ++ [0x22]

/- A value as a line shows it. -/
def Value.render : Value → Bytes
  | .text s => quote s
  | .texts ss =>
      utf8 "[" ++ Bytes.join (utf8 ", ") (ss.map quote) ++ utf8 "]"

/- A named value. -/
abbrev Field :=
  Bytes × Value

/- The fields as a line shows them. -/
def renderFields
    (fields : List Field) : Bytes :=
  if fields.isEmpty then
    []
  else
    utf8 " \x7b" ++
      Bytes.join (utf8 ", ")
        (fields.map fun f => quote f.1 ++ utf8 ": " ++ f.2.render) ++
      utf8 "\x7d"

/- A log line. -/
def line
    (level : Level)
    (message : Bytes)
    (fields : List Field) : Bytes :=
  level.label ++ utf8 " " ++ message ++ renderFields fields ++ [0x0a]

------------------------------------------------------------
-- Loggers
------------------------------------------------------------

/-
  A logger carries fields and may have a level of its own;
  otherwise the level shared by all loggers applies.
-/
structure Logger where
  level : Option Level := none
  fields : List Field := []
deriving DecidableEq, Repr

namespace Logger

/- Is a line of this level written? -/
def isEnabled
    (logger : Logger)
    (shared level : Level) : Bool :=
  (logger.level.getD shared).rank ≤ level.rank

/- What a logger writes for a message with further fields. -/
def emit
    (logger : Logger)
    (shared level : Level)
    (message : Bytes)
    (fields : List Field := []) : Bytes :=
  if logger.isEnabled shared level then
    line level message (logger.fields ++ fields)
  else
    []

/-
  Pair keys with values.  The second result is a last key
  without a value.
-/
def pairs : List Bytes → List Field × Option Bytes
  | key :: value :: rest =>
      let r := pairs rest
      ((key, .text value) :: r.1, r.2)
  | [key] => ([], some key)
  | [] => ([], none)

/- The complaint about a key without a value. -/
def complain
    (logger : Logger)
    (shared : Level) : Option Bytes → Bytes
  | some key =>
      logger.emit shared .error
        (utf8 "Ignored key without a value.")
        [(utf8 "ignored", .text key)]
  | none => []

/- A logger with further fields, and what making it writes. -/
def withPairs
    (logger : Logger)
    (shared : Level)
    (args : List Bytes) : Logger × Bytes :=
  let r := pairs args
  ({ logger with fields := logger.fields ++ r.1 },
    logger.complain shared r.2)

/- What a logger writes for a message with keys and values. -/
def emitPairs
    (logger : Logger)
    (shared level : Level)
    (message : Bytes)
    (args : List Bytes) : Bytes :=
  if logger.isEnabled shared level then
    let r := pairs args
    logger.complain shared r.2 ++
      logger.emit shared level message r.1
  else
    []

end Logger

end Log

end Namesake
