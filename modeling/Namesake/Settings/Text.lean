import Namesake.Settings.Basic
import Namesake.Yaml.Decode
import Namesake.Yaml.Parser
import Namesake.Yaml.Printer

/-
  This file defines how settings are read from a text and
  written to one.

  Key definitions include:
    * `Settings.record`
    * `Settings.ParseError`
    * `Settings.parse`
    * `Settings.render`
-/

namespace Namesake

namespace Settings

open Yaml

------------------------------------------------------------
-- Reading
------------------------------------------------------------

/- A field that holds a text. -/
def textField
    (name : String)
    (set : Bytes → Settings → Settings) : Yaml.Field Settings :=
  { name := utf8 name
    read := fun doc n s => do
      match ← Decoder.text doc n with
      | some t => return set t s
      | none => return s }

/- A field that holds a truth value. -/
def truthField
    (name : String)
    (set : Bool → Settings → Settings) : Yaml.Field Settings :=
  { name := utf8 name
    read := fun doc n s => do
      match ← Decoder.truth doc n with
      | some b => return set b s
      | none => return s }

/- A field that holds a record. -/
def recordField
    (name : String)
    (r : Record Settings) : Yaml.Field Settings :=
  { name := utf8 name, read := fun doc n s => r.decode doc n s }

/- The fields about outputs. -/
def outputRecord : Record Settings :=
  { name := utf8 "config.Output"
    fields :=
      [textField "mode" fun t s => { s with mode := t },
        textField "suffix" fun t s => { s with suffix := t }] }

/- The fields about warnings. -/
def lintRecord : Record Settings :=
  { name := utf8 "config.Lint"
    fields :=
      [truthField "semver_since" fun b s =>
          { s with lint := { s.lint with semverSince := b } },
        truthField "duplicate_aliases" fun b s =>
          { s with lint := { s.lint with duplicateAliases := b } }] }

/- All fields of settings. -/
def record : Record Settings :=
  { name := utf8 "config.Config"
    fields :=
      [textField "directive" fun t s => { s with directive := t },
        recordField "output" outputRecord,
        recordField "lint" lintRecord,
        textField "log_level" fun t s => { s with logLevel := t }] }

/- Why a text is not read as settings. -/
inductive ParseError where
  | malformed (cause : Yaml.Error)
  | mistyped (causes : List Yaml.Mismatch)
  | invalid (cause : Error)
deriving DecidableEq, Repr

/- The wording of an error. -/
def ParseError.message : ParseError → Bytes
  | .malformed cause => utf8 "unmarshal settings: " ++ cause.message
  | .mistyped causes =>
      utf8 "unmarshal settings: " ++ Mismatch.messages causes
  | .invalid cause => cause.message

/- Change settings as a document tells. -/
def decode
    (doc : Document)
    (s : Settings) : Except ParseError Settings :=
  match (record.decode doc doc.root s).run [] with
  | .error cause => .error (.malformed cause)
  | .ok (s, []) => .ok s
  | .ok (_, causes) => .error (.mistyped causes)

/- Change settings as a text tells. -/
def decodeText
    (text : Bytes)
    (s : Settings) : Except ParseError Settings :=
  match Yaml.parse text with
  | .error cause => .error (.malformed cause)
  | .ok none => .ok s
  | .ok (some doc) => decode doc s

/-
  Read settings from a text.  What the text leaves out or
  leaves empty has its standard value.
-/
def parse
    (text : Bytes) : Except ParseError Settings :=
  match decodeText text standard with
  | .error e => .error e
  | .ok s =>
      match s.fillEmpty.validate with
      | .error cause => .error (.invalid cause)
      | .ok _ => .ok s.fillEmpty

------------------------------------------------------------
-- Writing
------------------------------------------------------------

/- Settings as a mapping. -/
def toEntries
    (s : Settings) : List Entry :=
  [.text (utf8 "directive") s.directive,
    .mapping (utf8 "output")
      [.text (utf8 "mode") s.mode, .text (utf8 "suffix") s.suffix],
    .mapping (utf8 "lint")
      [.truth (utf8 "semver_since") s.lint.semverSince,
        .truth (utf8 "duplicate_aliases") s.lint.duplicateAliases],
    .text (utf8 "log_level") s.logLevel]

/- The text of settings. -/
def render
    (s : Settings) : Bytes :=
  mappingText s.toEntries

end Settings

end Namesake
