import Namesake.Lint
import Namesake.Scanner.Basic
import Namesake.Text.Quoted

/-
  This file defines the settings of a run and which settings
  are valid.

  Key definitions include:
    * `Settings`
    * `Settings.standard`
    * `Settings.Error`
    * `Settings.validate`
    * `Settings.fillEmpty`
-/

namespace Namesake

------------------------------------------------------------
-- Settings
------------------------------------------------------------

/- The settings of a run. -/
structure Settings where
  directive : Bytes := []
  mode : Bytes := []
  suffix : Bytes := []
  lint : Lint.Options := ⟨false, false⟩
  logLevel : Bytes := []
deriving DecidableEq, Repr

namespace Settings

/- The mode that writes duplicates to a file of their own. -/
def companion : Bytes :=
  utf8 "companion"

/- The mode that writes duplicates behind their declarations. -/
def inPlace : Bytes :=
  utf8 "inplace"

/- The settings that apply when nothing is configured. -/
def standard : Settings :=
  { directive := utf8 "alias"
    mode := companion
    suffix := utf8 "_alias.go"
    lint := ⟨true, true⟩
    logLevel := utf8 "info" }

/- The settings file that is read when no path is given. -/
def defaultPath : Bytes :=
  utf8 ".aliasgen.yaml"

------------------------------------------------------------
-- Validity
------------------------------------------------------------

/- Why settings are not valid. -/
inductive Error where
  | missing
  | directive (name : Bytes)
  | mode (name : Bytes)
  | suffix (text : Bytes)
deriving DecidableEq, Repr

/- The wording of an error. -/
def Error.message : Error → Bytes
  | .missing => utf8 "configuration is not set"
  | .directive name =>
      utf8 "invalid directive name: " ++ Quoted.encode name
  | .mode name =>
      utf8 "invalid output mode: " ++ Quoted.encode name ++
        utf8 " (expected companion or inplace)"
  | .suffix text =>
      utf8 "invalid output suffix: " ++ Quoted.encode text

/- Is this an identifier, and not a reserved word? -/
def isIdentifier
    (s : Bytes) : Bool :=
  TokenKind.ofWord s == .ident &&
    match s.glyphs with
    | [] => false
    | g :: gs =>
        Scanner.isNameStart g.code &&
          gs.all fun g => Scanner.isNamePart g.code

/- Does a suffix make a source file that is not a test? -/
def isSuffix
    (s : Bytes) : Bool :=
  s.endsWith (utf8 ".go") && s != utf8 ".go" &&
    !s.endsWith (utf8 "_test.go") && !s.contains 0x2f

/- Check settings; the first error counts. -/
def validate
    (s : Settings) : Except Error Unit :=
  if !isIdentifier s.directive then
    .error (.directive s.directive)
  else if s.mode != companion && s.mode != inPlace then
    .error (.mode s.mode)
  else if !isSuffix s.suffix then
    .error (.suffix s.suffix)
  else
    .ok ()

/- Check settings that may be missing. -/
def validate? : Option Settings → Except Error Unit
  | none => .error .missing
  | some s => s.validate

/- Replace empty texts by the standard ones. -/
def fillEmpty
    (s : Settings) : Settings :=
  let text := fun (given default : Bytes) =>
    if given.isEmpty then default else given
  { s with
    directive := text s.directive standard.directive
    mode := text s.mode standard.mode
    suffix := text s.suffix standard.suffix
    logLevel := text s.logLevel standard.logLevel }

/- The path of the companion of a source file. -/
def companionPath
    (path suffix : Bytes) : Bytes :=
  path.trimEnding (utf8 ".go") ++ suffix

end Settings

end Namesake
