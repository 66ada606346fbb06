import Namesake.Position

/-
  This file defines diagnostics and collections of them.  A
  collection files diagnostics by severity and keeps the
  order of filing within each severity.

  Key definitions include:
    * `Severity`
    * `Diagnostic`
    * `Diagnostic.text`
    * `Failure.cause`
    * `Diagnostics`
    * `Diagnostics.add`
    * `Diagnostics.addError`
    * `Diagnostics.merge`
    * `Diagnostics.all`
    * `Diagnostics.errorText?`
-/

namespace Namesake

------------------------------------------------------------
-- Severities
------------------------------------------------------------

/- How serious a diagnostic is. -/
inductive Severity where
  | info
  | warning
  | error
  | unnamed (code : Int)
deriving DecidableEq, Repr

namespace Severity

/- The severity of a number; numbers without a name are kept. -/
def ofCode
    (code : Int) : Severity :=
  if code = 0 then .info
  else if code = 1 then .warning
  else if code = 2 then .error
  else .unnamed code

/- The name of a severity. -/
def name : Severity → Bytes
  | .info => utf8 "Info"
  | .warning => utf8 "Warning"
  | .error => utf8 "Error"
  | .unnamed code =>
      utf8 "Severity(" ++ Bytes.ofInt code ++ utf8 ")"

/- The name of a severity in a report. -/
def label : Severity → Bytes
  | .info => utf8 "info"
  | .warning => utf8 "warning"
  | .error => utf8 "error"
  | .unnamed code =>
      utf8 "severity(" ++ Bytes.ofInt code ++ utf8 ")"

end Severity

------------------------------------------------------------
-- Diagnostics
------------------------------------------------------------

/- A finding about a source file. -/
structure Diagnostic where
  severity : Severity
  code : Bytes
  message : Bytes
  span : Span := {}
  suggestions : List Bytes := []
deriving DecidableEq, Repr

namespace Diagnostic

/- The code of arguments that do not match the entry grammar. -/
def malformedArguments : Bytes :=
  utf8 "malformed-arguments"

/- The code of a declaration that cannot be aliased. -/
def unsupportedDeclaration : Bytes :=
  utf8 "unsupported-declaration"

/- The code of a method whose receiver has no type name. -/
def malformedSelfType : Bytes :=
  utf8 "malformed-self-type"

/- The code of a since value that is no version. -/
def sinceNotSemver : Bytes :=
  utf8 "since-not-semver"

/- The code of an alias name repeated in one list. -/
def duplicateAlias : Bytes :=
  utf8 "duplicate-alias"

/- The diagnostic as reports show it. -/
def text
    (d : Diagnostic) : Bytes :=
  let code :=
    if d.code.isEmpty then [] else utf8 "[" ++ d.code ++ utf8 "] "
  let hints :=
    if d.suggestions.isEmpty then
      []
    else
      utf8 " (" ++ Bytes.join (utf8 "; ") d.suggestions ++ utf8 ")"
  let place :=
    if d.span.isValid then d.span.text ++ utf8 ": " else []
  place ++ code ++ d.message ++ hints

end Diagnostic

------------------------------------------------------------
-- Failures
------------------------------------------------------------

/-
  A failure: a diagnostic, or a message with the failures that
  it wraps.
-/
inductive Failure where
  | diagnostic (d : Diagnostic)
  | other (message : Bytes) (wrapped : List Failure)
deriving Repr

namespace Failure

mutual

/- The first diagnostic in a failure, from the outside in. -/
def diagnostic? : Failure → Option Diagnostic
  | .diagnostic d => some d
  | .other _ wrapped => firstDiagnostic? wrapped

/- The first diagnostic in a list of failures. -/
def firstDiagnostic? : List Failure → Option Diagnostic
  | [] => none
  | f :: rest =>
      match diagnostic? f with
      | some d => some d
      | none => firstDiagnostic? rest

end

/- The wording of a failure. -/
def message : Failure → Bytes
  | .diagnostic d => d.text
  | .other message _ => message

/- What is reported of a failure: its diagnostic or its wording. -/
def cause
    (f : Failure) : Diagnostic ⊕ Bytes :=
  match f.diagnostic? with
  | some d => .inl d
  | none => .inr f.message

end Failure

------------------------------------------------------------
-- Collections
------------------------------------------------------------

/- The diagnostics of a run, by severity. -/
structure Diagnostics where
  errors : List Diagnostic := []
  warnings : List Diagnostic := []
  infos : List Diagnostic := []
deriving DecidableEq, Repr

namespace Diagnostics

/- File a diagnostic under its severity. -/
def add
    (ds : Diagnostics)
    (d : Diagnostic) : Diagnostics :=
  match d.severity with
  | .error => { ds with errors := ds.errors ++ [d] }
  | .warning => { ds with warnings := ds.warnings ++ [d] }
  | _ => { ds with infos := ds.infos ++ [d] }

/-
  File a failure: a diagnostic as it is, any other message as
  an error without a code.
-/
def addError
    (ds : Diagnostics) : Diagnostic ⊕ Bytes → Diagnostics
  | .inl d => ds.add d
  | .inr message => ds.add { severity := .error, code := [], message }

/- File everything of another collection. -/
def merge
    (ds other : Diagnostics) : Diagnostics :=
  { errors := ds.errors ++ other.errors
    warnings := ds.warnings ++ other.warnings
    infos := ds.infos ++ other.infos }

/- Is there an error? -/
def hasErrors
    (ds : Diagnostics) : Bool :=
  !ds.errors.isEmpty

/- Every diagnostic, errors first. -/
def all
    (ds : Diagnostics) : List Diagnostic :=
  ds.errors ++ ds.warnings ++ ds.infos

/- The text of all errors, if there is one. -/
def errorText?
    (ds : Diagnostics) : Option Bytes :=
  if ds.hasErrors then
    some (Bytes.join [0x0a] (ds.errors.map Diagnostic.text))
  else
    none

end Diagnostics

end Namesake
