import Namesake.Alias.Basic
import Namesake.Diagnostic
import Namesake.Text.Quoted
import Namesake.Version

/-
  This file defines warnings about lists of aliases.  No list
  is rejected for them.

  Key definitions include:
    * `Lint.Options`
    * `Lint.duplicate?`
    * `Lint.since?`
    * `Lint.check`
-/

namespace Namesake

namespace Lint

/- The checks to run. -/
structure Options where
  semverSince : Bool := true
  duplicateAliases : Bool := true
deriving DecidableEq, Repr

------------------------------------------------------------
-- Checks
------------------------------------------------------------

/- The warning about a name that occurred before. -/
def duplicate?
    (seen : List Bytes)
    (a : Alias) : Option Diagnostic :=
  if seen.contains a.name then
    some
      { severity := .warning
        code := Diagnostic.duplicateAlias
        message :=
          utf8 "alias " ++ a.name ++
            utf8 " is listed more than once; every occurrence is emitted"
        span := a.span }
  else
    none

/- The warning about a since text that is no version. -/
def since?
    (a : Alias) : Option Diagnostic :=
  match a.deprecation.bind Deprecation.since with
  | none => none
  | some since =>
      if Version.isVersion since then
        none
      else
        some
          { severity := .warning
            code := Diagnostic.sinceNotSemver
            message :=
              utf8 "since " ++ Quoted.encode since ++ utf8 " of alias " ++
                a.name ++ utf8 " is not a semantic version"
            span := a.span
            suggestions :=
              [utf8 "use a version such as \"1.2.0\" or \"v1.2.0\""] }

/- The warnings about one alias after those with the names `seen`. -/
def checkOne
    (options : Options)
    (seen : List Bytes)
    (a : Alias) : List Diagnostic :=
  (if options.duplicateAliases then (duplicate? seen a).toList else []) ++
    (if options.semverSince then (since? a).toList else [])

/- The warnings about the rest of a list. -/
def checkFrom
    (options : Options)
    (seen : List Bytes) : List Alias → List Diagnostic
  | [] => []
  | a :: rest =>
      checkOne options seen a ++ checkFrom options (a.name :: seen) rest

/- The warnings about a list of aliases. -/
def check
    (options : Options)
    (aliases : List Alias) : List Diagnostic :=
  checkFrom options [] aliases

end Lint

end Namesake
