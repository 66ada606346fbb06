import Namesake.Expand
import Namesake.Lint
import Namesake.Log
import Namesake.Settings.Basic
import Namesake.Source.File

/-
  This file defines the expansion of a source file: every
  declaration with a directive is expanded or reported.

  Key definitions include:
    * `Generate.Expansion`
    * `Generate.FileResult`
    * `Generate.expandSite`
    * `Generate.expandFile`
-/

namespace Namesake

namespace Generate

/- One expanded declaration. -/
structure Expansion where
  site : Source.Site
  aliases : List Alias
  result : Expand.Result

/- The outcome of expanding every site of a file. -/
structure FileResult where
  file : Source.File
  expansions : List Expansion
  diagnostics : Diagnostics

/- The diagnostics of an expansion that failed. -/
def reportError
    (diags : Diagnostics) : Expand.Error → Diagnostics
  | .rejected d => diags.addError (.inl d)
  | e => diags.addError (.inr e.message)

/- Expand one site; warnings are reported even if that fails. -/
def expandSite
    (s : Settings)
    (site : Source.Site) : Option Expansion × Diagnostics :=
  match site.directive.aliases with
  | .error d => (none, ({} : Diagnostics).addError (.inl d))
  | .ok aliases =>
      let warnings : Diagnostics :=
        (Lint.check s.lint aliases).foldl Diagnostics.add {}
      let request : Expand.Request :=
        { decl := site.item.decl
          aliases := aliases
          directive := some site.directive
          locate := site.item.locate }
      match Expand.expand request with
      | .error e => (none, reportError warnings e)
      | .ok result => (some ⟨site, aliases, result⟩, warnings)

/- Expand sites in order. -/
def expandSites
    (s : Settings) : List Source.Site → List Expansion × Diagnostics
  | [] => ([], {})
  | site :: sites =>
      let (expansion, diags) := expandSite s site
      let (expansions, rest) := expandSites s sites
      (expansion.toList ++ expansions, diags.merge rest)

/- Expand every declaration of a file that has a directive. -/
def expandFile
    (s : Settings)
    (file : Source.File) : FileResult :=
  let (sites, found) := file.sites s.directive
  let (expansions, diags) := expandSites s sites
  { file := file
    expansions := expansions
    diagnostics := found.merge diags }

------------------------------------------------------------
-- Logging
------------------------------------------------------------

/- What is logged about an expansion. -/
def Expansion.fields
    (e : Expansion) : List Log.Field :=
  [(utf8 "kind", .text e.result.kind.describe),
    (utf8 "name", .text e.result.name),
    (utf8 "aliases", .texts (e.aliases.map Alias.name))]

/- What is logged while a file is expanded. -/
def FileResult.log
    (shared : Log.Level)
    (r : FileResult) : Bytes :=
  let logger : Log.Logger :=
    { fields := [(utf8 "file", .text r.file.path)] }
  r.expansions.flatMap fun e =>
    logger.emit shared .debug (utf8 "expanded declaration") e.fields

end Generate

end Namesake
