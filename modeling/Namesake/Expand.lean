import Namesake.Decl.Kind
import Namesake.Directive
import Namesake.Marker

/-
  This file defines the expansion of a declaration: the
  declaration without its directive, followed by one renamed
  duplicate for each alias.

  Key definitions include:
    * `Expand.Request`
    * `Expand.Result`
    * `Expand.docComment`
    * `Expand.duplicate`
    * `Expand.expand`
-/

namespace Namesake

namespace Expand

------------------------------------------------------------
-- Requests and Results
------------------------------------------------------------

/- A declaration and the duplicates requested of it. -/
structure Request where
  decl : Decl
  aliases : List Alias
  directive : Option Directive := none
  locate : Decl.Locator := .unknown

/-
  An expanded declaration: its kind and name, the declaration
  without its directive, and the duplicates in alias order.
-/
structure Result where
  kind : Kind
  name : Bytes
  original : Decl
  clones : List Decl

/- All declarations of an expansion, in output order. -/
def Result.decls
    (r : Result) : List Decl :=
  r.original :: r.clones

/- Why a declaration cannot be expanded. -/
inductive Error where
  | noAliases
  | rejected (d : Diagnostic)
deriving DecidableEq, Repr

/- The wording of an error. -/
def Error.message : Error → Bytes
  | .noAliases => utf8 "alias list is empty"
  | .rejected d => d.text

------------------------------------------------------------
-- Expansion
------------------------------------------------------------

/- The comment lines behind the last blank line. -/
def docComment
    (start : List Bytes) : List Bytes :=
  (start.reverse.takeWhile (· ≠ [0x0a])).reverse

/- A declaration without the lines of a directive. -/
def clean
    (directive : Option Directive)
    (d : Decl) : Decl :=
  match directive with
  | none => d
  | some dir => d.withStart (dir.strip d.start)

/- The duplicate of a clean declaration for an alias. -/
def duplicate
    (original : Decl)
    (a : Alias) : Decl :=
  { original.rename a.name with
    start :=
      Deprecation.annotate a.deprecation (docComment original.start)
    before := .emptyLine }

/- Expand a declaration; either everything is produced or nothing. -/
def expand
    (r : Request) : Except Error Result :=
  if r.aliases.isEmpty then
    .error .noAliases
  else
    match r.decl.classify r.locate with
    | .error d => .error (.rejected d)
    | .ok kind =>
        let original := clean r.directive r.decl
        .ok
          { kind := kind
            name := r.decl.identifier
            original := original
            clones := r.aliases.map (duplicate original) }

end Expand

end Namesake
