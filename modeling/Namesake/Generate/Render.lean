import Namesake.Generate.Expansion
import Namesake.Imports.Arrange
import Namesake.Layout.Format

/-
  This file defines the text that an expanded file is turned
  into: a companion with the duplicates alone, or the file
  itself with the duplicates behind their declarations.  The
  tool that tidies the imports of a companion is a parameter.

  Key definitions include:
    * `Generate.Output`
    * `Generate.RenderError`
    * `Generate.draft`
    * `Generate.companionDecls`
    * `Generate.inPlaceDecls`
    * `Generate.render`
-/

namespace Namesake

namespace Generate

------------------------------------------------------------
-- Outputs
------------------------------------------------------------

/- A file to be written. -/
structure Output where
  path : Bytes
  content : Bytes
deriving DecidableEq, Repr

/- Why an expanded file has no text. -/
inductive RenderError where
  | printing (path reason : Bytes)
  | formatting (unformatted : Output) (reason : Bytes)
deriving DecidableEq, Repr

namespace RenderError

/- The wording of an error. -/
def message : RenderError → Bytes
  | .printing path reason =>
      utf8 "printing " ++ path ++ utf8 ": " ++ reason
  | .formatting _ reason => utf8 "formatting code: " ++ reason

/- The text that could not be formatted. -/
def unformatted? : RenderError → Option Output
  | .printing _ _ => none
  | .formatting unformatted _ => some unformatted

end RenderError

------------------------------------------------------------
-- Drafts
------------------------------------------------------------

/- The line ends in front of a declaration. -/
def spaceText : Decl.Spacing → Bytes
  | .none => utf8 "\n"
  | .newLine => utf8 "\n"
  | .emptyLine => utf8 "\n\n"

/- A comment line in front of a declaration, with its end. -/
def startText
    (line : Bytes) : Bytes :=
  if line == utf8 "\n" then
    line
  else if line.startsWith (utf8 "/*") then
    line ++ utf8 " "
  else
    line ++ utf8 "\n"

/- A declaration with the space and the comments before it. -/
def declText
    (d : Decl) : Bytes :=
  spaceText d.before ++ d.start.flatMap startText ++ d.text

/-
  A text that starts with `head` and continues with the given
  declarations.  It has no carriage returns.
-/
def draft
    (head : Bytes)
    (decls : List Decl) : Bytes :=
  (head ++ decls.flatMap declText).filter (· ≠ 0x0d)

------------------------------------------------------------
-- Companions
------------------------------------------------------------

/- The line that starts every companion. -/
def generatedLine : Bytes :=
  utf8 "// Code generated by aliasgen. DO NOT EDIT."

/- Does a comment line say when the file is part of a build? -/
def isBuildLine
    (line : Bytes) : Bool :=
  line.startsWith (utf8 "//go:build ") ||
    line.startsWith (utf8 "// +build ")

/- The lines above the package clause of a companion. -/
def header
    (file : Source.File) : Bytes :=
  let constraints := file.header.filter isBuildLine
  let blank := utf8 "\n\n"
  generatedLine ++ blank ++
    if constraints.isEmpty then
      []
    else
      Bytes.join (utf8 "\n") constraints ++ blank

/- The duplicates of all expansions. -/
def clones
    (expansions : List Expansion) : List Decl :=
  expansions.flatMap fun e => e.result.clones

/- The declarations of a companion: imports, then duplicates. -/
def companionDecls
    (r : FileResult) : List Decl :=
  r.file.imports ++ clones r.expansions

/- The companion of an expanded file. -/
def renderCompanion
    [Imports.Tidier]
    (s : Settings)
    (r : FileResult) : Except RenderError Output :=
  let path := Settings.companionPath r.file.path s.suffix
  let head := utf8 "package " ++ r.file.package
  match Layout.relaxed (draft head (companionDecls r)) with
  | .error reason => .error (.printing path reason)
  | .ok body =>
      let text := header r.file ++ body
      match Imports.Tidier.tidy path text with
      | .error reason => .error (.formatting ⟨path, text⟩ reason)
      | .ok content => .ok ⟨path, content⟩

------------------------------------------------------------
-- Files in Place
------------------------------------------------------------

/- The expansion of the declaration at an index. -/
def expansionAt?
    (expansions : List Expansion)
    (index : Nat) : Option Expansion :=
  expansions.find? fun e => e.site.index == index

/-
  The declarations of a file from an index on, each with its
  duplicates behind it.
-/
def interleave
    (expansions : List Expansion)
    (index : Nat) : List Decl → List Decl
  | [] => []
  | d :: ds =>
      match expansionAt? expansions index with
      | some e =>
          e.result.decls ++ interleave expansions (index + 1) ds
      | none => d :: interleave expansions (index + 1) ds

/- The declarations of a file that is expanded in place. -/
def inPlaceDecls
    (r : FileResult) : List Decl :=
  interleave r.expansions 0 r.file.decls

/- The text of a file that is expanded in place. -/
def renderInPlace
    (r : FileResult) : Except RenderError Output :=
  let path := r.file.path
  match Layout.relaxed (draft r.file.preamble (inPlaceDecls r)) with
  | .error reason => .error (.printing path reason)
  | .ok text =>
      match Layout.format text with
      | .error reason => .error (.formatting ⟨path, text⟩ reason)
      | .ok content => .ok ⟨path, content⟩

/- The output of an expanded file. -/
def render
    [Imports.Tidier]
    (s : Settings)
    (r : FileResult) : Except RenderError Output :=
  if s.mode == Settings.inPlace then
    renderInPlace r
  else
    renderCompanion s r

end Generate

end Namesake
