import Namesake.Imports.Sort
import Namesake.Layout.File
import Namesake.Source.Parser.File

/-
  This file defines the standard form of a source text.

  Key definitions include:
    * `Layout.parse`
    * `Layout.relaxed`
    * `Layout.format`
-/

namespace Namesake

namespace Layout

/-
  Parse a text; errors are given as text with their positions.
  The name counts only for them.
-/
def parse
    (name src : Bytes) : Except Bytes (Source.Lines × Source.Tree) :=
  let p := Source.parse name src
  match p.tree, p.errors with
  | some tree, [] => .ok (p.lines.bare, tree)
  | _, errors => .error (Source.errorText errors)

/- The standard form of a tree, with its imports sorted. -/
def printSorted
    (lines : Source.Lines)
    (tree : Source.Tree) : Bytes :=
  let (lines, tree) := Imports.sort lines tree
  print lines tree

/- The standard form of a text. -/
def format
    (src : Bytes) : Except Bytes Bytes :=
  match parse [] src with
  | .ok (lines, tree) => .ok (printSorted lines tree)
  | .error e => .error e

/- Has a tree import declarations with parentheses? -/
def hasGroups
    (tree : Source.Tree) : Bool :=
  tree.decls.any fun
    | .gen g => g.keyword == .kwImport && g.lparen.isSome
    | _ => false

/-
  The layout of a text whose comments may hold characters that
  no source may have.  Imports in groups are sorted, for which
  the laid out text has to be readable.
-/
def relaxed
    (src : Bytes) : Except Bytes Bytes :=
  let p := Source.parseUnchecked [] src
  match p.tree with
  | none => .error (Source.errorText p.errors)
  | some tree =>
      let text := print p.lines tree
      if hasGroups tree then
        match parse [] text with
        | .ok (lines, tree) => .ok (printSorted lines tree)
        | .error e =>
            .error
              (utf8 "format.Node internal error (" ++ e ++ utf8 ")")
      else
        .ok text

end Layout

end Namesake
