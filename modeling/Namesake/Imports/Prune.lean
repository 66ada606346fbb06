import Namesake.Imports.Basic
import Namesake.Imports.References
import Namesake.Path
import Namesake.Text.Letter

/-
  This file defines which imports of a file are not used, and
  how they are taken out of it.

  Key definitions include:
    * `Imports.assumedName`
    * `Imports.unused`
    * `Imports.remove`
    * `Imports.prune`
-/

namespace Namesake

namespace Imports

open Source (CommentGroup GenDecl Spec TopDecl Tree Lines)

------------------------------------------------------------
-- Names of Packages
------------------------------------------------------------

/- Is this a whole number, as in the last part of a path? -/
def isNumber
    (s : Bytes) : Bool :=
  let digits := (List.isPrefixOf? [0x2d] s).getD
    ((List.isPrefixOf? [0x2b] s).getD s)
  !digits.isEmpty && digits.all (fun b => 0x30 ≤ b && b ≤ 0x39) &&
    digits.length ≤ 19

/- May a character be part of the name of a package? -/
def isNameGlyph
    (g : Glyph) : Bool :=
  isLetter g.code || isDigit g.code || g.code == 0x5f

/-
  The name of a package that a path stands for: its last part,
  or the one before it if that is a version, up to the first
  character that no name has.
-/
def assumedName
    (path : Bytes) : Bytes :=
  let base := Path.base path
  let base :=
    match base with
    | 0x76 :: version =>
        let dir := Path.dir path
        if isNumber version && dir != [0x2e] then Path.base dir else base
    | _ => base
  let base : Bytes := ((utf8 "go-").isPrefixOf? base).getD base
  (base.glyphs.takeWhile isNameGlyph).flatMap Glyph.bytes

/- The name that an item introduces. -/
def identifierOf
    (s : Spec) : Bytes :=
  let name := nameOf s
  if name.isEmpty then assumedName (pathOf s) else name

/- Is an item kept whether it is used or not? -/
def isKept
    (s : Spec) : Bool :=
  pathOf s == utf8 "C" || nameOf s == utf8 "_" || nameOf s == utf8 "."

------------------------------------------------------------
-- Unused Imports
------------------------------------------------------------

/- The import items of some declarations. -/
def items
    (decls : List TopDecl) : List Spec :=
  decls.flatMap fun
    | .gen g => if g.keyword == .kwImport then g.specs else []
    | _ => []

/- An item by its path and its name. -/
structure Item where
  path : Bytes
  name : Bytes
deriving DecidableEq, Repr

/- The order of items. -/
def Item.le
    (a b : Item) : Bool :=
  if a.path ≠ b.path then Bytes.le a.path b.path
  else Bytes.le a.name b.name

/- The items that nothing in a tree uses. -/
def unused
    (tree : Tree) : List Item :=
  let used := references tree
  let idle := (items tree.decls).filter fun s =>
    !isKept s && !used.contains (identifierOf s)
  (idle.map fun s => (⟨pathOf s, nameOf s⟩ : Item)).mergeSort Item.le

------------------------------------------------------------
-- Removing Items
------------------------------------------------------------

/- Is a group of comments in front of an item on its line? -/
def isBeside
    (d : Draft)
    (s : Spec)
    (g : CommentGroup) : Bool :=
  g.stop < s.pos && d.lineOf g.stop == d.lineOf s.pos

/- The comments that go with an item. -/
def ownComments
    (d : Draft)
    (s : Spec) : List CommentGroup :=
  s.doc.toList ++ s.comment.toList ++
    (d.comments.find? (isBeside d s)).toList

/- Take groups of comments out of a draft. -/
def dropComments
    (d : Draft)
    (gone : List CommentGroup) : Draft :=
  { d with
    comments := d.comments.filter fun g =>
      !gone.any fun h => h.pos == g.pos }

/- Join lines until an offset is on the line below another one. -/
def pullUp
    (d : Draft)
    (top offset : Nat) : (fuel : Nat) → Draft
  | 0 => d
  | fuel + 1 =>
      if d.lineOf top + 1 < d.lineOf offset then
        pullUp (d.mergeLine (d.lineOf top)) top offset fuel
      else
        d

/- Move what is left of a declaration up to its keyword. -/
def pullOnly
    (d : Draft)
    (g : GenDecl)
    (only : Spec) : Draft :=
  let d :=
    match only.doc with
    | some doc => pullUp d g.pos doc.pos d.lineCount
    | none => d
  if d.comments.any (isBeside d only) then
    pullUp d g.pos only.pos d.lineCount
  else
    d

/- Close the line that an item left open. -/
def closeHole
    (d : Draft)
    (g : GenDecl)
    (before s : Spec) : Draft :=
  let line := d.lineOf s.pos
  if line - d.lineOf before.pos > 1 || g.rparen.isNone then d
  else if line ≠ d.lineCount then d.mergeLine line
  else d

/-
  Take an item out of the items of a declaration: `before` are
  the items in front of it, in reverse.
-/
def removeFrom
    (item : Item)
    (g : GenDecl)
    (d : Draft)
    (before : List Spec) : List Spec → Draft × List Spec
  | [] => (d, before.reverse)
  | s :: rest =>
      if pathOf s == item.path && nameOf s == item.name then
        let d :=
          match before.reverse ++ rest with
          | [only] => pullOnly (dropComments d (ownComments d s)) g only
          | _ => d
        let d :=
          match before with
          | b :: _ => closeHole d g b s
          | [] => d
        removeFrom item g d before rest
      else
        removeFrom item g d (s :: before) rest

/- Take an item out of declarations; empty ones are dropped. -/
def removeDecls
    (item : Item)
    (d : Draft) : List TopDecl → Draft × List TopDecl
  | [] => (d, [])
  | decl :: rest =>
      match decl with
      | .gen g =>
          if g.keyword == .kwImport then
            let (d, specs) := removeFrom item g d [] g.specs
            let gone := specs.isEmpty && !g.specs.isEmpty
            let (d, rest) := removeDecls item d rest
            (d, if gone then rest
              else .gen { g with specs := specs } :: rest)
          else
            let (d, rest) := removeDecls item d rest
            (d, decl :: rest)
      | decl =>
          let (d, rest) := removeDecls item d rest
          (d, decl :: rest)

/- Take an item out of a draft. -/
def remove
    (d : Draft)
    (item : Item) : Draft :=
  let (d, decls) := removeDecls item d d.decls
  { d with decls := decls }

/- Take the imports that are not used out of a tree. -/
def prune
    (lines : Lines)
    (tree : Tree) : Draft :=
  (unused tree).foldl remove (Draft.ofTree lines tree)

end Imports

end Namesake
