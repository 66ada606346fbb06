import Namesake.Source.Lines
import Namesake.Source.Tree
import Namesake.Text.Quoted

/-
  This file defines what import declarations say, and edits of
  a tree together with its lines.

  Key definitions include:
    * `Imports.pathOf`
    * `Imports.nameOf`
    * `Imports.Draft`
    * `Imports.Draft.mergeLine`
    * `Imports.runs`
-/

namespace Namesake

namespace Imports

open Source (CommentGroup GenDecl Spec TopDecl Tree Lines)

------------------------------------------------------------
-- Items
------------------------------------------------------------

/- The path that an item imports; empty if it has none. -/
def pathOf : Spec → Bytes
  | .imported _ _ path _ => (Quoted.decode? path.value).getD []
  | _ => []

/- The name under which an item imports; empty if it has none. -/
def nameOf : Spec → Bytes
  | .imported _ (some id) _ _ => id.name
  | _ => []

/- The text of the comment behind an item. -/
def commentOf
    (s : Spec) : Bytes :=
  (s.comment.getD []).flatMap Source.Comment.text

/- Put an item between two offsets. -/
def place
    (pos stop : Nat) : Spec → Spec
  | .imported doc name path comment =>
      .imported doc (name.map fun id => { id with pos })
        { path with pos, stop } comment
  | s => s

/- Can an item go because the next one says the same? -/
def collapses
    (s next : Spec) : Bool :=
  pathOf s == pathOf next && nameOf s == nameOf next && s.comment.isNone

------------------------------------------------------------
-- Drafts
------------------------------------------------------------

/- A tree that is being edited: its lines, comments and declarations. -/
structure Draft where
  lines : Lines
  comments : List CommentGroup
  decls : List TopDecl

namespace Draft

/- The draft of a tree. -/
def ofTree
    (lines : Lines)
    (tree : Tree) : Draft :=
  ⟨lines, tree.comments, tree.decls⟩

/- Put an edited draft into its tree. -/
def toTree
    (d : Draft)
    (tree : Tree) : Tree :=
  { tree with comments := d.comments, decls := d.decls }

/- Join a line with the line below it, if there is one. -/
def mergeLine
    (d : Draft)
    (line : Nat) : Draft :=
  { d with
    lines := { d.lines with starts := d.lines.starts.eraseIdx line } }

/- The line of an offset. -/
def lineOf
    (d : Draft)
    (offset : Nat) : Nat :=
  d.lines.lineOf offset

/- The number of lines. -/
def lineCount
    (d : Draft) : Nat :=
  d.lines.starts.length

end Draft

------------------------------------------------------------
-- Runs
------------------------------------------------------------

/-
  Split items into runs; a new run starts where a line is left
  empty in front of an item.
-/
def runs
    (lines : Lines)
    (specs : List Spec) : List (List Spec) :=
  specs.splitBy fun a b =>
    decide (lines.lineOf b.pos ≤ lines.lineOf a.stop + 1)

/- The index of the last of some offsets that is not behind another. -/
def lastStart
    (index : Nat)
    (starts : List Nat)
    (offset : Nat) : Nat :=
  let n := (starts.takeWhile (· ≤ offset)).length
  max index (n - 1)

/- The order of items by path, name and comment. -/
def specLe
    (a b : Spec) : Bool :=
  if pathOf a ≠ pathOf b then Bytes.le (pathOf a) (pathOf b)
  else if nameOf a ≠ nameOf b then Bytes.le (nameOf a) (nameOf b)
  else Bytes.le (commentOf a) (commentOf b)

/- Put all comments of a group at an offset. -/
def moveGroup
    (pos : Nat)
    (g : CommentGroup) : CommentGroup :=
  g.map fun c => { c with pos }

/- The order of groups of comments. -/
def groupLe
    (a b : CommentGroup) : Bool :=
  a.pos ≤ b.pos

end Imports

end Namesake
