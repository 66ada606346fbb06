import Namesake.Layout.BuildLines
import Namesake.Layout.Statements

/-
  This file defines the layout of functions and of whole files.

  Key definitions include:
    * `Layout.funcDecl`
    * `Layout.declList`
    * `Layout.file`
    * `Layout.print`
-/

namespace Namesake

namespace Layout

open Source (FuncDecl TopDecl Tree)

------------------------------------------------------------
-- Declarations
------------------------------------------------------------

/- A function or method. -/
def funcDecl
    (g : Nodes)
    (d : FuncDecl) : Printer Unit := do
  let start := (TopDecl.func d).pos
  moveTo start
  token .kwFunc
  blank
  let column := (← get).outColumn - 5
  if let some recv := d.recv then
    parameters g recv .func
    blank
  ident d.name
  signature g d.type
  if let some body := d.body then
    g.body (← distanceFrom start column) .vtab body

/- A declaration. -/
def decl
    (g : Nodes)
    (d : TopDecl) : Printer Unit := do
  match d with
  | .bad p _ =>
      moveTo p
      literal .string (utf8 "BadDecl")
  | .gen d => genDecl g d
  | .func d => funcDecl g d

/- The keyword of a declaration. -/
def keyword : TopDecl → TokenKind
  | .bad _ _ => .illegal
  | .gen d => d.keyword
  | .func _ => .kwFunc

/-
  Declarations.  A blank line is put between declarations of
  different kinds and in front of documented ones.
-/
def declList
    (g : Nodes) : (previous : TokenKind) → List TopDecl → Printer Unit
  | _, [] => return ()
  | previous, d :: ds => do
      let kind := keyword d
      let least := if previous != kind || d.doc.isSome then 2 else 1
      let tall := (← lineOf d.stop) > (← lineOf d.pos)
      let _ ← linebreak (← lineOf d.pos) least .ignore
        (kind == .kwFunc && tall)
      decl g d
      declList g kind ds

/- A file. -/
def file
    (tree : Tree) : Printer Unit := do
  let g := nodes (2 * tree.size + 16)
  moveTo tree.package
  token .kwPackage
  blank
  ident tree.name
  declList g .illegal tree.decls
  space .newline

------------------------------------------------------------
-- Printing
------------------------------------------------------------

/- The text of a tree in its standard layout. -/
def print
    (lines : Source.Lines)
    (tree : Tree) : Bytes :=
  let run : Printer Unit := do
    file tree
    modify fun s => { s with impliedSemi := false }
    let _ ← flush .far .eof
  let (_, s) := run { lines := lines, comments := tree.comments }
  let output := s.output.reverse.flatten
  Columns.trim
    (Columns.align (BuildLines.arrange output s.goBuild s.plusBuild))

end Layout

end Namesake
