import Namesake.Imports.Basic

/-
  This file defines the standard order of import declarations:
  items on lines that follow each other are sorted by path, and
  an item that is there twice is dropped.

  Key definitions include:
    * `Imports.sortRun`
    * `Imports.sortDecl`
    * `Imports.sort`
-/

namespace Namesake

namespace Imports

open Source (CommentGroup GenDecl Spec TopDecl Tree Lines)

------------------------------------------------------------
-- Comments of Items
------------------------------------------------------------

/- An item with its number and the comments that move with it. -/
structure Numbered where
  index : Nat
  spec : Spec

/- A group of comments with the number of its item and its side. -/
structure Attached where
  index : Nat
  left : Bool
  group : CommentGroup

/- Attach groups of comments to the items on their lines. -/
def attach
    (d : Draft)
    (starts : List Nat) : (index : Nat) → List CommentGroup → List Attached
  | _, [] => []
  | index, g :: gs =>
      let index := lastStart index starts g.pos
      let start := starts[index]?.getD 0
      let above :=
        index + 1 < starts.length &&
          d.lineOf start + 1 == d.lineOf g.pos
      if index = 0 && start > g.pos then
        ⟨index, true, g⟩ :: attach d starts index gs
      else if above then
        ⟨index + 1, true, g⟩ :: attach d starts (index + 1) gs
      else
        ⟨index, false, g⟩ :: attach d starts index gs

/- The offset behind the line of an offset, or the offset itself. -/
def behindLine
    (d : Draft)
    (offset : Nat) : Nat :=
  d.lines.starts[d.lineOf offset]?.getD offset

/- The offset of the start of the line of an offset. -/
def lineStart
    (d : Draft)
    (offset : Nat) : Nat :=
  d.lines.starts[d.lineOf offset - 1]?.getD 0

------------------------------------------------------------
-- Runs
------------------------------------------------------------

/- Drop the items that the next one repeats. -/
def dedupe
    (d : Draft) : List Numbered → Draft × List Numbered
  | s :: t :: rest =>
      if collapses s.spec t.spec then
        dedupe (d.mergeLine (d.lineOf s.spec.pos)) (t :: rest)
      else
        let (d, out) := dedupe d (t :: rest)
        (d, s :: out)
  | rest => (d, rest)

/- The comments of an item that moves between two offsets. -/
def moveAttached
    (attached : List Attached)
    (item : Numbered)
    (pos stop : Nat) : List Attached :=
  attached.map fun a =>
    if a.index = item.index then
      { a with group := moveGroup (if a.left then pos - 1 else stop) a.group }
    else
      a

/- Sort the items of a run. -/
def sortRun
    (d : Draft)
    (specs : List Spec) : Draft × List Spec :=
  match specs, specs.getLast? with
  | first :: _ :: _, some last =>
      let spans := specs.map fun s => (s.pos, s.stop)
      let start := lineStart d first.pos
      let stop := behindLine d last.stop
      let inside := fun (g : CommentGroup) =>
        decide (start ≤ g.pos) && decide (g.stop < stop)
      let attached :=
        attach d (spans.map Prod.fst) 0 (d.comments.filter inside)
      let numbered := specs.mapIdx fun i s => (⟨i, s⟩ : Numbered)
      let sorted := numbered.mergeSort fun a b => specLe a.spec b.spec
      let (d', kept) := dedupe d sorted
      let placed := kept.zip spans
      let attached := placed.foldl
        (fun as p => moveAttached as p.1 p.2.1 p.2.2) attached
      let moved := (attached.map Attached.group).mergeSort groupLe
      let before := d.comments.filter fun g =>
        !inside g && decide (g.pos < start)
      let after := d.comments.filter fun g =>
        !inside g && decide (start ≤ g.pos)
      ({ d' with comments := before ++ moved ++ after },
        placed.map fun p => place p.2.1 p.2.2 p.1.spec)
  | _, _ => (d, specs)

/- Sort runs of items. -/
def sortRuns
    (d : Draft) : List (List Spec) → Draft × List Spec
  | [] => (d, [])
  | run :: rest =>
      let (d, specs) := sortRun d run
      let (d, more) := sortRuns d rest
      (d, specs ++ more)

------------------------------------------------------------
-- Declarations
------------------------------------------------------------

/- Join the empty lines in front of a closing parenthesis. -/
def closeGap
    (line : Nat)
    (d : Draft) : (fuel paren : Nat) → Draft
  | 0, _ => d
  | fuel + 1, paren =>
      if paren > line + 1 then
        closeGap line (d.mergeLine (paren - 1)) fuel (paren - 1)
      else
        d

/- Sort the items of an import declaration. -/
def sortDecl
    (d : Draft)
    (g : GenDecl) : Draft × GenDecl :=
  if g.lparen.isNone then
    (d, g)
  else
    let (d, specs) := sortRuns d (runs d.lines g.specs)
    let d :=
      match specs.getLast?, g.rparen with
      | some last, some rparen =>
          let paren := d.lineOf rparen
          closeGap (d.lineOf last.pos) d paren paren
      | _, _ => d
    (d, { g with specs := specs })

/- Sort the imports at the top of a list of declarations. -/
def sortDecls
    (d : Draft) : List TopDecl → Draft × List TopDecl
  | [] => (d, [])
  | decl :: rest =>
      match decl with
      | .gen g =>
          if g.keyword == .kwImport then
            let (d, g) := sortDecl d g
            let (d, rest) := sortDecls d rest
            (d, .gen g :: rest)
          else
            (d, decl :: rest)
      | decl => (d, decl :: rest)

/- Sort the imports of a tree. -/
def sort
    (lines : Lines)
    (tree : Tree) : Lines × Tree :=
  let d := Draft.ofTree lines tree
  let (d, decls) := sortDecls d tree.decls
  (d.lines, { d with decls := decls }.toTree tree)

end Imports

end Namesake
