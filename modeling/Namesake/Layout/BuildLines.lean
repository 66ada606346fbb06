import Namesake.Constraint
import Namesake.Layout.State

/-
  This file defines the place and form of build constraints in
  a layout: they are brought together above the package clause,
  and the two written forms are made to agree.

  Key definitions include:
    * `Layout.BuildLines.insertion`
    * `Layout.BuildLines.block`
    * `Layout.BuildLines.arrange`
-/

namespace Namesake

namespace Layout

namespace BuildLines

------------------------------------------------------------
-- Lines of the Output
------------------------------------------------------------

/- The line that starts at an offset, with its line end. -/
def lineAt
    (output : Bytes)
    (offset : Nat) : Bytes :=
  let rest := output.drop offset
  let line := rest.takeWhile fun b => !isBreak b
  line ++ (rest.drop line.length).take 1

/- The comment at an offset, without shields. -/
def commentAt
    (output : Bytes)
    (offset : Nat) : Bytes :=
  let rest := output.drop offset
  let rest := (List.isPrefixOf? [Columns.shield] rest).getD rest
  rest.takeWhile fun b => b != Columns.shield && !isBreak b

/-
  The offset behind the last blank line in front of the first
  line that is neither blank nor a line comment.
-/
def insertionFrom : (fuel offset found : Nat) → Bytes → Nat
  | 0, _, found, _ => found
  | fuel + 1, offset, found, s =>
      let margin := s.takeWhile fun b => b == 0x20 || b == 0x09
      let s := s.drop margin.length
      let isComment :=
        Bytes.startsWith s [Columns.shield, 0x2f, 0x2f] && s.length > 3
      let text :=
        if isComment then s.takeWhile fun b => !isBreak b else []
      match s.drop text.length with
      | b :: rest =>
          if isBreak b then
            let next := offset + margin.length + text.length + 1
            insertionFrom fuel next (if isComment then found else next) rest
          else
            found
      | [] => found

/- Where the constraints go if there is none further up. -/
def latest
    (output : Bytes) : Nat :=
  insertionFrom (output.length + 1) 0 0 output

/- Where the constraints go. -/
def insertion
    (output : Bytes)
    (goBuild plusBuild : List Nat) : Nat :=
  let last := latest output
  match goBuild, plusBuild with
  | a :: _, b :: _ => if a < last then a else if b < last then b else last
  | a :: _, [] => if a < last then a else last
  | [], b :: _ => if b < last then b else last
  | [], [] => last

------------------------------------------------------------
-- The Block of Constraints
------------------------------------------------------------

/- Join the conditions of lines in the old form. -/
def joinOld : List (Option Constraint) → Option Constraint
  | [] => none
  | cs =>
      match cs.mapM id with
      | some (x :: xs) => some (xs.foldl Constraint.and x)
      | _ => none

/- The condition that the constraints of an output stand for. -/
def condition?
    (output : Bytes)
    (goBuild plusBuild : List Nat) : Option Constraint :=
  let parse := fun (p : Nat) => Constraint.parse? (commentAt output p)
  match goBuild with
  | [] => joinOld (plusBuild.map parse)
  | [p] => parse p
  | _ => none

/- A line between shields. -/
def shieldLine
    (line : Bytes) : Bytes :=
  [Columns.shield] ++ line ++ [Columns.shield, Columns.lineFeed]

/- The constraints of an output, brought together. -/
def block
    (output : Bytes)
    (goBuild plusBuild : List Nat) : Bytes :=
  let lines :=
    match condition? output goBuild plusBuild with
    | none => (goBuild ++ plusBuild).flatMap (lineAt output)
    | some x =>
        shieldLine (utf8 "//go:build " ++ x.text) ++
          if plusBuild.isEmpty then []
          else x.plusLines.flatMap shieldLine
  lines ++ [Columns.lineFeed]

------------------------------------------------------------
-- Arranging
------------------------------------------------------------

/- Does a text end with a blank line? -/
def endsBlank
    (s : Bytes) : Bool :=
  match s.reverse with
  | a :: b :: _ => isBreak a && isBreak b
  | _ => false

/- Append lines, but no blank line behind a blank line. -/
def appendLines
    (x y : Bytes) : Bytes :=
  match y with
  | b :: rest =>
      if isBreak b && (x.isEmpty || endsBlank x) then x ++ rest
      else x ++ y
  | [] => x

/- What stands behind an offset, without the lines at other offsets. -/
def without
    (output after : Bytes)
    (start : Nat) : List Nat → Bytes
  | [] => appendLines after (output.drop start)
  | stop :: rest =>
      if stop < start then
        without output after start rest
      else
        without output
          (appendLines after ((output.drop start).take (stop - start)))
          (stop + (lineAt output stop).length) rest

/- Bring the build constraints of an output together. -/
def arrange
    (output : Bytes)
    (goBuild plusBuild : List Nat) : Bytes :=
  if goBuild.isEmpty && plusBuild.isEmpty then
    output
  else
    let start := insertion output goBuild plusBuild
    let gone := (goBuild ++ plusBuild).mergeSort
    let after := without output [] start gone
    let after := if endsBlank after then after.dropLast else after
    output.take start ++ block output goBuild plusBuild ++ after

end BuildLines

end Layout

end Namesake
