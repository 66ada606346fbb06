import Namesake.Layout.Columns
import Namesake.Source.Lines
import Namesake.Source.Tree

/-
  This file defines the state of the layout of a source file
  and the moves that write to it.  Space is collected until
  the next token is written, so that comments in front of the
  token can be mixed with it.

  Key definitions include:
    * `Layout.Space`
    * `Layout.Place`
    * `Layout.State`
    * `Layout.writeByte`
    * `Layout.writeText`
    * `Layout.writeSpace`
-/

namespace Namesake

namespace Layout

------------------------------------------------------------
-- States
------------------------------------------------------------

/- Space in front of a token; `ignore` is space that was dropped. -/
inductive Space where
  | ignore
  | blank
  | vtab
  | newline
  | formfeed
  | indent
  | unindent
deriving DecidableEq, Repr

/- A place in the text that is laid out; line zero is no place. -/
structure Place where
  offset : Nat := 0
  line : Nat := 0
  column : Nat := 0
deriving DecidableEq, Repr

/- A number that no line, offset or size reaches. -/
def infinity : Nat :=
  1073741824

/- The sum of sizes. -/
def total
    (sizes : List Nat) : Nat :=
  sizes.foldl Nat.add 0

/- The place behind everything. -/
def Place.far : Place :=
  ⟨infinity, infinity, 0⟩

/-
  The state of a layout: the lines of the text, the comments
  not yet written, the space not yet written, where the layout
  stands in the text (`pos`), where the last written item ended
  in it (`last`), where the layout stands in its own output,
  the output so far in reverse, and the output offsets of the
  comments that are build constraints.
-/
structure State where
  lines : Source.Lines
  comments : List Source.CommentGroup
  spaces : List Space := []
  pos : Place := ⟨0, 1, 1⟩
  last : Place := {}
  outLine : Nat := 1
  outColumn : Nat := 1
  output : List Bytes := []
  size : Nat := 0
  indentation : Nat := 0
  level : Nat := 0
  noExtraBlank : Bool := false
  noExtraBreak : Bool := false
  endAlignment : Bool := false
  impliedSemi : Bool := false
  lastToken : TokenKind := .illegal
  opening : TokenKind := .illegal
  marks : List (Option Nat) := []
  goBuild : List Nat := []
  plusBuild : List Nat := []

/- A layout in progress. -/
abbrev Printer :=
  StateM State

------------------------------------------------------------
-- Places
------------------------------------------------------------

/- The place of an offset. -/
def placeOf
    (offset : Nat) : Printer Place := do
  let lines := (← get).lines
  return ⟨offset, lines.lineOf offset, lines.columnOf offset⟩

/- The line of an offset. -/
def lineOf
    (offset : Nat) : Printer Nat := do
  return (← get).lines.lineOf offset

/- The place of an offset that may be missing. -/
def placeOf? : Option Nat → Printer Place
  | some offset => placeOf offset
  | none => return {}

/- The next item stands at this offset. -/
def moveTo
    (offset : Nat) : Printer Unit := do
  let p ← placeOf offset
  modify fun s => { s with pos := p }

/- The next item stands at this offset, if it is known. -/
def moveTo? : Option Nat → Printer Unit
  | some offset => moveTo offset
  | none => return ()

------------------------------------------------------------
-- Writing
------------------------------------------------------------

/- Append to the output. -/
def emit
    (text : Bytes) : Printer Unit :=
  modify fun s =>
    { s with output := text :: s.output, size := s.size + text.length }

/- Indent the line if nothing is written on it. -/
def writeIndent : Printer Unit := do
  let s ← get
  if s.outColumn = 1 then
    let n := s.indentation
    emit (List.replicate n Columns.hardTab)
    modify fun s =>
      { s with
        pos :=
          ⟨s.pos.offset + n, s.pos.line, s.pos.column + n⟩
        outColumn := s.outColumn + n }

/-
  The byte that is written for space.  Behind text with a line
  end in it nothing is aligned up to the end of the line.
-/
def adjusted
    (free : Bool)
    (b : UInt8) : UInt8 :=
  if !free then b
  else if b = Columns.lineFeed then Columns.formFeed
  else if b = Columns.hardTab || b = Columns.softTab then 0x20
  else b

/- Is this a line end? -/
def isBreak
    (b : UInt8) : Bool :=
  b == Columns.lineFeed || b == Columns.formFeed

/- Write a byte of space, `n` times. -/
def writeByte
    (b : UInt8)
    (n : Nat) : Printer Unit := do
  let b := adjusted (← get).endAlignment b
  if isBreak b then
    modify fun s => { s with endAlignment := false }
  writeIndent
  emit (List.replicate n b)
  modify fun s =>
    if isBreak b then
      { s with
        pos := ⟨s.pos.offset + n, s.pos.line + n, 1⟩
        outLine := s.outLine + n
        outColumn := 1 }
    else
      { s with
        pos := ⟨s.pos.offset + n, s.pos.line, s.pos.column + n⟩
        outColumn := s.outColumn + n }

/- The number of bytes behind the last line end, plus one. -/
def lastColumn
    (text : Bytes) : Nat :=
  (text.reverse.takeWhile fun b => !isBreak b).length + 1

/-
  Write the text of a token, a literal or a comment that
  stands at a place; `shielded` text passes unchanged.
-/
def writeText
    (place : Place)
    (text : Bytes)
    (shielded : Bool) : Printer Unit := do
  writeIndent
  if place.line > 0 then
    modify fun s => { s with pos := place }
  if shielded then
    emit (Columns.shield :: text ++ [Columns.shield])
  else
    emit text
  let breaks := (text.filter isBreak).length
  let n := text.length
  modify fun s =>
    let s :=
      if breaks > 0 then
        let column := lastColumn text
        { s with
          pos := ⟨s.pos.offset + n, s.pos.line + breaks, column⟩
          outLine := s.outLine + breaks
          outColumn := column
          endAlignment := true }
      else
        { s with
          pos := ⟨s.pos.offset + n, s.pos.line, s.pos.column + n⟩
          outColumn := s.outColumn + n }
    { s with last := s.pos }

------------------------------------------------------------
-- Collected Space
------------------------------------------------------------

/-
  The order in which space is written: an unindent behind a
  line end counts for that line.
-/
def settle : List Space → List Space
  | .newline :: .unindent :: rest => .unindent :: settle (.formfeed :: rest)
  | .formfeed :: .unindent :: rest => .unindent :: settle (.formfeed :: rest)
  | w :: rest => w :: settle rest
  | [] => []
termination_by spaces => spaces.length

/- Write one piece of space. -/
def writeOne : Space → Printer Unit
  | .ignore => return ()
  | .indent =>
      modify fun s => { s with indentation := s.indentation + 1 }
  | .unindent =>
      modify fun s => { s with indentation := s.indentation - 1 }
  | .blank => writeByte 0x20 1
  | .vtab => writeByte Columns.softTab 1
  | .newline => writeByte Columns.lineFeed 1
  | .formfeed => writeByte Columns.formFeed 1

/- Write the first `n` pieces of the collected space. -/
def writeSpace
    (n : Nat) : Printer Unit := do
  let spaces := (← get).spaces
  (settle (spaces.take n)).forM writeOne
  modify fun s => { s with spaces := spaces.drop n }

/- Write all of the collected space. -/
def writeSpaces : Printer Unit := do
  writeSpace (← get).spaces.length

/- The largest number of line ends in a row. -/
def breakLimit : Nat :=
  2

end Layout

end Namesake
