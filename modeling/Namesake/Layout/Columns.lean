import Namesake.Text.Utf8

/-
  This file defines the alignment of text in columns.  Cells
  end with a tab; a column is made of the cells at one index
  in lines that follow each other, and is as wide as its
  widest cell.  A form feed ends a line and all columns.

  Text between two shields passes unchanged, tabs and line
  ends included.  The shield is a byte that no valid text has.

  Key definitions include:
    * `Columns.shield`
    * `Columns.sections`
    * `Columns.align`
    * `Columns.trim`
-/

namespace Namesake

namespace Columns

------------------------------------------------------------
-- Cells
------------------------------------------------------------

/- The byte on both sides of text that passes unchanged. -/
def shield : UInt8 :=
  0xff

/- A tab that keeps its column even if all cells are empty. -/
def hardTab : UInt8 :=
  0x09

/- A tab whose column vanishes if all cells are empty. -/
def softTab : UInt8 :=
  0x0b

/- The end of a line. -/
def lineFeed : UInt8 :=
  0x0a

/- The end of a line and of all columns. -/
def formFeed : UInt8 :=
  0x0c

/- The distance of the places to which tabs move. -/
def tabWidth : Nat :=
  8

/- A cell: its text, its width, and the tab that ended it. -/
structure Cell where
  text : Bytes
  width : Nat
  hard : Bool
deriving Repr

/- A line: the cells that a tab ended, and the text behind them. -/
structure Line where
  cells : List Cell
  rest : Bytes
deriving Repr

/- The width of a text: its characters, shields not counted. -/
def width
    (text : Bytes) : Nat :=
  (Bytes.glyphs (text.filter (· ≠ shield))).length

/- Make a cell of text that is given in reverse. -/
def cellOf
    (reversed : Bytes)
    (hard : Bool) : Cell :=
  let text := reversed.reverse
  ⟨text, width text, hard⟩

------------------------------------------------------------
-- Sections
------------------------------------------------------------

/- A state in splitting a text; everything is kept in reverse. -/
structure Splitting where
  shielded : Bool := false
  text : Bytes := []
  cells : List Cell := []
  lines : List Line := []
  sections : List (List Line) := []

namespace Splitting

/- End the current cell. -/
def endCell
    (s : Splitting)
    (hard : Bool) : Splitting :=
  { s with text := [], cells := cellOf s.text hard :: s.cells }

/- End the current line. -/
def endLine
    (s : Splitting) : Splitting :=
  { s with
    text := []
    cells := []
    lines := ⟨s.cells.reverse, s.text.reverse⟩ :: s.lines }

/- End the current section. -/
def endSection
    (s : Splitting) : Splitting :=
  { s with lines := [], sections := s.lines.reverse :: s.sections }

/- Take a byte. -/
def step
    (s : Splitting)
    (b : UInt8) : Splitting :=
  if b = shield then
    { s with shielded := !s.shielded, text := b :: s.text }
  else if s.shielded then
    { s with text := b :: s.text }
  else if b = hardTab then
    s.endCell true
  else if b = softTab then
    s.endCell false
  else if b = lineFeed then
    s.endLine
  else if b = formFeed then
    s.endLine.endSection
  else
    { s with text := b :: s.text }

end Splitting

/-
  The sections of a text, which form feeds separate, and the
  line behind the last line end.
-/
def sections
    (text : Bytes) : List (List Line) × Line :=
  let s := text.foldl Splitting.step {}
  (s.endSection.sections.reverse, ⟨s.cells.reverse, s.text.reverse⟩)

------------------------------------------------------------
-- Alignment
------------------------------------------------------------

/-
  The space that fills a cell up to the width of its column.
  In front of the first text of a line tabs are used.
-/
def padding
    (leading : Bool)
    (used wide : Nat) : Bytes :=
  if leading then
    let wide := (wide + tabWidth - 1) / tabWidth * tabWidth
    List.replicate ((wide - used + tabWidth - 1) / tabWidth) hardTab
  else
    List.replicate (wide - used) 0x20

/- The cells of a line, filled up to the widths of their columns. -/
def fillCells
    (leading : Bool) : (widths : List Nat) → List Cell → Bytes
  | _, [] => []
  | widths, c :: cells =>
      let leading := leading && c.text.isEmpty
      let space :=
        match widths with
        | w :: _ => padding leading c.width w
        | [] => []
      c.text ++ space ++ fillCells leading widths.tail cells

/- A line in columns of known widths. -/
def fillLine
    (widths : List Nat)
    (line : Line) : Bytes :=
  fillCells true widths line.cells ++ line.rest

/- The width of a column; an empty soft column vanishes. -/
def columnWidth
    (cells : List Cell) : Nat :=
  if cells.all fun c => c.width = 0 && !c.hard then
    0
  else
    cells.foldl (fun w c => max w (c.width + 1)) 0

/-
  Align lines in which the columns to the left have known
  widths.  Lines that have a cell in the next column and
  follow each other form that column.
-/
def alignFrom : (depth : Nat) → (widths : List Nat) → List Line → Bytes
  | 0, widths, lines =>
      lines.flatMap fun l => fillLine widths l ++ [lineFeed]
  | depth + 1, widths, lines =>
      let column := widths.length
      let has := fun (l : Line) => decide (column < l.cells.length)
      (lines.splitBy fun a b => has a == has b).flatMap fun block =>
        if block.any has then
          let wide := columnWidth (block.filterMap fun l => l.cells[column]?)
          alignFrom depth (widths ++ [wide]) block
        else
          block.flatMap fun l => fillLine widths l ++ [lineFeed]

/- Align the lines of a section. -/
def alignSection
    (lines : List Line) : Bytes :=
  let depth := lines.foldl (fun n l => max n l.cells.length) 0
  alignFrom depth [] lines

/- Align a text. -/
def align
    (text : Bytes) : Bytes :=
  let (parts, last) := sections text
  parts.flatMap alignSection ++ fillLine [] last

------------------------------------------------------------
-- Trimming
------------------------------------------------------------

/- Where a trimmed text is: in space, in text or between shields. -/
inductive Place where
  | space
  | text
  | shielded
deriving DecidableEq, Repr

/- A state in trimming; everything is kept in reverse. -/
structure Trimming where
  place : Place := .space
  space : Bytes := []
  output : Bytes := []

namespace Trimming

/- Take a byte. -/
def step
    (s : Trimming)
    (b : UInt8) : Trimming :=
  match s.place with
  | .shielded =>
      if b = shield then
        { s with place := .space }
      else
        { s with output := b :: s.output }
  | _ =>
      if b = hardTab || b = softTab || b = 0x20 then
        let c := if b = softTab then hardTab else b
        { s with place := .space, space := c :: s.space }
      else if b = lineFeed || b = formFeed then
        ⟨.space, [], lineFeed :: s.output⟩
      else if b = shield then
        ⟨.shielded, [], s.space ++ s.output⟩
      else
        ⟨.text, [], b :: (s.space ++ s.output)⟩

end Trimming

/- Drop shields and the space at the ends of lines. -/
def trim
    (text : Bytes) : Bytes :=
  (text.foldl Trimming.step {}).output.reverse

end Columns

end Namesake
