import Namesake.Text.Bytes

/-
  This file defines places in source files as messages show
  them.

  Key definitions include:
    * `Position`
    * `Position.isValid`
    * `Position.shift`
    * `Position.text`
    * `Span`
    * `Span.text`
-/

namespace Namesake

------------------------------------------------------------
-- Positions
------------------------------------------------------------

/-
  A place in a source file.  Lines and columns count from
  one; a column of zero is unknown, and so is a position
  whose line is not positive.
-/
structure Position where
  file : Bytes := []
  offset : Int := 0
  line : Int := 0
  column : Int := 0
deriving DecidableEq, Repr, Inhabited

namespace Position

/- Does the position point into a file? -/
def isValid
    (p : Position) : Bool :=
  p.line > 0

/- Move a known position along its line. -/
def shift
    (p : Position)
    (n : Int) : Position :=
  if p.isValid then
    { p with offset := p.offset + n, column := p.column + n }
  else
    p

/- The position as messages show it. -/
def text
    (p : Position) : Bytes :=
  let place :=
    if p.isValid then
      (if p.file.isEmpty then [] else [0x3a]) ++ Bytes.ofInt p.line ++
        (if p.column = 0 then [] else [0x3a] ++ Bytes.ofInt p.column)
    else
      []
  let s := p.file ++ place
  if s.isEmpty then [0x2d] else s

end Position

------------------------------------------------------------
-- Spans
------------------------------------------------------------

/- A range of a source file; the default span is unknown. -/
structure Span where
  start : Position := {}
  stop : Position := {}
deriving DecidableEq, Repr, Inhabited

namespace Span

/- Does the span point into a file? -/
def isValid
    (s : Span) : Bool :=
  s.start.isValid

/- A span is shown by its start. -/
def text
    (s : Span) : Bytes :=
  s.start.text

end Span

end Namesake
