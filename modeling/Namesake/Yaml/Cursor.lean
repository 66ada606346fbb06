import Namesake.Yaml.Error
import Namesake.Yaml.Token

/-
  This file defines a place in a YAML text together with the
  text behind it.

  Key definitions include:
    * `Yaml.Cursor`
    * `Yaml.Cursor.advance`
    * `Yaml.Cursor.skip`
    * `Yaml.Cursor.takeBreak`
    * `Yaml.Cursor.fail`
-/

namespace Namesake

namespace Yaml

/- The rest of a text and its place. -/
structure Cursor where
  rest : List Char
  mark : Mark := {}
deriving Repr

namespace Cursor

------------------------------------------------------------
-- Moves
------------------------------------------------------------

/- Step over characters that end no line. -/
def advance
    (c : Cursor)
    (count : Nat) : Cursor :=
  { rest := c.rest.drop count
    mark :=
      { c.mark with
        index := c.mark.index + count
        column := c.mark.column + count } }

/- Step over one character. -/
def skip
    (c : Cursor) : Cursor :=
  c.advance 1

/- The start of the next line. -/
def nextLine
    (c : Cursor)
    (width : Nat)
    (rest : List Char) : Cursor :=
  { rest := rest
    mark :=
      { index := c.mark.index + width
        line := c.mark.line + 1
        column := 0 } }

/-
  Step over a line end.  The first result is what stands for
  it in a value: a line feed, or a separator of its own kind.
-/
def takeBreak
    (c : Cursor) : List Char × Cursor :=
  match c.rest with
  | '\r' :: '\n' :: rest => (['\n'], c.nextLine 2 rest)
  | x :: rest =>
      if x == '\u2028' || x == '\u2029' then
        ([x], c.nextLine 1 rest)
      else if isBreak x then
        (['\n'], c.nextLine 1 rest)
      else
        ([], c)
  | [] => ([], c)

/- Step over a line end. -/
def skipBreak
    (c : Cursor) : Cursor :=
  c.takeBreak.2

/- Step over characters on one line. -/
def skipWhile
    (c : Cursor)
    (p : Char → Bool) : Cursor :=
  c.advance (c.rest.takeWhile p).length

/- Step over spaces and tabs. -/
def skipBlanks
    (c : Cursor) : Cursor :=
  c.skipWhile isBlank

/- Step to the end of the line. -/
def skipLine
    (c : Cursor) : Cursor :=
  c.skipWhile fun x => !isBreak x

------------------------------------------------------------
-- Tests
------------------------------------------------------------

/- Is this the character at the cursor? -/
def at?
    (c : Cursor)
    (x : Char) : Bool :=
  c.rest.head? == some x

/- Is the end of the text reached? -/
def atEnd
    (c : Cursor) : Bool :=
  c.rest.isEmpty

/- Does the line start with three given characters alone? -/
def atIndicator
    (c : Cursor)
    (x : Char) : Bool :=
  c.mark.column = 0 && c.rest.take 3 == [x, x, x] &&
    endsWord (c.rest.drop 3)

/- Does the line start or end a document? -/
def atDocument
    (c : Cursor) : Bool :=
  c.atIndicator '-' || c.atIndicator '.'

/-
  Fail at the cursor.  The line that is shown is the one where
  the part started, unless that is the first line.
-/
def fail
    {α : Type}
    (c : Cursor)
    (start : Mark)
    (problem : Problem) : Except Error α :=
  let line := if start.line ≠ 0 then start.line else c.mark.line
  .error ⟨problem, if line ≠ 0 then line + 1 else 0⟩

end Cursor

end Yaml

end Namesake
