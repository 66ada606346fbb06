import Namesake.Path
import Namesake.Position
import Namesake.Scanner.Basic

/-
  This file defines the lines of a source file: which line an
  offset is on, and the position that messages show for it,
  which line marks may change.

  Key definitions include:
    * `Source.Lines`
    * `Source.Lines.ofText`
    * `Source.Lines.lineOf`
    * `Source.Lines.position`
-/

namespace Namesake

namespace Source

------------------------------------------------------------
-- Lines
------------------------------------------------------------

/- A mark with the name of the file it stands for. -/
structure NamedMark where
  offset : Nat
  file : Bytes
  line : Int
  column : Int
deriving Repr

/-
  The lines of a file: its name, the offsets at which lines
  start, first one first, and the marks, last one first.
-/
structure Lines where
  name : Bytes
  size : Nat
  starts : List Nat
  marks : List NamedMark
deriving Repr

namespace Lines

/- The lines alone, without a name and without marks. -/
def bare
    (f : Lines) : Lines :=
  { f with name := [], marks := [] }

/-
  The offsets behind the line ends of a text.  A line end that
  is the last byte starts no line.
-/
def startsFrom
    (offset : Nat) : Bytes → List Nat
  | [] => []
  | [_] => []
  | b :: s =>
      if b = 0x0a then
        (offset + 1) :: startsFrom (offset + 1) s
      else
        startsFrom (offset + 1) s

/- The index of the line of an offset and the start of that line. -/
def locate
    (starts : List Nat)
    (offset : Nat) : Nat × Nat :=
  let before := starts.takeWhile (· ≤ offset)
  (before.length, before.getLast?.getD 0)

/- The line of an offset, counted from one. -/
def lineOf
    (f : Lines)
    (offset : Nat) : Nat :=
  (locate f.starts offset).1

/- The column of an offset, counted from one. -/
def columnOf
    (f : Lines)
    (offset : Nat) : Nat :=
  offset - (locate f.starts offset).2 + 1

/-
  The position of an offset.  The last mark before it gives
  the file and the line; its column counts only on its line.
-/
def position
    (f : Lines)
    (offset : Nat) : Position :=
  let line := f.lineOf offset
  let column := f.columnOf offset
  match f.marks.find? (·.offset ≤ offset) with
  | none => ⟨f.name, offset, line, column⟩
  | some m =>
      let distance : Int := line - f.lineOf m.offset
      let shown : Int :=
        if m.column = 0 then 0
        else if distance = 0 then m.column + (Int.ofNat offset - m.offset)
        else column
      ⟨m.file, offset, m.line + distance, shown⟩

/-
  The file that a mark names.  A relative name counts from the
  directory of the marked file.
-/
def markedFile
    (f : Lines)
    (m : LineMark)
    (at₀ : Nat) : Bytes :=
  if m.name.isEmpty then
    if m.column = 0 then [] else (f.position at₀).file
  else
    let name := Path.clean m.name
    if Path.isAbsolute name then
      name
    else
      Path.join (Path.upToSlash f.name) name

/- Take a mark that stands in a comment at an offset. -/
def addMark
    (f : Lines)
    (at₀ : Nat)
    (m : LineMark) : Lines :=
  let fits :=
    m.offset < f.size &&
      match f.marks with
      | [] => true
      | last :: _ => last.offset < m.offset
  if fits then
    { f with
      marks := ⟨m.offset, f.markedFile m at₀, m.line, m.column⟩ :: f.marks }
  else
    f

/- Take the marks of the tokens of a file. -/
def addMarks
    (f : Lines)
    (tokens : List Scanner.Lexed) : Lines :=
  tokens.foldl
    (fun f t =>
      match t.mark with
      | some m => f.addMark (t.token.offset + 7) m
      | none => f)
    f

/- The lines of a text. -/
def ofText
    (name src : Bytes)
    (tokens : List Scanner.Lexed) : Lines :=
  addMarks
    { name := name
      size := src.length
      starts := 0 :: startsFrom 0 src
      marks := [] }
    tokens

end Lines

end Source

end Namesake
