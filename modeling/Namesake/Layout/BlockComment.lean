import Namesake.Text.Bytes

/-
  This file defines how the lines of a block comment are moved
  to another indentation: the space that all lines share is
  taken off, so that new space can be put in front of them.

  Key definitions include:
    * `Layout.BlockComment.shared`
    * `Layout.BlockComment.margin`
    * `Layout.BlockComment.outdent`
-/

namespace Namesake

namespace Layout

namespace BlockComment

/- Is there nothing but space on a line? -/
def isBlank
    (line : Bytes) : Bool :=
  line.all (· ≤ 0x20)

/- The common beginning of two lines, of space and stars. -/
def commonMargin : Bytes → Bytes → Bytes
  | a :: s, b :: t =>
      if a = b && (a ≤ 0x20 || a = 0x2a) then
        a :: commonMargin s t
      else
        []
  | _, _ => []

/-
  The beginning that the lines between the first and the last
  share.  If all of them are blank the last line counts.
-/
def shared
    (inner : List Bytes)
    (last : Bytes) : Bytes :=
  match inner.filter fun l => !isBlank l with
  | [] => commonMargin last last
  | l :: ls => ls.foldl commonMargin (commonMargin l l)

/- Take up to `n` blanks off the end of a text. -/
def dropBlanks : (n : Nat) → Bytes → Bytes
  | 0, s => s
  | n + 1, s =>
      match List.isSuffixOf? [0x20] s with
      | some t => dropBlanks n t
      | none => s

/-
  The space that the text of the first line has behind the
  opening of the comment, which counts as two blanks.
-/
def firstSpace
    (first : Bytes) : Bytes :=
  let space := (first.drop 2).takeWhile (· ≤ 0x20)
  if Bytes.startsWith space [0x09] then space else [0x20, 0x20] ++ space

/- The margin of a comment without a column of stars. -/
def plainMargin
    (first common : Bytes) : Bytes :=
  if isBlank (first.drop 2) then
    let less := dropBlanks 3 common
    if less.length == common.length then
      Bytes.trimEnding common [0x09]
    else
      less
  else
    Bytes.trimEnding common (firstSpace first)

/-
  The margin to take off, and whether the comment has a column
  of stars on its left side.
-/
def margin
    (first common : Bytes) : Bytes × Bool :=
  match Bytes.splitFirst? [0x2a] common with
  | some (before, _) => (Bytes.trimEnding before [0x20], true)
  | none => (plainMargin first common, false)

/- Take a margin off a line. -/
def dropMargin
    (width : Nat)
    (line : Bytes) : Bytes :=
  line.drop width

/- Take the shared space off the lines of a comment. -/
def outdent
    (lines : List Bytes) : List Bytes :=
  match lines with
  | first :: second :: rest =>
      let others := second :: rest
      let inner := others.dropLast
      let last := others.getLast?.getD []
      let inner := inner.map fun l => if isBlank l then [] else l
      let (left, stars) := margin first (shared inner last)
      let before :=
        match Bytes.splitFirst? [0x2a, 0x2f] last with
        | some (before, _) => before
        | none => last
      let (left, last) :=
        if isBlank before then
          (left, left ++ utf8 (if stars then " */" else "*/"))
        else
          (commonMargin left last, last)
      first :: (inner ++ [last]).map (dropMargin left.length)
  | lines => lines

end BlockComment

end Layout

end Namesake
