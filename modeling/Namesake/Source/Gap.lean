import Namesake.Decl.Basic
import Namesake.Source.Lines
import Namesake.Source.Tree

/-
  This file defines which of two neighbouring parts of a file
  the comments between them belong to.

  Key definitions include:
    * `Source.Gap`
    * `Source.Gap.between`
-/

namespace Namesake

namespace Source

/-
  The space between two parts of a file: where the part in
  front of it ends with its comments, the blank space behind
  that, and the comment lines of the part behind the gap.
-/
structure Gap where
  stop : Nat
  before : Decl.Spacing
  start : List Bytes
deriving Repr

namespace Gap

------------------------------------------------------------
-- Distances
------------------------------------------------------------

/- The number of line ends between two offsets. -/
def distance
    (lines : Lines)
    (a b : Nat) : Nat :=
  lines.lineOf b - lines.lineOf a

/- The blank space that a number of line ends makes. -/
def spacing : Nat → Decl.Spacing
  | 0 => .none
  | 1 => .newLine
  | _ => .emptyLine

/-
  Split off the comments that follow an offset with at most
  `limit` line ends before each of them.
-/
def splitNear
    (lines : Lines)
    (limit : Nat)
    (stop : Nat) : List Comment → List Comment × List Comment
  | [] => ([], [])
  | c :: cs =>
      if distance lines stop c.pos ≤ limit then
        let (near, far) := splitNear lines limit c.stop cs
        (c :: near, far)
      else
        ([], c :: cs)

/- The offset behind the last of some comments, or a given one. -/
def stopOf
    (stop : Nat)
    (cs : List Comment) : Nat :=
  (cs.getLast?.map Comment.stop).getD stop

------------------------------------------------------------
-- Comment Lines
------------------------------------------------------------

/-
  The line feeds that stand for the space behind a comment.
  A line comment has its own line end.
-/
def feeds
    (c : Comment)
    (ends : Nat) : List Bytes :=
  let own := if c.isBlock then 0 else 1
  List.replicate (min ends 2 - own) [0x0a]

/- The comment lines of a part that starts at an offset. -/
def startLines
    (lines : Lines)
    (next : Nat) : List Comment → List Bytes
  | [] => []
  | [c] => c.text :: feeds c (distance lines c.stop next)
  | c :: d :: cs =>
      c.text ::
        (feeds c (distance lines c.stop d.pos) ++
          startLines lines next (d :: cs))

------------------------------------------------------------
-- Sharing Out
------------------------------------------------------------

/-
  The gap between a part that ends at `stop` and the next one,
  if there is a next one.  A comment on the line of the first
  part belongs to it.  Comments below it belong to it if a
  blank line follows them and none is before them.  The other
  comments belong to the next part.
-/
def between
    (lines : Lines)
    (comments : List Comment)
    (stop : Nat)
    (next : Option Nat) : Gap :=
  match next with
  | none => ⟨stopOf stop comments, .none, []⟩
  | some next =>
      let (same, rest) := splitNear lines 0 stop comments
      let stop := stopOf stop same
      let (chunk, others) := splitNear lines 1 stop rest
      let follower := (others.head?.map Comment.pos).getD next
      let parted :=
        distance lines (stopOf stop chunk) follower ≥ 2
      let (stop, rest) :=
        if parted then (stopOf stop chunk, others) else (stop, rest)
      let first := (rest.head?.map Comment.pos).getD next
      { stop := stop
        before := spacing (distance lines stop first)
        start := startLines lines next rest }

end Gap

end Source

end Namesake
