import Namesake.Alias.Basic
import Namesake.Decl.Basic
import Namesake.Directive

/-
  This file defines deprecation markers: the comment lines
  that say that an alias is deprecated.

  Key definitions include:
    * `Marker.Shape`
    * `Deprecation.shape`
    * `Deprecation.markerText`
    * `Deprecation.markerLines`
    * `Decl.annotate`
-/

namespace Namesake

------------------------------------------------------------
-- Shapes
------------------------------------------------------------

/- The shapes of a marker, by which texts are known. -/
inductive Marker.Shape where
  | bare
  | note
  | since
  | sinceNote
deriving DecidableEq, Repr

namespace Marker.Shape

/- All shapes, in the order of their numbers, which start at zero. -/
def all : List Marker.Shape :=
  [.bare, .note, .since, .sinceNote]

/- The shape of a number. -/
def ofCode?
    (code : Int) : Option Marker.Shape :=
  if code < 0 then none else all[code.toNat]?

/- The name of a shape. -/
def name : Marker.Shape → Bytes
  | .bare => utf8 "ShapeBare"
  | .note => utf8 "ShapeNote"
  | .since => utf8 "ShapeSince"
  | .sinceNote => utf8 "ShapeSinceNote"

/- The name of a number that belongs to no shape. -/
def unnamed
    (code : Int) : Bytes :=
  utf8 "MarkerShape(" ++ Bytes.ofInt code ++ utf8 ")"

end Marker.Shape

------------------------------------------------------------
-- Markers
------------------------------------------------------------

namespace Deprecation

/- The shape of the marker of a deprecation. -/
def shape
    (d : Deprecation) : Marker.Shape :=
  match d.since, d.note with
  | some _, some _ => .sinceNote
  | some _, none => .since
  | none, some _ => .note
  | none, none => .bare

/- The text of the marker of a deprecation. -/
def markerText
    (d : Deprecation) : Bytes :=
  utf8 "Deprecated: " ++
    match d.since, d.note with
    | some since, some note =>
        note ++ utf8 " (since " ++ since ++ utf8 ")"
    | some since, none => utf8 "since " ++ since ++ utf8 "."
    | none, some note => note
    | none, none => utf8 "this alias is deprecated."

/- A blank at the end of a line. -/
def isTrailing
    (b : UInt8) : Bool :=
  b == 0x20 || b == 0x09 || b == 0x0d

/- A line of text as a comment line. -/
def commentLine
    (line : Bytes) : Bytes :=
  let line := Bytes.trimRight isTrailing line
  if line.isEmpty then slashes else slashes ++ [0x20] ++ line

/- The comment lines of the marker of a deprecation. -/
def markerLines
    (d : Deprecation) : List Bytes :=
  d.markerText.lines.map commentLine

/- Comment lines followed by a marker, if there is a deprecation. -/
def annotate
    (d : Option Deprecation)
    (start : List Bytes) : List Bytes :=
  match d with
  | none => start
  | some d =>
      (if start.isEmpty then [] else start ++ [slashes]) ++ d.markerLines

end Deprecation

end Namesake
