import Namesake.Imports.Prune
import Namesake.Imports.Sort
import Namesake.Layout.Format

/-
  This file defines the imports of a generated file: those that
  are not used are taken out, the others are joined in one
  declaration and sorted, and packages from elsewhere are set
  apart from the standard ones.

  The tool that does this for the program is not part of it,
  and `Imports.tidy` is not all of it: imports that are missing
  are not added, since that would take a search for packages
  outside of the file.  So the program is given the tool as an
  instance of `Imports.Tidier`, for which `Imports.tidy` stands
  in when nothing else is said.

  Key definitions include:
    * `Imports.groupOf`
    * `Imports.merge`
    * `Imports.order`
    * `Imports.breaks`
    * `Imports.spread`
    * `Imports.tidy`
    * `Imports.Tidier`
-/

namespace Namesake

namespace Imports

open Source (CommentGroup GenDecl Spec TopDecl Tree Lines)

------------------------------------------------------------
-- Merging
------------------------------------------------------------

/- Does a declaration import the package of foreign functions? -/
def isForeign
    (g : GenDecl) : Bool :=
  g.specs.any fun s => pathOf s == utf8 "C"

/- Put the path of an item at an offset. -/
def movePath
    (pos : Nat) : Spec → Spec
  | .imported doc name path comment =>
      .imported doc name
        { path with pos, stop := pos + path.value.length } comment
  | s => s

/- Can an import declaration be joined with others? -/
def isMergeable : TopDecl → Bool
  | .gen g => g.keyword == .kwImport && !isForeign g
  | _ => false

/- The items of a declaration. -/
def specsOf : TopDecl → List Spec
  | .gen g => g.specs
  | _ => []

/- Join all import declarations with the first one. -/
def merge : List TopDecl → List TopDecl
  | [] => []
  | decl :: rest =>
      match decl with
      | .gen g =>
          if isMergeable decl then
            let others := rest.filter isMergeable
            if others.isEmpty then
              decl :: rest
            else
              let moved := (others.flatMap specsOf).map (movePath g.pos)
              .gen
                  { g with lparen := some g.pos, specs := g.specs ++ moved } ::
                rest.filter fun d => !isMergeable d
          else
            decl :: merge rest
      | decl => decl :: merge rest

------------------------------------------------------------
-- Sorting
------------------------------------------------------------

/- The group of a path: standard packages come first. -/
def groupOf
    (path : Bytes) : Nat :=
  if path.startsWith (utf8 "appengine") then
    2
  else if (path.takeWhile (· ≠ 0x2f)).contains 0x2e then
    1
  else
    0

/- The order of items by group, and within a group. -/
def groupedLe
    (a b : Spec) : Bool :=
  let m := groupOf (pathOf a)
  let n := groupOf (pathOf b)
  if m ≠ n then m < n else specLe a b

/- The comments from the first item of a run to the end of its lines. -/
def runComments
    (d : Draft)
    (start stop : Nat) : List CommentGroup :=
  let line := d.lineOf stop
  (d.comments.dropWhile fun g => decide (g.pos < start)).takeWhile
    fun g => d.lineOf g.stop ≤ line

/- Comments with the number of the item in front of them. -/
def attachBehind
    (starts : List Nat) : (index : Nat) → List CommentGroup → List Attached
  | _, [] => []
  | index, g :: gs =>
      let index := lastStart index starts g.pos
      ⟨index, false, g⟩ :: attachBehind starts index gs

/-
  Put items and their comments one behind the other, starting
  between two offsets.
-/
def chain
    (attached : List Attached) :
    (pos stop : Nat) → List Numbered → List Spec × List Attached
  | _, _, [] => ([], attached)
  | pos, stop, s :: rest =>
      let own := attached.filter fun a => a.index == s.index
      let last := (own.flatMap Attached.group).getLast?
      let next :=
        match last with
        | some c => stop + c.text.length
        | none => stop
      let attached := moveAttached attached s pos stop
      let (specs, attached) := chain attached next next rest
      (place pos stop s.spec :: specs, attached)

/- Join lines so that an item is on the line of the first one. -/
def joinLines
    (first : Nat)
    (d : Draft)
    (s : Spec) : Draft :=
  let line := d.lineOf s.pos
  (List.range (line - first)).foldl
    (fun d i =>
      let above := line - 1 - i
      if 0 < above && above < d.lineCount then d.mergeLine above else d)
    d

/- Sort the items of a run by group. -/
def orderRun
    (d : Draft)
    (specs : List Spec) : Draft × List Spec :=
  match specs, specs.getLast? with
  | first :: _ :: _, some last =>
      let starts := specs.map Source.SpecOf.pos
      let comments := runComments d first.pos last.stop
      let attached := attachBehind starts 0 comments
      let numbered := specs.mapIdx fun i s => (⟨i, s⟩ : Numbered)
      let sorted := numbered.mergeSort fun a b => groupedLe a.spec b.spec
      let (d', kept) := dedupe d sorted
      let (specs, attached) := chain attached first.pos first.stop kept
      let moved := (attached.map Attached.group).mergeSort groupLe
      let before := d.comments.takeWhile fun g => decide (g.pos < first.pos)
      let after := d.comments.drop (before.length + comments.length)
      let d' := { d' with comments := before ++ moved ++ after }
      let line := d'.lineOf first.pos
      (specs.tail.foldl (joinLines line) d', specs)
  | _, _ => (d, specs)

/- Sort runs of items by group. -/
def orderRuns
    (d : Draft) : List (List Spec) → Draft × List Spec
  | [] => (d, [])
  | run :: rest =>
      let (d, specs) := orderRun d run
      let (d, more) := orderRuns d rest
      (d, specs ++ more)

/- Sort the items of an import declaration by group. -/
def orderDecl
    (d : Draft)
    (g : GenDecl) : Draft × GenDecl :=
  if g.lparen.isNone then
    (d, g)
  else
    let (d, specs) := orderRuns d (runs d.lines g.specs)
    let d :=
      match specs.getLast?, g.rparen with
      | some last, some rparen =>
          let paren := d.lineOf rparen
          if paren > d.lineOf last.pos + 1 then d.mergeLine (paren - 1)
          else d
      | _, _ => d
    (d, { g with specs := specs })

/- Sort the imports at the top of declarations; empty ones go. -/
def orderDecls
    (d : Draft) : List TopDecl → Draft × List TopDecl
  | [] => (d, [])
  | decl :: rest =>
      match decl with
      | .gen g =>
          if g.keyword == .kwImport then
            if g.specs.isEmpty then
              orderDecls d rest
            else
              let (d, g) := orderDecl d g
              let (d, rest) := orderDecls d rest
              (d, .gen g :: rest)
          else
            (d, decl :: rest)
      | decl => (d, decl :: rest)

/- Join and sort the imports of a draft. -/
def order
    (d : Draft) : Draft :=
  let (d', decls) := orderDecls d (merge d.decls)
  { d' with decls := decls }

------------------------------------------------------------
-- Spacing
------------------------------------------------------------

/- The paths in a run of items that start another group. -/
def groupStarts : List Spec → List Bytes
  | a :: b :: rest =>
      let more := groupStarts (b :: rest)
      if groupOf (pathOf a) ≠ groupOf (pathOf b) then pathOf b :: more
      else more
  | _ => []

/- The offset of the path of an item. -/
def pathPos : Spec → Nat
  | .imported _ _ path _ => path.pos
  | s => s.pos

/- The paths in front of which an empty line is wanted. -/
def breaks
    (d : Draft) : List Bytes :=
  (d.decls.takeWhile TopDecl.isImport).flatMap fun decl =>
    ((specsOf decl).splitBy fun a b =>
      decide (d.lineOf (pathPos b) ≤ d.lineOf (pathPos a) + 1)).flatMap
        groupStarts

/- A blank within a line. -/
def isGap
    (b : UInt8) : Bool :=
  b == 0x20 || (0x09 ≤ b && b ≤ 0x0d)

/- A byte of a name in front of a path. -/
def isWord
    (b : UInt8) : Bool :=
  isAsciiLetter b.toNat || isAsciiDigit b.toNat || b == 0x5f || b == 0x2e

/- The text in quotes at the start of a line. -/
def quoted? : Bytes → Option Bytes
  | 0x22 :: b :: rest =>
      if (b :: rest).contains 0x22 then
        if b == 0x22 then
          if rest.contains 0x22 then
            some (b :: rest.takeWhile (· ≠ 0x22))
          else
            none
        else
          some (b :: rest.takeWhile (· ≠ 0x22))
      else
        none
  | _ => none

/- The path on a line of an import declaration. -/
def pathOnLine?
    (line : Bytes) : Option Bytes :=
  if !(line.head?.map isGap).getD false then
    none
  else
    let rest := line.dropWhile isGap
    match quoted? rest with
    | some path => some path
    | none =>
        let behind := rest.dropWhile isWord
        if rest.length == behind.length ||
            !(behind.head?.map isGap).getD false then
          none
        else
          quoted? (behind.dropWhile isGap)

/- Where lines stand with regard to the imports. -/
inductive Stage where
  | before
  | inside
  | behind
deriving DecidableEq, Repr

/- Does a line start a declaration other than an import? -/
def startsDecl
    (line : Bytes) : Bool :=
  [utf8 "var", utf8 "func", utf8 "const", utf8 "type"].any
    fun word => line.startsWith word

/- Put empty lines in front of the lines that import given paths. -/
def spreadLines : Stage → List Bytes → List Bytes → List Bytes
  | _, _, [] => []
  | stage, wanted, line :: lines =>
      let stage :=
        if stage == .before && line.startsWith (utf8 "import") then .inside
        else stage
      let stage :=
        if stage == .inside && startsDecl line then .behind else stage
      match stage, wanted, pathOnLine? line with
      | .inside, path :: others, some found =>
          if found == path then
            [] :: line :: spreadLines stage others lines
          else
            line :: spreadLines stage wanted lines
      | _, _, _ => line :: spreadLines stage wanted lines

/- Put empty lines between the groups of imports of a text. -/
def spread
    (wanted : List Bytes)
    (text : Bytes) : Bytes :=
  if wanted.isEmpty then
    text
  else
    Bytes.join [0x0a] (spreadLines .before wanted text.lines)

------------------------------------------------------------
-- Tidying
------------------------------------------------------------

/-
  The text of a file with its imports in order; none is added.
  Errors show the name of the file.
-/
def tidy
    (name src : Bytes) : Except Bytes Bytes :=
  match Layout.parse name src with
  | .error e => .error e
  | .ok (lines, tree) =>
      let d := order (prune lines tree)
      let text := Layout.print d.lines (d.toTree tree)
      Layout.format (spread (breaks d) text)

/-
  A tool that puts the imports of a file in order, given the
  name and the text of the file.
-/
class Tidier where
  tidy : (name src : Bytes) → Except Bytes Bytes

/- The tool that is used when no other is given. -/
instance : Tidier :=
  ⟨tidy⟩

end Imports

end Namesake
