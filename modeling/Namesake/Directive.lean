import Namesake.Alias.Parser

/-
  This file defines directives: lines of a doc comment that
  request aliases, such as `// @alias(A, B)`.  A directive may
  run over several lines as long as a parenthesis is open.

  Key definitions include:
    * `DocLine`
    * `Directive`
    * `Directive.matchLine?`
    * `Directive.depth`
    * `Directive.find`
    * `Directive.position`
    * `Directive.span`
    * `Directive.aliases`
    * `Directive.indexIn?`
    * `Directive.strip`
-/

namespace Namesake

------------------------------------------------------------
-- Doc Comments
------------------------------------------------------------

/- A line of a doc comment and the position of its first byte. -/
structure DocLine where
  text : Bytes
  position : Position := {}
deriving DecidableEq, Repr

/- The two slashes that start a line comment. -/
def slashes : Bytes :=
  [0x2f, 0x2f]

namespace DocLine

/- The text behind the slashes of a line comment. -/
def body?
    (line : DocLine) : Option Bytes :=
  slashes.isPrefixOf? line.text

end DocLine

------------------------------------------------------------
-- Directives
------------------------------------------------------------

/- Argument text from `offset` on stands at `position`. -/
structure Segment where
  offset : Nat
  position : Position
deriving DecidableEq, Repr

/-
  A directive: its name, the comment lines it occupies, the
  joined text of its arguments and where each piece of that
  text stands.
-/
structure Directive where
  name : Bytes
  comments : List Bytes
  arguments : Bytes
  segments : List Segment
deriving DecidableEq, Repr

namespace Directive

/- A blank between the slashes and the directive. -/
def isMargin
    (b : UInt8) : Bool :=
  b == 0x20 || b == 0x09

/-
  Does the line start the named directive?  The result is the
  text behind the name and its position.
-/
def matchLine?
    (name : Bytes)
    (line : DocLine) : Option (Bytes × Position) :=
  match line.body? with
  | none => none
  | some body =>
      let margin := body.takeWhile isMargin
      match (0x40 :: name).isPrefixOf? (body.dropWhile isMargin) with
      | none => none
      | some rest =>
          let continues :=
            match Bytes.firstCode? rest with
            | some n => n == 0x5f || isLetter n || isDigit n
            | none => false
          if continues then
            none
          else
            some
              (rest,
                line.position.shift
                  (2 + margin.length + (1 + name.length)))

------------------------------------------------------------
-- Parentheses
------------------------------------------------------------

/-
  The balance of parentheses in a list of tokens, given the
  balance so far and whether one was opened.  Before the
  first opening one any other token makes the balance zero.
-/
def depthFrom
    (depth : Int)
    (opened : Bool) : List TokenKind → Int
  | [] => if opened then depth else 0
  | k :: ks =>
      match k with
      | .leftParen => depthFrom (depth + 1) true ks
      | .rightParen => depthFrom (depth - 1) opened ks
      | .semicolon | .comment => depthFrom depth opened ks
      | .eof => if opened then depth else 0
      | _ => if opened then depthFrom depth opened ks else 0

/- The balance of parentheses in a text. -/
def depth
    (src : Bytes) : Int :=
  depthFrom 0 false
    ((Scanner.tokens src).map fun t => t.token.kind)

------------------------------------------------------------
-- Positions
------------------------------------------------------------

/- The segment that an offset falls into. -/
def segmentAt
    (offset : Nat)
    (current : Segment) : List Segment → Segment
  | [] => current
  | s :: rest =>
      if s.offset > offset then
        current
      else
        segmentAt offset s rest

/- The position of an offset in the argument text. -/
def position
    (d : Directive)
    (offset : Nat) : Position :=
  match d.segments with
  | [] => {}
  | s :: rest =>
      let seg := segmentAt offset s rest
      seg.position.shift (Int.ofNat offset - Int.ofNat seg.offset)

/- The span from the at sign to the end of the last line. -/
def span
    (d : Directive) : Span :=
  { start := (d.position 0).shift (-Int.ofNat (d.name.length + 1))
    stop := d.position d.arguments.length }

------------------------------------------------------------
-- Finding
------------------------------------------------------------

/- The directive that starts with a line. -/
def begin
    (name : Bytes)
    (line : DocLine)
    (rest : Bytes)
    (position : Position) : Directive :=
  { name := name
    comments := [line.text]
    arguments := rest
    segments := [⟨0, position⟩] }

/- Continue a directive with the text behind the slashes of a line. -/
def extend
    (d : Directive)
    (line : DocLine)
    (body : Bytes) : Directive :=
  { d with
    comments := d.comments ++ [line.text]
    arguments := d.arguments ++ [0x0a] ++ body
    segments :=
      d.segments ++
        [⟨d.arguments.length + 1, line.position.shift 2⟩] }

/- The state of a search through a doc comment. -/
inductive Search where
  | searching
  | reading (d : Directive)
  | found (d : Directive)
deriving DecidableEq, Repr

namespace Search

/- The directive found so far. -/
def directive? : Search → Option Directive
  | .searching => none
  | .reading d => some d
  | .found d => some d

end Search

/- The diagnostic of a second directive of one name. -/
def duplicate
    (first : Directive)
    (line : DocLine) : Diagnostic :=
  { severity := .error
    code := Diagnostic.malformedArguments
    message :=
      utf8 "duplicate @" ++ first.name ++
        utf8 " directive, first one is at " ++ first.span.text
    span := ⟨line.position, line.position⟩ }

/- Look for the start of a directive on a line. -/
def scanLine
    (name : Bytes)
    (s : Search)
    (line : DocLine) : Except Diagnostic Search :=
  match matchLine? name line with
  | none => .ok s
  | some (rest, position) =>
      match s.directive? with
      | some first => .error (duplicate first line)
      | none => .ok (.reading (begin name line rest position))

/-
  Take one line: continue an open directive, or look for the
  start of one.
-/
def searchLine
    (name : Bytes)
    (s : Search)
    (line : DocLine) : Except Diagnostic Search :=
  match s with
  | .reading d =>
      if depth d.arguments > 0 then
        match line.body? with
        | some body => .ok (.reading (d.extend line body))
        | none => scanLine name (.found d) line
      else
        scanLine name (.found d) line
  | s => scanLine name s line

/- Take the lines of a doc comment in order. -/
def search
    (name : Bytes) : Search → List DocLine → Except Diagnostic Search
  | s, [] => .ok s
  | s, line :: doc =>
      match searchLine name s line with
      | .ok s' => search name s' doc
      | .error d => .error d

/- The named directive of a doc comment, if there is one. -/
def find
    (name : Bytes)
    (doc : List DocLine) : Except Diagnostic (Option Directive) :=
  match search name .searching doc with
  | .ok s => .ok s.directive?
  | .error d => .error d

/- The aliases that a directive requests. -/
def aliases
    (d : Directive) : Except Diagnostic (List Alias) :=
  Alias.parse d.arguments d.position

------------------------------------------------------------
-- Stripping
------------------------------------------------------------

/- The first index at which `run` occurs in a list of lines. -/
def runIndex?
    (run : List Bytes) : List Bytes → Option Nat
  | [] => if run.isEmpty then some 0 else none
  | line :: lines =>
      if run.isPrefixOf (line :: lines) then
        some 0
      else
        (runIndex? run lines).map (· + 1)

/- The index at which the lines of a directive occur as one run. -/
def indexIn?
    (d : Directive)
    (lines : List Bytes) : Option Nat :=
  if d.comments.isEmpty then none else runIndex? d.comments lines

/- A line that only separates: an empty comment or a blank line. -/
def isSeparator
    (line : Bytes) : Bool :=
  line == slashes || line == [0x0a]

/-
  Join what stands before and after a removed directive.  Of
  two separators that meet, the second is dropped.
-/
def rejoin
    (before after : List Bytes) : List Bytes :=
  match before.getLast?, after with
  | some last, line :: rest =>
      if isSeparator last && isSeparator line then
        before ++ rest
      else
        before ++ after
  | _, _ => before ++ after

/- Drop empty comment lines at the end. -/
def dropDangling
    (lines : List Bytes) : List Bytes :=
  (lines.reverse.dropWhile (· == slashes)).reverse

/-
  Remove the lines of a directive; the lines are unchanged if
  it does not occur in them.
-/
def strip
    (d : Directive)
    (lines : List Bytes) : List Bytes :=
  match d.indexIn? lines with
  | none => lines
  | some i =>
      dropDangling
        (rejoin (lines.take i) (lines.drop (i + d.comments.length)))

end Directive

end Namesake
