import Namesake.Constraint
import Namesake.DocText.Printer
import Namesake.Layout.BlockComment
import Namesake.Layout.State

/-
  This file defines how comments are mixed with the space that
  waits in front of a token, and how tokens are written.

  Key definitions include:
    * `Layout.commentBefore`
    * `Layout.writeComment`
    * `Layout.intersperse`
    * `Layout.flush`
    * `Layout.space`
    * `Layout.item`
    * `Layout.token`
-/

namespace Namesake

namespace Layout

open Source (Comment CommentGroup)

------------------------------------------------------------
-- Pending Comments
------------------------------------------------------------

/- Does a group of comments contain or ask for a line end? -/
def hasBreak
    (lines : Source.Lines)
    (g : CommentGroup) : Bool :=
  g.any fun c =>
    !c.isBlock || c.text.contains 0x0a ||
      lines.lineOf c.pos != lines.lineOf g.pos

/-
  Is the next comment in front of a place, and can it be
  written there without ending a statement?
-/
def isBefore
    (s : State)
    (next : Place) : Bool :=
  match s.comments with
  | g :: _ =>
      g.pos < next.offset && (!s.impliedSemi || !hasBreak s.lines g)
  | [] => false

/- Is there a comment to be written in front of a place? -/
def commentBefore
    (next : Place) : Printer Bool := do
  return isBefore (← get) next

/- The size of the comments in front of a place. -/
def commentSizeBefore
    (next : Place) : Printer Nat := do
  let s ← get
  let groups := s.comments.takeWhile fun g =>
    isBefore { s with comments := [g] } next
  return total (groups.flatten.map fun c => c.text.length)

------------------------------------------------------------
-- Space in Front of a Comment
------------------------------------------------------------

/-
  Split collected space in front of a comment on the line of
  the last token.  Blanks are dropped and tabs are kept; the
  second part starts with the first space of another kind.
-/
def splitSameLine : List Space → List Space × List Space
  | .blank :: rest =>
      let (taken, left) := splitSameLine rest
      (.ignore :: taken, left)
  | .vtab :: rest =>
      let (taken, left) := splitSameLine rest
      (.vtab :: taken, left)
  | .indent :: rest =>
      let (taken, left) := splitSameLine rest
      (.indent :: taken, left)
  | rest => ([], rest)

/-
  Split collected space in front of a comment on a line of its
  own.  Space within the line is dropped, and so is the first
  line end; the last unindent is kept for the token, unless
  the comment is `aligned` with it.
-/
def splitOtherLine
    (aligned : Bool) : List Space → List Space × List Space
  | .blank :: rest =>
      let (taken, left) := splitOtherLine aligned rest
      (.ignore :: taken, left)
  | .vtab :: rest =>
      let (taken, left) := splitOtherLine aligned rest
      (.ignore :: taken, left)
  | .indent :: rest =>
      let (taken, left) := splitOtherLine aligned rest
      (.indent :: taken, left)
  | .unindent :: rest =>
      if aligned || rest.head? == some .unindent then
        let (taken, left) := splitOtherLine aligned rest
        (.unindent :: taken, left)
      else
        ([], .unindent :: rest)
  | rest => ([], rest)

/- Write the first part of split space, if there is a second. -/
def writeTaken
    (taken left : List Space) : Printer Unit := do
  modify fun s => { s with spaces := taken ++ left }
  unless left.isEmpty do
    writeSpace taken.length

/- Write the space in front of a comment on the line of the last token. -/
def leadSameLine
    (first : Bool)
    (sameAsNext : Bool) : Printer Unit := do
  let mut separated := false
  if first then
    let (taken, left) := splitSameLine (← get).spaces
    separated := taken.contains .vtab
    writeTaken taken left
  unless separated do
    writeByte (if sameAsNext then 0x20 else Columns.hardTab) 1

/- Write the space in front of a comment on a line of its own. -/
def leadOtherLine
    (place : Place)
    (previous : Option Comment)
    (aligned : Bool) : Printer Unit := do
  let (taken, left) := splitOtherLine aligned (← get).spaces
  let breaks := left.head? == some .newline || left.head? == some .formfeed
  writeTaken taken (if breaks then .ignore :: left.tail else left)
  let s ← get
  let distance := if s.last.line > 0 then place.line - s.last.line else 0
  let extra := s.indentation = 0 && breaks && previous.isNone
  let n := if extra then distance + 1 else distance
  let afterLine := (previous.map fun c => !c.isBlock).getD false
  let n := if n = 0 && afterLine then 1 else n
  if n > 0 then
    writeByte Columns.formFeed (min n breakLimit)

/-
  Write the space in front of a comment: `previous` is the
  comment in front of it in the same run, and `kind` the next
  token, which stands at `next`.
-/
def writeLead
    (place next : Place)
    (previous : Option Comment)
    (kind : TokenKind) : Printer Unit := do
  let s ← get
  let afterLine := (previous.map fun c => !c.isBlock).getD false
  if s.size = 0 then
    return ()
  else if place.line = s.last.line && !afterLine then
    leadSameLine previous.isNone (place.line = next.line)
  else
    let aligned := kind != .rightBrace && place.column = next.column
    leadOtherLine place previous aligned

------------------------------------------------------------
-- Comments
------------------------------------------------------------

/- Note where a build constraint is written. -/
def noteConstraint
    (text : Bytes) : Printer Unit :=
  modify fun s =>
    if (Constraint.goBuild? text).isSome then
      { s with goBuild := s.goBuild ++ [s.size] }
    else if (Constraint.plusBuild? text).isSome then
      { s with plusBuild := s.plusBuild ++ [s.size] }
    else
      s

/- Write the lines of a block comment. -/
def writeLines
    (place : Place) : (first : Bool) → List Bytes → Printer Unit
  | _, [] => return ()
  | first, line :: lines => do
      let mut place := place
      unless first do
        writeByte Columns.formFeed 1
        place := (← get).pos
      unless line.isEmpty do
        writeText place (Bytes.trimSpaceRight line) true
      writeLines place false lines

/- Write a comment. -/
def writeComment
    (c : Comment) : Printer Unit := do
  let place ← placeOf c.pos
  let indentation := (← get).indentation
  let isMark := c.text.startsWith (utf8 "//line ") && place.column = 1
  if isMark then
    modify fun s => { s with indentation := 0 }
  if c.isBlock then
    let lines := c.text.lines
    let lines :=
      if place.column = 1 && indentation > 0 then
        lines.take 1 ++ (lines.drop 1).map (utf8 "   " ++ ·)
      else
        lines
    writeLines place true (BlockComment.outdent lines)
  else
    noteConstraint c.text
    writeText place (Bytes.trimSpaceRight c.text) true
  if isMark then
    modify fun s => { s with indentation := indentation }

/- Write comments of one run. -/
def writeRun
    (next : Place)
    (kind : TokenKind) :
    (previous : Option Comment) → List Comment → Printer (Option Comment)
  | previous, [] => return previous
  | previous, c :: cs => do
      writeLead (← placeOf c.pos) next previous kind
      writeComment c
      writeRun next kind (some c) cs

------------------------------------------------------------
-- Space Behind Comments
------------------------------------------------------------

/-
  The collected space behind a comment.  Space within the line
  is dropped; of the line ends one is kept if it is needed.
  The last two results say whether one was kept and whether a
  form feed was dropped.
-/
def spaceBehind
    (needed : Bool) : List Space → List Space × Bool × Bool
  | [] => ([], false, false)
  | w :: rest =>
      match w with
      | .indent | .unindent | .ignore =>
          let (out, kept, dropped) := spaceBehind needed rest
          (w :: out, kept, dropped)
      | .blank | .vtab =>
          let (out, kept, dropped) := spaceBehind needed rest
          (.ignore :: out, kept, dropped)
      | .newline | .formfeed =>
          if needed then
            let (out, _, dropped) := spaceBehind false rest
            (w :: out, true, dropped)
          else
            let (out, kept, dropped) := spaceBehind false rest
            (.ignore :: out, kept, dropped || w == .formfeed)

/-
  Write the space behind comments.  The results say whether a
  line end was written and whether a form feed was dropped.
-/
def writeSuffix
    (needed : Bool) : Printer (Bool × Bool) := do
  let (spaces, kept, dropped) := spaceBehind needed (← get).spaces
  modify fun s => { s with spaces }
  writeSpaces
  if needed && !kept then
    writeByte Columns.lineFeed 1
  return (needed, dropped)

------------------------------------------------------------
-- Mixing
------------------------------------------------------------

/- Is there a line end in the collected space? -/
def hasPendingBreak
    (s : State) : Bool :=
  s.spaces.any fun w => w == .newline || w == .formfeed

/- Is a group of comments right in front of a token at the margin? -/
def isDoc
    (g : CommentGroup)
    (next : Place) : Printer Bool := do
  let start ← placeOf g.pos
  let behind ← placeOf (g.stop + 1)
  let s ← get
  return s.lastToken != .kwImport && start.column = 1 && behind = next

/- The comments of a doc comment in their standard form. -/
def tidyGroup
    (g : CommentGroup) : List Comment :=
  let texts := g.map Source.Comment.text
  let tidied := DocText.tidy texts
  if tidied == texts then
    g
  else
    tidied.map fun text => ⟨g.pos, text⟩

/-
  Write the groups of comments in front of a place.  The first
  result is the last comment; there is none if everything that
  was in front of the place is gone.
-/
def writeGroups
    (next : Place)
    (kind : TokenKind) :
    (fuel : Nat) → (previous : Option Comment) → Printer (Option Comment)
  | 0, previous => return previous
  | fuel + 1, previous => do
      if !(← commentBefore next) then
        return previous
      match (← get).comments with
      | [] => return previous
      | g :: rest =>
          let doc ← isDoc g next
          let list := if doc then tidyGroup g else g
          if list.isEmpty then
            writeLead (← placeOf g.pos) next previous kind
            modify fun s =>
              { s with comments := rest, pos := next, last := next }
            return none
          let written ← writeRun next kind previous list
          let last := if doc then g.getLast? else written
          if doc then
            let stop ← placeOf g.stop
            modify fun s => { s with pos := stop, last := stop }
          modify fun s => { s with comments := rest }
          writeGroups next kind fuel last

/- Is a blank wanted between a block comment and a token? -/
def wantsBlank
    (s : State)
    (kind : TokenKind) : Bool :=
  !s.noExtraBlank && kind != .comma &&
    (kind != .rightParen || s.opening == .leftParen) &&
    (kind != .rightBracket || s.opening == .leftBracket)

/-
  Write the comments in front of a token together with the
  collected space.
-/
def intersperse
    (next : Place)
    (kind : TokenKind) : Printer (Bool × Bool) := do
  let fuel := (← get).comments.length
  match ← writeGroups next kind fuel none with
  | none => writeSuffix false
  | some last =>
      let s ← get
      let mut needed := false
      if last.isBlock && s.lines.lineOf last.pos = next.line &&
          wantsBlank s kind then
        if hasPendingBreak s && !s.noExtraBreak && s.level = 0 then
          needed := true
        else
          writeByte 0x20 1
      if !last.isBlock || kind == .eof ||
          (kind == .rightBrace && !s.noExtraBreak) then
        needed := true
      writeSuffix needed

/- Write the comments and the space in front of a token. -/
def flush
    (next : Place)
    (kind : TokenKind) : Printer (Bool × Bool) := do
  if ← commentBefore next then
    intersperse next kind
  else
    writeSpaces
    return (false, false)

------------------------------------------------------------
-- Items
------------------------------------------------------------

/- Note an opening bracket right in front of the next item. -/
def noteOpening : Printer Unit :=
  modify fun s =>
    match s.lastToken with
    | .illegal => s
    | .leftParen => { s with opening := .leftParen }
    | .leftBracket => { s with opening := .leftBracket }
    | _ => { s with opening := .illegal }

/- The largest number of pieces of space that are collected. -/
def spaceLimit : Nat :=
  16

/- Collect a piece of space. -/
def space
    (w : Space) : Printer Unit := do
  noteOpening
  unless w == .ignore do
    if (← get).spaces.length = spaceLimit then
      writeSpaces
    modify fun s =>
      { s with
        spaces := s.spaces ++ [w]
        impliedSemi :=
          s.impliedSemi && w != .newline && w != .formfeed
        lastToken := .illegal }

/- Collect a blank. -/
def blank : Printer Unit :=
  space .blank

/-
  Write a token with its text; `ends` says whether a line end
  behind it would end a statement.
-/
def item
    (kind : TokenKind)
    (text : Bytes)
    (shielded ends : Bool) : Printer Unit := do
  modify fun s => { s with lastToken := kind }
  let next := (← get).pos
  let (wrote, dropped) ← flush next kind
  let s ← get
  let mut ends := ends
  unless s.impliedSemi do
    let n := min (next.line - s.pos.line) breakLimit
    let n := if wrote && n = breakLimit then breakLimit - 1 else n
    if n > 0 then
      writeByte (if dropped then Columns.formFeed else Columns.lineFeed) n
      ends := false
  modify fun s =>
    match s.marks with
    | none :: marks => { s with marks := some s.outLine :: marks }
    | _ => s
  writeText next text shielded
  modify fun s => { s with impliedSemi := ends }

/- Would two tokens read as one without space between them? -/
def mayCombine
    (previous : TokenKind)
    (next : UInt8) : Bool :=
  match previous with
  | .int => next == 0x2e
  | .add => next == 0x2b
  | .sub => next == 0x2d
  | .quo => next == 0x2a
  | .less => next == 0x2d || next == 0x3c
  | .and => next == 0x26 || next == 0x5e
  | _ => false

/- Would a line end behind this token end a statement? -/
def endsLine : TokenKind → Bool
  | .kwBreak | .kwContinue | .kwFallthrough | .kwReturn
  | .increment | .decrement
  | .rightParen | .rightBracket | .rightBrace => true
  | _ => false

/- Write an operator, a delimiter or a keyword. -/
def token
    (kind : TokenKind) : Printer Unit := do
  noteOpening
  let text := utf8 kind.spelling
  if mayCombine (← get).lastToken (text.headD 0) then
    modify fun s => { s with spaces := [.blank] }
  item kind text false (endsLine kind)

/- Write a name. -/
def name
    (text : Bytes) : Printer Unit := do
  noteOpening
  item .ident text false true

/- Write a literal. -/
def literal
    (kind : TokenKind)
    (text : Bytes) : Printer Unit := do
  noteOpening
  item kind text true true

------------------------------------------------------------
-- Line Breaks
------------------------------------------------------------

/-
  Collect the line ends that lead to a line, at least `least`
  and with `before` in front of them.  In a new section the
  first one ends all columns.  The result is zero if there are
  none, one for a single line end, and more otherwise.
-/
def linebreak
    (line least : Nat)
    (before : Space)
    (newSection : Bool) : Printer Nat := do
  let n := max (min (line - (← get).pos.line) breakLimit) least
  if n = 0 then
    return 0
  space before
  if newSection then
    space .formfeed
    (List.replicate (n - 1) Space.newline).forM space
    return n + 1
  else
    (List.replicate n Space.newline).forM space
    return n

/- Run a layout and give the output line of its first token. -/
def recordLine
    (body : Printer Unit) : Printer Nat := do
  modify fun s => { s with marks := none :: s.marks }
  body
  let s ← get
  modify fun s => { s with marks := s.marks.tail }
  return (s.marks.headD none).getD 0

/- The number of output lines since a line. -/
def linesFrom
    (line : Nat) : Printer Nat := do
  return (← get).outLine - line

/-
  The size of a layout without comments, or more than `limit`
  if it is larger or has more than one line.
-/
def measure
    (limit : Nat)
    (body : Printer Unit) : Printer Nat := do
  let s ← get
  let start : State := { lines := s.lines, comments := [] }
  let run : Printer Unit := do
    body
    modify fun s => { s with impliedSemi := false }
    let _ ← flush .far .eof
  let (_, t) := run start
  let text := Columns.trim t.output.reverse.flatten
  if text.length ≤ limit && !text.any isBreak then
    return text.length
  else
    return limit + 1

end Layout

end Namesake
