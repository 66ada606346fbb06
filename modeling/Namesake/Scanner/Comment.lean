import Namesake.Scanner.Cursor

/-
  This file defines the extent of comments and the line marks
  that a comment may hold.  A line mark renames the lines that
  follow it.

  Key definitions include:
    * `LineMark`
    * `Comment.blockTail`
    * `Comment.text`
    * `Comment.lineMark`
-/

namespace Namesake

------------------------------------------------------------
-- Line Marks
------------------------------------------------------------

/-
  From `offset` on, positions count from the given line of
  the given file.  An empty name keeps the file that applies
  before, if `column` is given; a column of zero means that
  columns are unknown.
-/
structure LineMark where
  offset : Nat
  name : Bytes
  line : Int
  column : Int
deriving DecidableEq, Repr

namespace Comment

------------------------------------------------------------
-- Extent
------------------------------------------------------------

/- Read a block comment; `start` is the offset of its first byte. -/
def blockTail
    (start : Nat)
    (c : Cursor) : Cursor × List Fault :=
  if _h : c.rest = [] then
    (c, [⟨start, .commentOpen⟩])
  else
    if c.rest.startsWith [0x2a, 0x2f] then
      (c.skip 2, (c.skip 2).arrive)
    else
      let r := blockTail start c.next
      (r.1, c.next.arrive ++ r.2)
termination_by c.rest.length
decreasing_by exact Cursor.length_next_lt _h

------------------------------------------------------------
-- Text
------------------------------------------------------------

/-
  A block comment without carriage returns.  One that keeps a
  star and a slash apart stays, except right behind the
  opening; `written` is what stands before, last byte first.
-/
def withoutReturns
    (written : Bytes) : Bytes → Bytes
  | [] => written.reverse
  | b :: s =>
      let guards :=
        written.length > 2 && written.head? = some 0x2a &&
          s.head? = some 0x2f
      if b ≠ 0x0d || guards then
        withoutReturns (b :: written) s
      else
        withoutReturns written s

/- The text of a comment as tokens carry it. -/
def text
    (raw : Bytes) : Bytes :=
  if raw.startsWith [0x2f, 0x2a] then
    withoutReturns [] raw
  else
    raw.filter (· ≠ 0x0d)

------------------------------------------------------------
-- Reading Line Marks
------------------------------------------------------------

/-
  The number that decimal digits denote, taken as a signed
  word of 64 bits.
-/
def number?
    (s : Bytes) : Option Int :=
  if s.isEmpty || s.any (fun b => !isAsciiDigit b.toNat) then
    none
  else
    let n : Nat := s.foldl (fun n b => n * 10 + (b.toNat - 0x30)) 0
    if n < Nat.pow 2 63 then some (Int.ofNat n)
    else if n < Nat.pow 2 64 then
      some (Int.ofNat n - Int.ofNat (Nat.pow 2 64))
    else none

/- What stands before and after the last colon. -/
def lastColon?
    (s : Bytes) : Option (Bytes × Bytes) :=
  match s.reverse.span (· ≠ 0x3a) with
  | (after, _ :: before) => some (before.reverse, after.reverse)
  | (_, []) => none

/- The largest line or column that a mark may give. -/
def largest : Int :=
  1073741824

/- Is this a number that a mark may give? -/
def isCount
    (n : Int) : Bool :=
  n ≠ 0 && n ≤ largest

/-
  Read the body of a line mark, which starts at `offset` and
  takes effect at `effect`.
-/
def readMark
    (offset effect : Nat)
    (body : Bytes) : Option LineMark × List Fault :=
  match lastColon? body with
  | none => (none, [])
  | some (before, digits) =>
      let at₁ := offset + before.length + 1
      match number? digits with
      | none => (none, [⟨at₁, .lineNumber digits⟩])
      | some n =>
          match (lastColon? before).bind fun r =>
              (number? r.2).map fun line => (r.1, r.2, line) with
          | some (name, lineDigits, line) =>
              if !isCount n then
                (none, [⟨at₁, .columnNumber digits⟩])
              else if !isCount line then
                (none,
                  [⟨offset + name.length + 1, .lineNumber lineDigits⟩])
              else
                (some ⟨effect, name, line, n⟩, [])
          | none =>
              if !isCount n then
                (none, [⟨at₁, .lineNumber digits⟩])
              else
                (some ⟨effect, before, n, 0⟩, [])

/-
  The line mark in a comment, if any.  A line comment holds
  one only at the beginning of a line; it takes effect on the
  next line, that of a block comment at once.
-/
def lineMark
    (start : Cursor)
    (raw : Bytes)
    (last : Cursor) : Option LineMark × List Fault :=
  match (utf8 "//line ").isPrefixOf? raw with
  | some body =>
      if start.lineStart then
        let body := Bytes.trimEnding body [0x0d]
        let effect :=
          if last.byte? = some 0x0a then last.offset + 1 else last.offset
        readMark (start.offset + 7) effect body
      else
        (none, [])
  | none =>
      match (utf8 "/*line ").isPrefixOf? raw with
      | some body =>
          match (utf8 "*/").isSuffixOf? body with
          | some body =>
              readMark (start.offset + 7) last.offset body
          | none => (none, [])
      | none => (none, [])

end Comment

end Namesake
