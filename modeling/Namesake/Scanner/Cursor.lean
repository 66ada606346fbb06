import Namesake.Scanner.Fault

/-
  This file defines a place in a text.  Moving to a glyph
  reports what is wrong with that glyph itself, so a fault is
  known as soon as the glyph is the next one to be read.

  Key definitions include:
    * `Cursor`
    * `Cursor.next`
    * `Cursor.arrive`
    * `Cursor.skip`
    * `Cursor.skipWhile`
-/

namespace Namesake

------------------------------------------------------------
-- Cursors
------------------------------------------------------------

/-
  A place in a text: the offset, what follows, and whether
  the place is the beginning of a line.
-/
structure Cursor where
  offset : Nat
  rest : Bytes
  lineStart : Bool
deriving DecidableEq, Repr

namespace Cursor

/- The beginning of a text. -/
def ofText
    (s : Bytes) : Cursor :=
  { offset := 0, rest := s, lineStart := true }

/- The first byte of what follows. -/
def byte?
    (c : Cursor) : Option UInt8 :=
  c.rest.head?

/- The code point of the glyph that follows. -/
def code?
    (c : Cursor) : Option Nat :=
  c.rest.firstCode?

/- Does the text begin with a byte order mark of two-byte units? -/
def isWide
    (c : Cursor) : Bool :=
  c.offset == 0 &&
    (c.rest.startsWith [0xff, 0xfe] || c.rest.startsWith [0xfe, 0xff])

/-
  Move behind the next glyph.  A text of two-byte units is
  passed as a whole.
-/
def next
    (c : Cursor) : Cursor :=
  match Utf8.split? c.rest with
  | none => c
  | some (g, rest) =>
      if c.isWide then
        { offset := c.rest.length, rest := [], lineStart := false }
      else
        { offset := c.offset + g.width
          rest := rest
          lineStart := g == .char '\n' }

/- Moving on never adds text. -/
theorem length_next_le
    (c : Cursor) :
    c.next.rest.length ≤ c.rest.length := by
  unfold next
  split
  · exact Nat.le_refl _
  · rename_i h
    split
    · exact Nat.zero_le _
    · exact Nat.le_of_lt (Utf8.length_of_split? h)

/- Splitting fails only at the end of a text. -/
theorem split?_ne_none
    {s : Bytes}
    (h : s ≠ []) :
    Utf8.split? s ≠ none := by
  cases s with
  | nil => exact absurd rfl h
  | cons b s =>
      unfold Utf8.split?
      repeat' split
      all_goals simp_all

/- Moving on from a place before the end makes progress. -/
theorem length_next_lt
    {c : Cursor}
    (h : c.rest ≠ []) :
    c.next.rest.length < c.rest.length := by
  unfold next
  split
  · rename_i hs
    exact absurd hs (split?_ne_none h)
  · rename_i hs
    split
    · exact List.length_pos_iff.mpr h
    · exact Utf8.length_of_split? hs

/- What is wrong with the glyph at this place. -/
def arrive
    (c : Cursor) : List Fault :=
  match Utf8.split? c.rest with
  | none => []
  | some (.stray _, _) =>
      if c.isWide then
        [⟨c.offset, .wideEncoding⟩]
      else
        [⟨c.offset, .encoding⟩]
  | some (.char ch, _) =>
      if ch.toNat = 0 then
        [⟨c.offset, .nul⟩]
      else if ch.toNat = 0xfeff && c.offset > 0 then
        [⟨c.offset, .byteOrderMark⟩]
      else
        []

/- Move behind `n` bytes that lie on one line. -/
def skip
    (c : Cursor)
    (n : Nat) : Cursor :=
  { offset := c.offset + n
    rest := c.rest.drop n
    lineStart := false }

/-
  Move behind all glyphs whose code point satisfies `p`, and
  report the faults met on the way.
-/
def skipWhile
    (p : Nat → Bool)
    (c : Cursor) : Cursor × List Fault :=
  if _h : c.rest = [] then
    (c, [])
  else
    match c.code? with
    | none => (c, [])
    | some n =>
        if p n then
          let r := skipWhile p c.next
          (r.1, c.next.arrive ++ r.2)
        else
          (c, [])
termination_by c.rest.length
decreasing_by exact length_next_lt _h

end Cursor

end Namesake
