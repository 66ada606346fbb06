import Namesake.Scanner.Cursor

/-
  This file defines the extent of quoted literals: character,
  string and raw string literals.  Each function starts
  behind the opening quote and stops behind the closing one.

  Key definitions include:
    * `Literal.escapeTail`
    * `Literal.stringTail`
    * `Literal.charTail`
    * `Literal.rawTail`
    * `Literal.withoutReturns`
-/

namespace Namesake

namespace Literal

------------------------------------------------------------
-- Escapes
------------------------------------------------------------

/- The value of a code point as a digit; 16 if it is none. -/
def digitOf
    (code : Nat) : Nat :=
  if code < 0x80 then Quoted.digitValue code.toUInt8 else 16

/-
  Read the digits of an escape.  The value is checked when
  all digits are there; a surrogate is no character.
-/
def digitsTail
    (start : Nat)
    (base limit : Nat) :
    (count : Nat) → (value : Nat) → Cursor → Cursor × List Fault
  | 0, value, c =>
      if value > limit || (0xd800 ≤ value && value < 0xe000) then
        (c, [⟨start, .escapeRange⟩])
      else
        (c, [])
  | count + 1, value, c =>
      match c.code? with
      | none => (c, [⟨c.offset, .escapeOpen⟩])
      | some n =>
          if digitOf n < base then
            let r :=
              digitsTail start base limit count
                (value * base + digitOf n) c.next
            (r.1, c.next.arrive ++ r.2)
          else
            (c, [⟨c.offset, .escapeDigit n⟩])

/- Is this a letter, or the quote, that may follow a backslash alone? -/
def isShortEscape
    (quote : UInt8)
    (n : Nat) : Bool :=
  n == quote.toNat || n == 0x5c ||
    [0x61, 0x62, 0x66, 0x6e, 0x72, 0x74, 0x76].contains n

/- Read what follows a backslash. -/
def escapeTail
    (quote : UInt8)
    (c : Cursor) : Cursor × List Fault :=
  match c.code? with
  | none => (c, [⟨c.offset, .escapeOpen⟩])
  | some n =>
      let afterLetter := fun (count limit : Nat) =>
        let r := digitsTail c.offset 16 limit count 0 c.next
        (r.1, c.next.arrive ++ r.2)
      if isShortEscape quote n then
        (c.next, c.next.arrive)
      else if 0x30 ≤ n && n ≤ 0x37 then
        digitsTail c.offset 8 255 3 0 c
      else if n = 0x78 then
        afterLetter 2 255
      else if n = 0x75 then
        afterLetter 4 0x10ffff
      else if n = 0x55 then
        afterLetter 8 0x10ffff
      else
        (c, [⟨c.offset, .escapeUnknown⟩])

/- Reading digits never adds text. -/
theorem length_digitsTail_le
    (start base limit count value : Nat)
    (c : Cursor) :
    (digitsTail start base limit count value c).1.rest.length ≤
      c.rest.length := by
  fun_induction digitsTail start base limit count value c with
  | case1 => exact Nat.le_refl _
  | case2 => exact Nat.le_refl _
  | case3 => exact Nat.le_refl _
  | case4 _ _ c _ _ _ _ ih =>
      exact Nat.le_trans ih (Cursor.length_next_le c)
  | case5 => exact Nat.le_refl _

/- Reading an escape never adds text. -/
theorem length_escapeTail_le
    (quote : UInt8)
    (c : Cursor) :
    (escapeTail quote c).1.rest.length ≤ c.rest.length := by
  have behind (start base limit count value : Nat) :=
    Nat.le_trans
      (length_digitsTail_le start base limit count value c.next)
      (Cursor.length_next_le c)
  unfold escapeTail
  split
  · exact Nat.le_refl _
  · simp only
    repeat' split
    · exact Cursor.length_next_le c
    · exact length_digitsTail_le ..
    · exact behind ..
    · exact behind ..
    · exact behind ..
    · exact Nat.le_refl _

------------------------------------------------------------
-- Strings
------------------------------------------------------------

/- Read a string literal; `start` is the offset of its opening quote. -/
def stringTail
    (start : Nat)
    (c : Cursor) : Cursor × List Fault :=
  if _h : c.rest = [] then
    (c, [⟨start, .stringOpen⟩])
  else
    match c.code? with
    | none => (c, [⟨start, .stringOpen⟩])
    | some n =>
        if n = 0x0a then
          (c, [⟨start, .stringOpen⟩])
        else if n = 0x22 then
          (c.next, c.next.arrive)
        else if n = 0x5c then
          let e := escapeTail 0x22 c.next
          let r := stringTail start e.1
          (r.1, c.next.arrive ++ e.2 ++ r.2)
        else
          let r := stringTail start c.next
          (r.1, c.next.arrive ++ r.2)
termination_by c.rest.length
decreasing_by
  · exact Nat.lt_of_le_of_lt (length_escapeTail_le 0x22 c.next)
      (Cursor.length_next_lt _h)
  · exact Cursor.length_next_lt _h

/- Read a raw string literal; `start` is the offset of its opening quote. -/
def rawTail
    (start : Nat)
    (c : Cursor) : Cursor × List Fault :=
  if _h : c.rest = [] then
    (c, [⟨start, .rawStringOpen⟩])
  else
    if c.code? = some 0x60 then
      (c.next, c.next.arrive)
    else
      let r := rawTail start c.next
      (r.1, c.next.arrive ++ r.2)
termination_by c.rest.length
decreasing_by exact Cursor.length_next_lt _h

/-
  Read a character literal; `start` is the offset of its
  opening quote, `count` the number of characters so far and
  `valid` whether no fault was found so far.
-/
def charTail
    (start count : Nat)
    (valid : Bool)
    (c : Cursor) : Cursor × List Fault :=
  if _h : c.rest = [] then
    (c, if valid then [⟨start, .charOpen⟩] else [])
  else
    match c.code? with
    | none => (c, if valid then [⟨start, .charOpen⟩] else [])
    | some n =>
        if n = 0x0a then
          (c, if valid then [⟨start, .charOpen⟩] else [])
        else if n = 0x27 then
          (c.next, c.next.arrive ++
            if valid && count != 1 then [⟨start, .charLength⟩] else [])
        else if n = 0x5c then
          let e := escapeTail 0x27 c.next
          let broken := e.2.any fun f =>
            match f.cause with
            | .escapeOpen | .escapeUnknown => true
            | .escapeDigit _ | .escapeRange => true
            | _ => false
          let r := charTail start (count + 1) (valid && !broken) e.1
          (r.1, c.next.arrive ++ e.2 ++ r.2)
        else
          let r := charTail start (count + 1) valid c.next
          (r.1, c.next.arrive ++ r.2)
termination_by c.rest.length
decreasing_by
  · exact Nat.lt_of_le_of_lt (length_escapeTail_le 0x27 c.next)
      (Cursor.length_next_lt _h)
  · exact Cursor.length_next_lt _h

------------------------------------------------------------
-- Carriage Returns
------------------------------------------------------------

/- The text without carriage returns. -/
def withoutReturns
    (s : Bytes) : Bytes :=
  s.filter (· ≠ 0x0d)

end Literal

end Namesake
