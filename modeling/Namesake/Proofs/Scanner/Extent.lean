import Namesake.Proofs.Text.Utf8
import Namesake.Scanner.Basic

/-
  How far the scanner moves.  Every reading function goes
  forward over a stretch of the text, and a whole token
  takes at least one byte.

  Main declarations:
    * `Cursor.Passes`
    * `Cursor.LeadsTo` and `Cursor.MovesTo`
    * `Scanner.piece_movesTo`
-/

namespace Namesake

------------------------------------------------------------
-- Stretches of Text
------------------------------------------------------------

namespace Cursor

/- Between two places of one text stands `w`. -/
structure Passes
    (c : Cursor)
    (w : Bytes)
    (d : Cursor) : Prop where
  rest : c.rest = w ++ d.rest
  offset : d.offset = c.offset + w.length

/- The second place is not before the first. -/
def LeadsTo
    (c d : Cursor) : Prop :=
  ∃ w, c.Passes w d

/- The second place is behind the first. -/
def MovesTo
    (c d : Cursor) : Prop :=
  ∃ w, w ≠ [] ∧ c.Passes w d

namespace Passes

theorem refl
    (c : Cursor) :
    c.Passes [] c :=
  ⟨rfl, rfl⟩

/- What is passed on the way adds up. -/
theorem trans
    {c d e : Cursor}
    {v w : Bytes}
    (hFirst : c.Passes v d)
    (hSecond : d.Passes w e) :
    c.Passes (v ++ w) e := by
  constructor
  · rw [hFirst.rest, hSecond.rest, List.append_assoc]
  · rw [hSecond.offset, hFirst.offset, List.length_append,
      Nat.add_assoc]

/- The bytes between two places are what stands there. -/
theorem between_eq
    {c d : Cursor}
    {w : Bytes}
    (h : c.Passes w d) :
    Scanner.between c d = w := by
  have hLength : d.offset - c.offset = w.length := by
    rw [h.offset]
    omega
  rw [Scanner.between, hLength, h.rest, List.take_left]

end Passes

theorem LeadsTo.refl
    (c : Cursor) :
    c.LeadsTo c :=
  ⟨[], Passes.refl c⟩

theorem LeadsTo.trans
    {c d e : Cursor}
    (hFirst : c.LeadsTo d)
    (hSecond : d.LeadsTo e) :
    c.LeadsTo e := by
  rcases hFirst with ⟨v, hFirst⟩
  rcases hSecond with ⟨w, hSecond⟩
  exact ⟨v ++ w, hFirst.trans hSecond⟩

theorem MovesTo.leadsTo
    {c d : Cursor}
    (h : c.MovesTo d) :
    c.LeadsTo d := by
  rcases h with ⟨w, _, hPasses⟩
  exact ⟨w, hPasses⟩

/- A way that starts by moving has moved. -/
theorem MovesTo.trans_leadsTo
    {c d e : Cursor}
    (hFirst : c.MovesTo d)
    (hSecond : d.LeadsTo e) :
    c.MovesTo e := by
  rcases hFirst with ⟨v, hv, hFirst⟩
  rcases hSecond with ⟨w, hSecond⟩
  exact ⟨v ++ w, by simp [hv], hFirst.trans hSecond⟩

/- Moving makes what follows shorter. -/
theorem MovesTo.length_lt
    {c d : Cursor}
    (h : c.MovesTo d) :
    d.rest.length < c.rest.length := by
  rcases h with ⟨w, hw, hPasses⟩
  have hPos : 0 < w.length := List.length_pos_iff.mpr hw
  rw [hPasses.rest, List.length_append]
  omega

/- Less is left at a later place. -/
theorem LeadsTo.length_le
    {c d : Cursor}
    (h : c.LeadsTo d) :
    d.rest.length ≤ c.rest.length := by
  rcases h with ⟨w, hPasses⟩
  rw [hPasses.rest, List.length_append]
  omega

/- And offsets do not decrease. -/
theorem LeadsTo.offset_mono
    {c d : Cursor}
    (h : c.LeadsTo d) :
    c.offset ≤ d.offset := by
  rcases h with ⟨w, hPasses⟩
  rw [hPasses.offset]
  exact Nat.le_add_right _ _

------------------------------------------------------------
-- Single Moves
------------------------------------------------------------

/- A place with a code point is not the end. -/
theorem rest_ne_nil_of_code?
    {c : Cursor}
    {n : Nat}
    (h : c.code? = some n) :
    c.rest ≠ [] := by
  intro hNil
  simp [code?, hNil, Bytes.firstCode?, Utf8.split?] at h

theorem code?_ne_none
    {c : Cursor}
    (h : c.rest ≠ []) :
    c.code? ≠ none := by
  intro hNone
  exact split?_ne_none h (Option.map_eq_none_iff.mp hNone)

/- Away from the beginning, moving on takes one glyph. -/
theorem passes_next
    {c : Cursor}
    {g : Glyph}
    {rest : Bytes}
    (hSplit : Utf8.split? c.rest = some (g, rest))
    (hWide : c.isWide = false) :
    c.Passes g.bytes c.next := by
  have hBytes := Utf8.eq_bytes_append_of_split? hSplit
  constructor
  · simpa [next, hSplit, hWide] using hBytes
  · simp [next, hSplit, hWide, Glyph.width]

/- Moving on before the end takes at least one byte. -/
theorem movesTo_next
    {c : Cursor}
    (h : c.rest ≠ []) :
    c.MovesTo c.next := by
  cases hSplit : Utf8.split? c.rest with
  | none => exact absurd hSplit (split?_ne_none h)
  | some r =>
      rcases r with ⟨g, rest⟩
      cases hWide : c.isWide with
      | true =>
          -- the whole text is passed at once
          have hOffset : c.offset = 0 := by
            simp only [isWide, Bool.and_eq_true,
              beq_iff_eq] at hWide
            exact hWide.1
          refine ⟨c.rest, h, ?_, ?_⟩
          · simp [next, hSplit, hWide]
          · simp [next, hSplit, hWide, hOffset]
      | false =>
          refine ⟨g.bytes, ?_, passes_next hSplit hWide⟩
          intro hNil
          have hBytes := Utf8.eq_bytes_append_of_split? hSplit
          have hLength := Utf8.length_of_split? hSplit
          rw [hBytes, hNil, List.nil_append] at hLength
          exact Nat.lt_irrefl _ hLength

/- Moving on never goes back, and at the end it stays. -/
theorem leadsTo_next
    (c : Cursor) :
    c.LeadsTo c.next := by
  by_cases h : c.rest = []
  · have hNext : c.next = c := by
      simp [next, h, Utf8.split?]
    rw [hNext]
    exact LeadsTo.refl c
  · exact (movesTo_next h).leadsTo

/- Skipping bytes that are there passes them. -/
theorem passes_skip
    {c : Cursor}
    {n : Nat}
    (h : n ≤ c.rest.length) :
    c.Passes (c.rest.take n) (c.skip n) := by
  constructor
  · simp [skip]
  · simp [skip, h]

theorem movesTo_skip
    {c : Cursor}
    {n : Nat}
    (hPos : 0 < n)
    (h : n ≤ c.rest.length) :
    c.MovesTo (c.skip n) := by
  refine ⟨c.rest.take n, ?_, passes_skip h⟩
  intro hNil
  have hLength := congrArg List.length hNil
  simp only [List.length_take, List.length_nil] at hLength
  omega

/- A place with a next byte can be left by skipping it. -/
theorem movesTo_skip_one
    {c : Cursor}
    (h : c.rest ≠ []) :
    c.MovesTo (c.skip 1) :=
  movesTo_skip Nat.one_pos (List.length_pos_iff.mpr h)

/- Passing over glyphs goes forward, by induction on the text. -/
theorem leadsTo_skipWhile
    (p : Nat → Bool)
    (c : Cursor) :
    c.LeadsTo (c.skipWhile p).1 := by
  fun_induction skipWhile p c with
  | case1 c => exact LeadsTo.refl c
  | case2 c => exact LeadsTo.refl c
  | case3 c _ _ _ _ _ ih => exact (leadsTo_next c).trans ih
  | case4 c => exact LeadsTo.refl c

/- It moves if the first glyph is passed. -/
theorem movesTo_skipWhile
    {p : Nat → Bool}
    {c : Cursor}
    {n : Nat}
    (hCode : c.code? = some n)
    (hp : p n = true) :
    c.MovesTo (c.skipWhile p).1 := by
  have hRest := rest_ne_nil_of_code? hCode
  have hMove := (movesTo_next hRest).trans_leadsTo
    (leadsTo_skipWhile p c.next)
  rw [skipWhile]
  simpa [hRest, hCode, hp] using hMove

/- It does not move if the first glyph is not. -/
theorem skipWhile_of_not
    {p : Nat → Bool}
    {c : Cursor}
    {n : Nat}
    (hCode : c.code? = some n)
    (hp : p n = false) :
    c.skipWhile p = (c, []) := by
  rw [skipWhile]
  simp [rest_ne_nil_of_code? hCode, hCode, hp]

end Cursor

------------------------------------------------------------
-- Literals and Comments
------------------------------------------------------------

namespace Literal

open Cursor

theorem leadsTo_digitsTail
    (start base limit count value : Nat)
    (c : Cursor) :
    c.LeadsTo
      (digitsTail start base limit count value c).1 := by
  fun_induction digitsTail start base limit count value c with
  | case1 _ c => exact LeadsTo.refl c
  | case2 _ c => exact LeadsTo.refl c
  | case3 _ _ c => exact LeadsTo.refl c
  | case4 _ _ c _ _ _ _ ih => exact (leadsTo_next c).trans ih
  | case5 _ _ c => exact LeadsTo.refl c

/- Whatever an escape is, reading it does not go back. -/
theorem leadsTo_escapeTail
    (quote : UInt8)
    (c : Cursor) :
    c.LeadsTo (escapeTail quote c).1 := by
  have hBehind (start base limit count value : Nat) :
      c.LeadsTo
        (digitsTail start base limit count value c.next).1 :=
    (leadsTo_next c).trans (leadsTo_digitsTail ..)
  unfold escapeTail
  split
  · exact LeadsTo.refl c
  · simp only
    repeat' split
    · exact leadsTo_next c
    · exact leadsTo_digitsTail ..
    · exact hBehind ..
    · exact hBehind ..
    · exact hBehind ..
    · exact LeadsTo.refl c

/- Nor does reading a literal, closed or not. -/
theorem leadsTo_stringTail
    (start : Nat)
    (c : Cursor) :
    c.LeadsTo (stringTail start c).1 := by
  fun_induction stringTail start c with
  | case1 c | case2 c | case3 c => exact LeadsTo.refl c
  | case4 c => exact leadsTo_next c
  | case5 c _ _ _ _ _ _ ih =>
      exact ((leadsTo_next c).trans
        (leadsTo_escapeTail 0x22 c.next)).trans ih
  | case6 c _ _ _ _ _ _ _ ih => exact (leadsTo_next c).trans ih

theorem leadsTo_rawTail
    (start : Nat)
    (c : Cursor) :
    c.LeadsTo (rawTail start c).1 := by
  fun_induction rawTail start c with
  | case1 c => exact LeadsTo.refl c
  | case2 c => exact leadsTo_next c
  | case3 c _ _ _ ih => exact (leadsTo_next c).trans ih

theorem leadsTo_charTail
    (start count : Nat)
    (valid : Bool)
    (c : Cursor) :
    c.LeadsTo (charTail start count valid c).1 := by
  fun_induction charTail start count valid c with
  | case1 _ _ c | case2 _ _ c | case3 _ _ c =>
      exact LeadsTo.refl c
  | case4 _ _ c => exact leadsTo_next c
  | case5 _ _ c _ _ _ _ _ _ _ ih =>
      exact ((leadsTo_next c).trans
        (leadsTo_escapeTail 0x27 c.next)).trans ih
  | case6 _ _ c _ _ _ _ _ _ _ ih =>
      exact (leadsTo_next c).trans ih

end Literal

theorem Comment.leadsTo_blockTail
    (start : Nat)
    (c : Cursor) :
    c.LeadsTo (blockTail start c).1 := by
  fun_induction blockTail start c with
  | case1 c => exact Cursor.LeadsTo.refl c
  | case2 c _ hEnd =>
      exact (Cursor.movesTo_skip (by decide)
        (List.isPrefixOf_iff_prefix.mp hEnd).length_le).leadsTo
  | case3 c _ _ _ ih => exact (Cursor.leadsTo_next c).trans ih

------------------------------------------------------------
-- Numbers
------------------------------------------------------------

namespace Number

open Cursor

theorem leadsTo_run
    (base : Nat)
    (c : Cursor) :
    c.LeadsTo (run base c).cursor :=
  leadsTo_skipWhile ..

/- A leading zero is passed with the form. -/
theorem movesTo_form
    {c : Cursor}
    (h : c.rest.head? = some 0x30) :
    c.MovesTo (form c).2.1 := by
  unfold form
  split
  · rename_i hRest
    have hOne : 1 ≤ c.rest.length := by simp [hRest]
    have hTwo : 2 ≤ c.rest.length := by simp [hRest]
    repeat' split
    · exact movesTo_skip (by decide) hTwo
    · exact movesTo_skip (by decide) hTwo
    · exact movesTo_skip (by decide) hTwo
    · exact movesTo_skip (by decide) hOne
  · rename_i hRest
    have hOne : 1 ≤ c.rest.length := by simp [hRest]
    exact movesTo_skip (by decide) hOne
  · rename_i hPair hSingle
    cases hRest : c.rest with
    | nil => simp [hRest] at h
    | cons b s =>
        have hb : b = 0x30 := by simpa [hRest] using h
        subst hb
        cases s with
        | nil => exact absurd hRest hSingle
        | cons b' s => exact absurd hRest (hPair b' s)

theorem rest_ne_nil_of_byte?
    {c : Cursor}
    {b : UInt8}
    (h : c.byte? = some b) :
    c.rest ≠ [] := by
  intro hNil
  simp [byte?, hNil] at h

/- A fraction takes its point at least. -/
theorem movesTo_of_fraction
    {f : NumberForm}
    {c : Cursor}
    {r : Run}
    (h : fraction f c = some r) :
    c.MovesTo r.cursor := by
  unfold fraction at h
  split at h
  · rename_i hPoint
    simp only [Option.some.injEq] at h
    subst h
    exact (movesTo_skip_one
      (rest_ne_nil_of_byte? hPoint)).trans_leadsTo
        (leadsTo_run ..)
  · simp at h

/- A sign in front of the digits is passed. -/
theorem leadsTo_sign
    (c : Cursor) :
    c.LeadsTo
      (if c.byte? = some 0x2b || c.byte? = some 0x2d then
        c.skip 1
      else
        c) := by
  split
  · rename_i hSign
    simp only [Bool.or_eq_true, decide_eq_true_eq] at hSign
    rcases hSign with hSign | hSign
    · exact (movesTo_skip_one
        (rest_ne_nil_of_byte? hSign)).leadsTo
    · exact (movesTo_skip_one
        (rest_ne_nil_of_byte? hSign)).leadsTo
  · exact LeadsTo.refl c

/- An exponent takes its letter at least. -/
theorem movesTo_of_exponent
    {f : NumberForm}
    {c : Cursor}
    {r : Run}
    (h : exponent f c = some r) :
    c.MovesTo r.cursor := by
  unfold exponent at h
  split at h
  · simp at h
  · rename_i b hLetter
    simp only at h
    split at h
    · simp only [Option.some.injEq] at h
      subst h
      exact (movesTo_skip_one
        (rest_ne_nil_of_byte? hLetter)).trans_leadsTo
          ((leadsTo_sign _).trans (leadsTo_run ..))
    · simp at h

/- An optional part leads from where it may start to its end. -/
theorem leadsTo_getD
    {c : Cursor}
    {part : Option Run}
    (h : ∀ r, part = some r → c.MovesTo r.cursor) :
    c.LeadsTo ((part.map Run.cursor).getD c) := by
  cases part with
  | none => exact LeadsTo.refl c
  | some r => exact (h r rfl).leadsTo

/- A number without a leading zero is read from its place. -/
theorem form_of_head_ne
    {c : Cursor}
    (h : c.rest.head? ≠ some 0x30) :
    form c = (.decimal, c, false) := by
  unfold form
  split
  · rename_i hRest
    simp [hRest] at h
  · rename_i hRest
    simp [hRest] at h
  · rfl

/- The form of a number takes its prefix, if there is one. -/
theorem leadsTo_form
    (c : Cursor) :
    c.LeadsTo (form c).2.1 := by
  by_cases hZero : c.rest.head? = some 0x30
  · exact (movesTo_form hZero).leadsTo
  · rw [form_of_head_ne hZero]
    exact LeadsTo.refl c

/- The code point of a text that starts with an ASCII byte. -/
theorem code?_of_head
    {c : Cursor}
    {b : UInt8}
    {s : Bytes}
    (hRest : c.rest = b :: s)
    (hLow : b < 0x80) :
    c.code? = some b.toNat := by
  have hNat : b.toNat < 0x80 := UInt8.lt_iff_toNat_lt.mp hLow
  have hVal := Utf8.val_charOf (n := b.toNat) (Or.inl (by omega))
  simp only [code?, Bytes.firstCode?, hRest, Utf8.split?,
    if_pos hLow, Option.map_some, Glyph.code, Char.toNat, hVal]

/-
  The digits before the point and the fraction take at least
  one byte of what looks like a number.
-/
private theorem movesTo_mantissa
    {c : Cursor}
    (h : Scanner.startsNumber c.rest = true) :
    let whole := run (form c).1.base (form c).2.1
    c.MovesTo
      (((fraction (form c).1 whole.cursor).map
        Run.cursor).getD whole.cursor) := by
  intro whole
  have hFraction :
      whole.cursor.LeadsTo
        (((fraction (form c).1 whole.cursor).map
          Run.cursor).getD whole.cursor) :=
    leadsTo_getD fun r hr => movesTo_of_fraction hr
  by_cases hZero : c.rest.head? = some 0x30
  · exact ((movesTo_form hZero).trans_leadsTo
      (leadsTo_run ..)).trans_leadsTo hFraction
  · cases hRest : c.rest with
    | nil => simp [hRest, Scanner.startsNumber] at h
    | cons b s =>
        have hForm := form_of_head_ne hZero
        by_cases hDigit : isAsciiDigit b.toNat = true
        · have hLow : b < 0x80 := by
            simp only [isAsciiDigit, Bool.and_eq_true,
              decide_eq_true_eq] at hDigit
            exact UInt8.lt_iff_toNat_lt.mpr
              (show b.toNat < 0x80 by omega)
          have hWhole : c.MovesTo whole.cursor := by
            simp only [whole, hForm, run]
            apply movesTo_skipWhile (code?_of_head hRest hLow)
            simp [isDigitByte, hDigit]
          exact hWhole.trans_leadsTo hFraction
        · -- only a point before a digit is left
          have hPoint : b = 0x2e := by
            cases s with
            | nil =>
                simp [hRest, Scanner.startsNumber, hDigit] at h
            | cons b' s =>
                simp only [hRest, Scanner.startsNumber, hDigit,
                  Bool.false_or, Bool.and_eq_true,
                  beq_iff_eq] at h
                exact h.1
          subst hPoint
          have hWhole : whole.cursor = c := by
            have hSkip := skipWhile_of_not
              (p := isDigitByte 10)
              (code?_of_head hRest (by decide)) (by decide)
            simp only [whole, hForm, run, NumberForm.base, hSkip]
          rw [hWhole]
          cases hPart : fraction (form c).1 c with
          | none =>
              simp [fraction, byte?, hRest] at hPart
          | some r => exact movesTo_of_fraction hPart

/- A number takes at least one byte. -/
theorem movesTo_scan
    {c : Cursor}
    (h : Scanner.startsNumber c.rest = true) :
    c.MovesTo (scan c).2.1 := by
  have hMantissa := movesTo_mantissa h
  simp only at hMantissa
  unfold scan
  simp only
  generalize
    ((fraction (form c).1
      (run (form c).1.base (form c).2.1).cursor).map
        Run.cursor).getD
      (run (form c).1.base (form c).2.1).cursor = e at *
  have hPower :
      e.LeadsTo
        (((exponent (form c).1 e).map Run.cursor).getD e) :=
    leadsTo_getD fun r hr => movesTo_of_exponent hr
  have hPowerEnd := hMantissa.trans_leadsTo hPower
  split
  · rename_i hImaginary
    exact hPowerEnd.trans_leadsTo
      (movesTo_skip_one
        (rest_ne_nil_of_byte? hImaginary)).leadsTo
  · exact hPowerEnd

end Number

------------------------------------------------------------
-- Tokens
------------------------------------------------------------

namespace Scanner

open Cursor

/- No operator is written with nothing. -/
theorem length_spelling_pos
    {kind : TokenKind}
    (h : kind ∈ operators) :
    0 < (utf8 kind.spelling).length := by
  revert kind
  decide

/- An operator takes its own spelling. -/
theorem movesTo_operator
    {c : Cursor}
    {kind : TokenKind}
    (h : operator? c.rest = some kind) :
    c.MovesTo (operator kind c).cursor := by
  have hMem : kind ∈ operators := List.mem_of_find?_eq_some h
  have hStarts := List.find?_some h
  exact movesTo_skip (length_spelling_pos hMem)
    (List.isPrefixOf_iff_prefix.mp hStarts).length_le

/- Both ways to open a comment take two bytes. -/
theorem two_le_length_of_startsComment
    {s : Bytes}
    (h : startsComment s = true) :
    2 ≤ s.length := by
  simp only [startsComment, Bool.or_eq_true] at h
  rcases h with h | h
  · exact (List.isPrefixOf_iff_prefix.mp h).length_le
  · exact (List.isPrefixOf_iff_prefix.mp h).length_le

/- A comment takes its two opening bytes and more. -/
theorem movesTo_comment
    {c : Cursor}
    (h : startsComment c.rest = true) :
    c.MovesTo (comment c).cursor := by
  have hTwo := two_le_length_of_startsComment h
  refine (movesTo_skip (by decide) hTwo).trans_leadsTo ?_
  unfold comment
  simp only
  split
  · exact Comment.leadsTo_blockTail ..
  · exact leadsTo_skipWhile ..

/- Every token takes at least one byte. -/
theorem piece_movesTo
    {c : Cursor}
    {code : Nat}
    (h : c.code? = some code) :
    c.MovesTo (piece c code).cursor := by
  have hRest := rest_ne_nil_of_code? h
  have hQuote := movesTo_skip_one hRest
  unfold piece
  split
  · rename_i hStart
    refine movesTo_skipWhile h ?_
    simp [isNamePart, hStart]
  · split
    · rename_i hNumber
      exact Number.movesTo_scan hNumber
    · split
      · exact hQuote.trans_leadsTo (Literal.leadsTo_stringTail ..)
      · split
        · exact hQuote.trans_leadsTo (Literal.leadsTo_charTail ..)
        · split
          · exact hQuote.trans_leadsTo (Literal.leadsTo_rawTail ..)
          · split
            · rename_i hComment
              exact movesTo_comment hComment
            · split
              · rename_i hOperator
                exact movesTo_operator hOperator
              · exact movesTo_next hRest

end Scanner

end Namesake
