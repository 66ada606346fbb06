import Mathlib.Data.List.TakeDrop
import Namesake.Proofs.Scanner.Extent
import Namesake.Proofs.Text.Bytes

/-
  Where faults are reported.  Every fault that the scanner
  finds stands inside the text or right at its end.

  Main declarations:
    * `Cursor.finish`
    * `Fault.AllWithin`
    * `Scanner.allWithin_piece`
-/

namespace Namesake

------------------------------------------------------------
-- Offsets Inside a Text
------------------------------------------------------------

namespace Fault

/- No fault of the list is behind the offset. -/
def AllWithin
    (n : Nat)
    (faults : List Fault) : Prop :=
  ∀ f ∈ faults, f.offset ≤ n

namespace AllWithin

theorem nil
    (n : Nat) :
    AllWithin n [] := by
  simp [AllWithin]

theorem single
    {n offset : Nat}
    (cause : Cause)
    (h : offset ≤ n) :
    AllWithin n [⟨offset, cause⟩] := by
  simpa [AllWithin] using h

/- Two lists of faults are bounded together. -/
theorem append
    {n : Nat}
    {left right : List Fault}
    (hLeft : AllWithin n left)
    (hRight : AllWithin n right) :
    AllWithin n (left ++ right) := by
  intro f hMem
  rcases List.mem_append.mp hMem with hMem | hMem
  · exact hLeft f hMem
  · exact hRight f hMem

/- A fault that is reported under a condition. -/
theorem ite
    {n offset : Nat}
    {p : Prop}
    [Decidable p]
    (cause : Cause)
    (h : offset ≤ n) :
    AllWithin n (if p then [⟨offset, cause⟩] else []) := by
  split
  · exact single cause h
  · exact nil n

end AllWithin

end Fault

open Fault

namespace Cursor

/- The offset of the end of the text. -/
def finish
    (c : Cursor) : Nat :=
  c.offset + c.rest.length

theorem offset_le_finish
    (c : Cursor) :
    c.offset ≤ c.finish :=
  Nat.le_add_right ..

/- All places of a text see the same end. -/
theorem LeadsTo.finish_eq
    {c d : Cursor}
    (h : c.LeadsTo d) :
    d.finish = c.finish := by
  rcases h with ⟨w, hPasses⟩
  simp only [finish, hPasses.rest, hPasses.offset,
    List.length_append]
  omega

/- An offset in the text is in it from everywhere. -/
theorem LeadsTo.le_finish
    {c d : Cursor}
    {n : Nat}
    (h : c.LeadsTo d)
    (hInside : n ≤ c.finish) :
    n ≤ d.finish := by
  rw [h.finish_eq]
  exact hInside

/- A place that is reached is in the text. -/
theorem LeadsTo.offset_le
    {c d : Cursor}
    (h : c.LeadsTo d) :
    d.offset ≤ c.finish := by
  rw [← h.finish_eq]
  exact d.offset_le_finish

/- What is reported from a later place on is in the text. -/
theorem LeadsTo.allWithin
    {c d : Cursor}
    {faults : List Fault}
    (h : c.LeadsTo d)
    (hLater : AllWithin d.finish faults) :
    AllWithin c.finish faults := by
  rw [← h.finish_eq]
  exact hLater

/- The bytes between two places are all in the text. -/
theorem length_between_le
    (c d : Cursor) :
    c.offset + (Scanner.between c d).length ≤ c.finish := by
  simp only [Scanner.between, finish, List.length_take]
  omega

------------------------------------------------------------
-- Single Moves
------------------------------------------------------------

/- A place is blamed for what stands there, not behind it. -/
theorem allWithin_arrive
    (c : Cursor) :
    AllWithin c.finish c.arrive := by
  have hHere := c.offset_le_finish
  unfold arrive
  split
  · exact AllWithin.nil _
  · split
    · exact AllWithin.single _ hHere
    · exact AllWithin.single _ hHere
  · split
    · exact AllWithin.single _ hHere
    · split
      · exact AllWithin.single _ hHere
      · exact AllWithin.nil _

theorem LeadsTo.allWithin_arrive
    {c d : Cursor}
    (h : c.LeadsTo d) :
    AllWithin c.finish d.arrive :=
  h.allWithin d.allWithin_arrive

/- A move reports on its goal, then the rest of the scan does. -/
theorem LeadsTo.allWithin_arrive_append
    {c d : Cursor}
    {faults : List Fault}
    (h : c.LeadsTo d)
    (hLater : AllWithin d.finish faults) :
    AllWithin c.finish (d.arrive ++ faults) :=
  h.allWithin_arrive.append (h.allWithin hLater)

/- Each glyph that is passed is blamed where it stands. -/
theorem allWithin_skipWhile
    (p : Nat → Bool)
    (c : Cursor) :
    AllWithin c.finish (c.skipWhile p).2 := by
  fun_induction skipWhile p c with
  | case1 | case2 | case4 => exact AllWithin.nil _
  | case3 c _ _ _ _ _ ih =>
      exact (leadsTo_next c).allWithin_arrive_append ih

end Cursor

------------------------------------------------------------
-- Literals and Comments
------------------------------------------------------------

namespace Literal

open Cursor

/- A digit is blamed where it stands, a value where it starts. -/
theorem allWithin_digitsTail
    {start : Nat}
    (base limit count value : Nat)
    {c : Cursor}
    (hStart : start ≤ c.finish) :
    AllWithin c.finish
      (digitsTail start base limit count value c).2 := by
  have hHere := c.offset_le_finish
  fun_induction digitsTail start base limit count value c with
  | case1 => exact AllWithin.single _ hStart
  | case2 => exact AllWithin.nil _
  | case3 => exact AllWithin.single _ hHere
  | case4 _ _ c _ _ _ _ ih =>
      have hNext := leadsTo_next c
      have hLater :=
        ih (hNext.le_finish hStart) (offset_le_finish _)
      exact hNext.allWithin_arrive_append hLater
  | case5 => exact AllWithin.single _ hHere

/- An escape is blamed behind its backslash or at a digit. -/
theorem allWithin_escapeTail
    (quote : UInt8)
    (c : Cursor) :
    AllWithin c.finish (escapeTail quote c).2 := by
  have hHere := c.offset_le_finish
  have hNext := leadsTo_next c
  have hBehind (base limit count value : Nat) :
      AllWithin c.finish
        (c.next.arrive ++
          (digitsTail c.offset base limit count value
            c.next).2) := by
    have hDigits :=
      allWithin_digitsTail base limit count value
        (hNext.le_finish hHere)
    exact hNext.allWithin_arrive_append hDigits
  unfold escapeTail
  split
  · exact AllWithin.single _ hHere
  · simp only
    repeat' split
    · exact hNext.allWithin_arrive
    · exact allWithin_digitsTail _ _ _ _ hHere
    · exact hBehind _ _ _ _
    · exact hBehind _ _ _ _
    · exact hBehind _ _ _ _
    · exact AllWithin.single _ hHere

/- The same with the backslash before it. -/
theorem allWithin_escape
    (quote : UInt8)
    (c : Cursor) :
    AllWithin c.finish
      (c.next.arrive ++ (escapeTail quote c.next).2) :=
  (leadsTo_next c).allWithin_arrive_append
    (allWithin_escapeTail quote c.next)

/-
  A literal is blamed for its glyphs, and at its start if it
  is not closed.
-/
theorem allWithin_stringTail
    {start : Nat}
    {c : Cursor}
    (hStart : start ≤ c.finish) :
    AllWithin c.finish (stringTail start c).2 := by
  fun_induction stringTail start c with
  | case1 | case2 | case3 => exact AllWithin.single _ hStart
  | case4 c => exact (leadsTo_next c).allWithin_arrive
  | case5 c _ _ _ _ _ _ ih =>
      have hEscape :=
        (leadsTo_next c).trans (leadsTo_escapeTail 0x22 _)
      have hLater := ih (hEscape.le_finish hStart)
      exact (allWithin_escape 0x22 c).append
        (hEscape.allWithin hLater)
  | case6 c _ _ _ _ _ _ _ ih =>
      have hNext := leadsTo_next c
      have hLater := ih (hNext.le_finish hStart)
      exact hNext.allWithin_arrive_append hLater

theorem allWithin_rawTail
    {start : Nat}
    {c : Cursor}
    (hStart : start ≤ c.finish) :
    AllWithin c.finish (rawTail start c).2 := by
  fun_induction rawTail start c with
  | case1 => exact AllWithin.single _ hStart
  | case2 c => exact (leadsTo_next c).allWithin_arrive
  | case3 c _ _ _ ih =>
      have hNext := leadsTo_next c
      have hLater := ih (hNext.le_finish hStart)
      exact hNext.allWithin_arrive_append hLater

theorem allWithin_charTail
    {start : Nat}
    (count : Nat)
    (valid : Bool)
    {c : Cursor}
    (hStart : start ≤ c.finish) :
    AllWithin c.finish (charTail start count valid c).2 := by
  fun_induction charTail start count valid c with
  | case1 | case2 | case3 => exact AllWithin.ite _ hStart
  | case4 _ _ c =>
      exact (leadsTo_next c).allWithin_arrive.append
        (AllWithin.ite _ hStart)
  | case5 _ _ c _ _ _ _ _ _ _ ih =>
      have hEscape :=
        (leadsTo_next c).trans (leadsTo_escapeTail 0x27 _)
      have hLater := ih (hEscape.le_finish hStart)
      exact (allWithin_escape 0x27 c).append
        (hEscape.allWithin hLater)
  | case6 _ _ c _ _ _ _ _ _ _ ih =>
      have hNext := leadsTo_next c
      have hLater := ih (hNext.le_finish hStart)
      exact hNext.allWithin_arrive_append hLater

end Literal

/- So is a comment that is not closed. -/
theorem Comment.allWithin_blockTail
    {start : Nat}
    {c : Cursor}
    (hStart : start ≤ c.finish) :
    AllWithin c.finish (blockTail start c).2 := by
  fun_induction blockTail start c with
  | case1 => exact AllWithin.single _ hStart
  | case2 c _ hEnd =>
      exact (Cursor.movesTo_skip (by decide)
        (List.isPrefixOf_iff_prefix.mp
          hEnd).length_le).leadsTo.allWithin_arrive
  | case3 c _ _ _ ih =>
      have hNext := Cursor.leadsTo_next c
      have hLater := ih (hNext.le_finish hStart)
      exact hNext.allWithin_arrive_append hLater

------------------------------------------------------------
-- Numbers
------------------------------------------------------------

namespace Number

open Cursor

/- A digit that is too large is one of those that were read. -/
theorem le_of_tooLarge?
    {base offset n : Nat}
    {s : Bytes}
    {b : UInt8}
    (h : tooLarge? base offset s = some (n, b)) :
    n ≤ offset + s.length := by
  fun_induction tooLarge? base offset s with
  | case1 => cases h
  | case2 offset b s =>
      simp only [Option.some.injEq, Prod.mk.injEq] at h
      omega
  | case3 offset b s _ ih =>
      have hLater := ih h
      simp only [List.length_cons]
      omega

/- By induction on the literal, with the index moving along. -/
theorem le_of_badSeparatorFrom?
    {hexadecimal : Bool}
    {index i : Nat}
    {before : Before}
    {s : Bytes}
    (h : badSeparatorFrom? hexadecimal index before s = some i) :
    i ≤ index + s.length := by
  fun_induction badSeparatorFrom? hexadecimal index before s with
  | case1 index => simp only [Option.some.injEq] at h; omega
  | case2 => cases h
  | case4 index => simp only [Option.some.injEq] at h; omega
  | case6 index => simp only [Option.some.injEq] at h; omega
  | case3 index s ih | case5 index _ _ s _ _ ih
  | case7 index _ _ s _ _ _ ih =>
      have hLater := ih h
      simp only [List.length_cons]
      omega

/- A bad separator is part of the literal. -/
theorem le_of_badSeparator?
    {text : Bytes}
    {i : Nat}
    (h : badSeparator? text = some i) :
    i ≤ text.length := by
  unfold badSeparator? at h
  split at h
  · split at h
    · have hIndex := le_of_badSeparatorFrom? h
      simp only [List.length_cons]
      omega
    · split at h
      · have hIndex := le_of_badSeparatorFrom? h
        simp only [List.length_cons]
        omega
      · simpa using le_of_badSeparatorFrom? h
  · simpa using le_of_badSeparatorFrom? h

theorem allWithin_run
    (base : Nat)
    (c : Cursor) :
    AllWithin c.finish (run base c).faults :=
  allWithin_skipWhile _ _

theorem le_of_tooLarge
    {base n : Nat}
    {c : Cursor}
    {b : UInt8}
    (h : (run base c).tooLarge = some (n, b)) :
    n ≤ c.finish := by
  have hIndex := le_of_tooLarge? h
  simp only [List.length_take] at hIndex
  simp only [finish]
  omega

theorem allWithin_of_fraction
    {f : NumberForm}
    {c : Cursor}
    {r : Run}
    (h : fraction f c = some r) :
    AllWithin c.finish r.faults := by
  unfold fraction at h
  split at h
  · rename_i hPoint
    simp only [Option.some.injEq] at h
    subst h
    have hSkip :=
      (movesTo_skip_one (rest_ne_nil_of_byte? hPoint)).leadsTo
    refine (AllWithin.append ?_ hSkip.allWithin_arrive).append
      (hSkip.allWithin (allWithin_run _ _))
    exact AllWithin.ite _ c.offset_le_finish
  · cases h

/- The exponent is blamed where its digits are missing. -/
theorem allWithin_of_exponent
    {f : NumberForm}
    {c : Cursor}
    {r : Run}
    (h : exponent f c = some r) :
    AllWithin c.finish r.faults := by
  have hEnd := (movesTo_of_exponent h).leadsTo.offset_le
  unfold exponent at h
  split at h
  · cases h
  · rename_i b hLetter
    simp only at h
    split at h
    · simp only [Option.some.injEq] at h
      subst h
      have hSkip :=
        (movesTo_skip_one
          (rest_ne_nil_of_byte? hLetter)).leadsTo
      have hHere := c.offset_le_finish
      have hMantissa :
          AllWithin c.finish
            (if (b = 0x65 || b = 0x45) && f ≠ .decimal &&
                f ≠ .leadingZero then
              [⟨c.offset, .decimalExponent b.toNat⟩]
            else if (b = 0x70 || b = 0x50) &&
                f ≠ .hexadecimal then
              [⟨c.offset, .hexExponent b.toNat⟩]
            else
              []) := by
        split
        · exact AllWithin.single _ hHere
        · exact AllWithin.ite _ hHere
      have hEmpty (b : Bool) (n : Nat) (hn : n ≤ c.finish) :
          AllWithin c.finish
            (if b then [] else [⟨n, .exponentDigits⟩]) := by
        cases b with
        | true => exact AllWithin.nil _
        | false => exact AllWithin.single _ hn
      refine ((hMantissa.append
        (hSkip.allWithin_arrive.append ?_)).append ?_).append
          (hEmpty _ _ hEnd)
      · split
        · rename_i hSigned
          have hSign := hSkip.trans (leadsTo_sign _)
          rw [if_pos hSigned] at hSign
          exact hSign.allWithin_arrive
        · exact AllWithin.nil _
      · exact (hSkip.trans (leadsTo_sign _)).allWithin
          (allWithin_run _ _)
    · cases h

/- What an optional part of a number reports. -/
theorem allWithin_getD
    {n : Nat}
    {part : Option Run}
    (h : ∀ r, part = some r → AllWithin n r.faults) :
    AllWithin n ((part.map Run.faults).getD []) := by
  cases part with
  | none => exact AllWithin.nil n
  | some r => exact h r rfl

/- A number is blamed for its runs of digits, one by one. -/
theorem allWithin_scan
    (c : Cursor) :
    AllWithin c.finish (scan c).2.2 := by
  have hForm := leadsTo_form c
  unfold scan
  simp only
  generalize form c = start at *
  have hWhole :=
    hForm.trans (leadsTo_run start.1.base start.2.1)
  have hWholeFaults :=
    hForm.allWithin (allWithin_run start.1.base start.2.1)
  have hLarge
      {n : Nat}
      {b : UInt8}
      (h : (run start.1.base start.2.1).tooLarge =
        some (n, b)) :
      n ≤ c.finish := by
    rw [← hForm.finish_eq]
    exact le_of_tooLarge h
  generalize run start.1.base start.2.1 = whole at *
  have hFraction :
      AllWithin c.finish
        (((fraction start.1 whole.cursor).map
          Run.faults).getD []) :=
    allWithin_getD fun r hr =>
      hWhole.allWithin (allWithin_of_fraction hr)
  have hMantissa :=
    hWhole.trans
      (leadsTo_getD fun r (hr :
        fraction start.1 whole.cursor = some r) =>
          movesTo_of_fraction hr)
  generalize fraction start.1 whole.cursor = frac at *
  generalize (frac.map Run.cursor).getD whole.cursor = e at *
  have hExponent :
      AllWithin c.finish
        (((exponent start.1 e).map Run.faults).getD []) :=
    allWithin_getD fun r hr =>
      hMantissa.allWithin (allWithin_of_exponent hr)
  have hPower :=
    hMantissa.trans
      (leadsTo_getD fun r (hr :
        exponent start.1 e = some r) =>
          movesTo_of_exponent hr)
  generalize exponent start.1 e = power at *
  generalize (power.map Run.cursor).getD e = p at *
  refine AllWithin.append (AllWithin.append
    (AllWithin.append (AllWithin.append (AllWithin.append
      (AllWithin.append (AllWithin.append (AllWithin.append
        ?_ hWholeFaults) hFraction) ?_) hExponent) ?_) ?_)
          ?_) ?_
  · split
    · exact AllWithin.nil _
    · exact hForm.allWithin_arrive
  · split
    · exact AllWithin.nil _
    · exact AllWithin.single _ hMantissa.offset_le
  · exact AllWithin.ite _ hPower.offset_le
  · split
    · rename_i hImaginary
      exact (hPower.trans (movesTo_skip_one
        (rest_ne_nil_of_byte?
          hImaginary)).leadsTo).allWithin_arrive
    · exact AllWithin.nil _
  · split
    · rename_i hDigit
      exact AllWithin.ite _ (hLarge hDigit)
    · exact AllWithin.nil _
  · split
    · split
      · rename_i hSeparator
        have hIndex := le_of_badSeparator? hSeparator
        refine AllWithin.single _ ?_
        simp only [List.length_take] at hIndex
        simp only [finish]
        omega
      · exact AllWithin.nil _
    · exact AllWithin.nil _

end Number

------------------------------------------------------------
-- Line Marks
------------------------------------------------------------

namespace Comment

/- A colon separates two parts of the text. -/
theorem length_of_lastColon?
    {s before digits : Bytes}
    (h : lastColon? s = some (before, digits)) :
    before.length + 1 ≤ s.length := by
  unfold lastColon? at h
  rw [List.span_eq_takeWhile_dropWhile] at h
  split at h
  · rename_i after b front hSpan
    simp only [Prod.mk.injEq] at hSpan
    simp only [Option.some.injEq, Prod.mk.injEq] at h
    have hLength :
        (s.reverse.dropWhile (· ≠ 0x3a)).length ≤
          s.reverse.length :=
      (List.dropWhile_suffix _).length_le
    rw [hSpan.2, List.length_cons,
      List.length_reverse] at hLength
    rw [← h.1, List.length_reverse]
    exact hLength
  · cases h

/-
  A line mark is blamed for a number, behind one of its
  colons.
-/
theorem allWithin_readMark
    (offset effect : Nat)
    (body : Bytes) :
    AllWithin (offset + body.length)
      (readMark offset effect body).2 := by
  unfold readMark
  split
  · exact AllWithin.nil _
  · rename_i before digits hColon
    have hBefore := length_of_lastColon? hColon
    have hDigits :
        offset + before.length + 1 ≤ offset + body.length := by
      omega
    simp only
    split
    · exact AllWithin.single _ hDigits
    · split
      · rename_i name lineDigits line hLine
        rcases Option.bind_eq_some_iff.mp hLine with
          ⟨r, hName, hNumber⟩
        rcases Option.map_eq_some_iff.mp hNumber with
          ⟨_, _, hEq⟩
        simp only [Prod.mk.injEq] at hEq
        have hInner := length_of_lastColon? hName
        rw [hEq.1] at hInner
        split
        · exact AllWithin.single _ hDigits
        · split
          · exact AllWithin.single _ (by omega)
          · exact AllWithin.nil _
      · split
        · exact AllWithin.single _ hDigits
        · exact AllWithin.nil _

/- A line mark lies inside its comment. -/
theorem allWithin_lineMark
    (start : Cursor)
    (raw : Bytes)
    (last : Cursor) :
    AllWithin (start.offset + raw.length)
      (lineMark start raw last).2 := by
  have hInside
      {opening body part : Bytes}
      (effect : Nat)
      (hOpening : opening.length = 7)
      (hRaw : raw = opening ++ body)
      (hPart : part.length ≤ body.length) :
      AllWithin (start.offset + raw.length)
        (readMark (start.offset + 7) effect part).2 := by
    intro f hMem
    have hBound :=
      allWithin_readMark (start.offset + 7) effect part f hMem
    rw [hRaw, List.length_append]
    omega
  unfold lineMark
  split
  · rename_i body hLine
    split
    · exact hInside _ (by decide)
        (List.append_eq_of_isPrefixOf?_eq_some hLine).symm
        (Bytes.length_trimEnding_le body _)
    · exact AllWithin.nil _
  · split
    · rename_i body hBlock
      split
      · rename_i part hEnd
        exact hInside _ (by decide)
          (List.append_eq_of_isPrefixOf?_eq_some hBlock).symm
          (Bytes.length_le_of_isSuffixOf? hEnd)
      · exact AllWithin.nil _
    · exact AllWithin.nil _

end Comment

------------------------------------------------------------
-- Tokens
------------------------------------------------------------

namespace Scanner

open Cursor

theorem allWithin_comment
    {c : Cursor}
    (h : startsComment c.rest = true) :
    AllWithin c.finish (comment c).faults := by
  have hTwo := two_le_length_of_startsComment h
  have hSkip := (movesTo_skip (by decide) hTwo).leadsTo
  apply hSkip.allWithin_arrive_append
  split
  · apply Comment.allWithin_blockTail
    exact hSkip.le_finish c.offset_le_finish
  · exact allWithin_skipWhile _ _

/- Every token is blamed inside of the text. -/
theorem allWithin_piece
    {c : Cursor}
    {code : Nat}
    (h : c.code? = some code) :
    AllWithin c.finish (piece c code).faults := by
  have hRest := rest_ne_nil_of_code? h
  have hSkip := (movesTo_skip_one hRest).leadsTo
  have hHere := c.offset_le_finish
  have hStart := hSkip.le_finish hHere
  unfold piece
  split
  · exact allWithin_skipWhile _ _
  · split
    · exact Number.allWithin_scan c
    · split
      · exact hSkip.allWithin_arrive_append
          (Literal.allWithin_stringTail hStart)
      · split
        · exact hSkip.allWithin_arrive_append
            (Literal.allWithin_charTail _ _ hStart)
        · split
          · exact hSkip.allWithin_arrive_append
              (Literal.allWithin_rawTail hStart)
          · split
            · rename_i hComment
              exact allWithin_comment hComment
            · split
              · rename_i hOperator
                exact (movesTo_operator
                  hOperator).leadsTo.allWithin_arrive
              · refine (leadsTo_next
                  c).allWithin_arrive.append ?_
                split
                · exact AllWithin.nil _
                · split
                  · exact AllWithin.single _ hHere
                  · exact AllWithin.single _ hHere

end Scanner

end Namesake
