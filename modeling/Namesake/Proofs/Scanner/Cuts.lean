import Namesake.Proofs.Scanner.Placement

/-
  How a text that is cut at the end of a line splits into
  tokens.  The scanner goes through both texts side by side.
  It goes on alike until it is at the end of the cut text; in
  the whole text it then is behind the cut as well, be it
  between two tokens, in a raw string or in a comment.

  Main declarations:
    * `Cursor.IsCut`
    * `Cursor.Crosses`
    * `Scanner.crosses_piece`
    * `Scanner.crosses_step`
    * `Scanner.SplitsAt`
    * `Scanner.exists_splitsAt_tokens`
-/

namespace Namesake

------------------------------------------------------------
-- Places
------------------------------------------------------------

namespace Cursor

variable {q : Bytes} {c d c' d' : Cursor}

/-
  The same place in a cut text and in the whole text, in
  which a line end and `q` follow.
-/
structure IsCut
    (q : Bytes)
    (c d : Cursor) : Prop where
  offset : d.offset = c.offset
  rest : d.rest = c.rest ++ 0x0a :: q
  narrow : d.isWide = false

/- The end of the cut text, and a place behind the cut. -/
structure IsPast
    (n : Nat)
    (c d : Cursor) : Prop where
  rest : c.rest = []
  offset : n ≤ d.offset

/- Two places at which the scanner is at the same time. -/
def Crosses
    (q : Bytes)
    (n : Nat)
    (c d : Cursor) : Prop :=
  IsCut q c d ∨ IsPast n c d

namespace IsCut

/- Before the cut both are at the same place. -/
theorem crosses
    {n : Nat}
    (h : IsCut q c d) :
    Crosses q n c d :=
  Or.inl h

/- At the cut, one text ends and the other has its line feed. -/
theorem code?_of_end
    (h : IsCut q c d)
    (hEnd : c.rest = []) :
    c.code? = none ∧ d.code? = some 0x0a := by
  have hRest : d.rest = 0x0a :: q := by
    rw [h.rest, hEnd]
    rfl
  refine ⟨?_, Number.code?_of_head hRest (by decide)⟩
  rw [code?, hEnd]
  rfl

/- Before the cut both texts go on alike. -/
theorem code?_eq
    (h : IsCut q c d)
    (hRest : c.rest ≠ []) :
    d.code? = c.code? := by
  unfold code? Bytes.firstCode?
  rw [h.rest, Utf8.split?_append_ascii hRest (by decide), Option.map_map]
  rfl

/- What has no line feed does not reach over the cut. -/
theorem startsWith_eq
    (h : IsCut q c d)
    {start : Bytes}
    (hLine : 0x0a ∉ start) :
    d.rest.startsWith start = c.rest.startsWith start := by
  rw [h.rest, Bytes.startsWith_append_of_not_mem hLine]

theorem isWide_eq
    (h : IsCut q c d) :
    c.isWide = false := by
  have hNarrow := h.narrow
  rw [isWide, h.offset, h.startsWith_eq (by decide),
    h.startsWith_eq (by decide)] at hNarrow
  exact hNarrow

/- A place behind the beginning is the same in both texts. -/
theorem of_passes
    {w : Bytes}
    (h : IsCut q c d)
    (hWord : w ≠ [])
    (hCut : c.Passes w c')
    (hWhole : d.Passes w d') :
    IsCut q c' d' := by
  have hPos := List.length_pos_iff.mpr hWord
  have hOffset := h.offset
  have hFirst := hCut.offset
  have hSecond := hWhole.offset
  refine ⟨by omega, ?_, isWide_eq_false (by omega)⟩
  have hRest := h.rest
  rw [hCut.rest, hWhole.rest, List.append_assoc] at hRest
  exact List.append_cancel_left hRest

/- Moving on before the cut stays before it or arrives at it. -/
theorem next
    (h : IsCut q c d)
    (hRest : c.rest ≠ []) :
    IsCut q c.next d.next := by
  cases hSplit : Utf8.split? c.rest with
  | none => exact absurd hSplit (split?_ne_none hRest)
  | some r =>
      have hWhole :
          Utf8.split? d.rest = some (r.1, r.2 ++ 0x0a :: q) := by
        rw [h.rest, Utf8.split?_append_ascii hRest (by decide), hSplit]
        rfl
      refine h.of_passes ?_
        (passes_next hSplit h.isWide_eq)
        (passes_next hWhole h.narrow)
      intro hNil
      have hLess := Utf8.length_of_split? hSplit
      rw [Utf8.eq_bytes_append_of_split? hSplit, hNil,
        List.nil_append] at hLess
      exact Nat.lt_irrefl _ hLess

theorem skip
    {n : Nat}
    (h : IsCut q c d)
    (hPos : 0 < n)
    (hLength : n ≤ c.rest.length) :
    IsCut q (c.skip n) (d.skip n) := by
  have hTake : d.rest.take n = c.rest.take n := by
    rw [h.rest, List.take_append_of_le_length hLength]
  have hWhole : n ≤ d.rest.length := by
    rw [h.rest, List.length_append]
    omega
  refine h.of_passes (w := c.rest.take n) ?_
    (passes_skip hLength) (hTake ▸ passes_skip hWhole)
  intro hNil
  have hShort := congrArg List.length hNil
  rw [List.length_take, List.length_nil] at hShort
  omega

/- What stands between two places is the same, too. -/
theorem between_eq
    (h : IsCut q c d)
    (hNext : IsCut q c' d')
    (hLeads : c.LeadsTo c') :
    Scanner.between d d' = Scanner.between c c' := by
  rcases hLeads with ⟨w, hPasses⟩
  have hWhole : d.Passes w d' := by
    refine ⟨?_, ?_⟩
    · rw [h.rest, hNext.rest, hPasses.rest, List.append_assoc]
    · rw [h.offset, hNext.offset, hPasses.offset]
  rw [hWhole.between_eq, hPasses.between_eq]

/- Before its end the cut text is as far as the whole one. -/
theorem offset_lt
    (h : IsCut q c d)
    (hRest : c.rest ≠ []) :
    d.offset < c.finish := by
  have hPos := List.length_pos_iff.mpr hRest
  rw [h.offset, finish]
  omega

/- Behind the cut text the whole text goes on. -/
theorem isPast
    (h : IsCut q c d)
    (hEnd : c.rest = [])
    (hLeads : d.LeadsTo d') :
    IsPast c.finish c d' := by
  rcases hLeads with ⟨w, hPasses⟩
  have hOffset := hPasses.offset
  have hSame := h.offset
  refine ⟨hEnd, ?_⟩
  rw [finish, hEnd, List.length_nil]
  omega

end IsCut

/-
  Glyphs are passed alike, but those of the whole text may go
  on behind the cut if a line end is one of them.
-/
theorem IsCut.skipWhile_cases
    (p : Nat → Bool)
    (h : IsCut q c d) :
    IsCut q (c.skipWhile p).1 (d.skipWhile p).1 ∨
      p 0x0a = true ∧
        IsPast c.finish (c.skipWhile p).1
          (d.skipWhile p).1 := by
  fun_induction Cursor.skipWhile p c generalizing d with
  | case1 c hEnd =>
      cases hLine : p 0x0a with
      | true =>
          exact Or.inr
            ⟨rfl, h.isPast hEnd (leadsTo_skipWhile p d)⟩
      | false =>
          rw [skipWhile_of_not (h.code?_of_end hEnd).2 hLine]
          exact Or.inl h
  | case2 c hRest hCode =>
      exact absurd hCode (code?_ne_none hRest)
  | case3 c hRest n hCode hp _ =>
      rename_i ih
      have hWhole := (h.code?_eq hRest).trans hCode
      have hBehind : d.rest ≠ [] := rest_ne_nil_of_code? hWhole
      have hNext := ih (h.next hRest)
      rw [(leadsTo_next c).finish_eq] at hNext
      rw [Cursor.skipWhile.eq_def p d]
      simpa [hBehind, hWhole, hp] using hNext
  | case4 c hRest n hCode hp =>
      rw [skipWhile_of_not ((h.code?_eq hRest).trans hCode)
        (Bool.eq_false_iff.mpr hp)]
      exact Or.inl h

/- What stops at a line feed stops at the cut. -/
theorem IsCut.skipWhile
    {p : Nat → Bool}
    (h : IsCut q c d)
    (hLine : p 0x0a = false) :
    IsCut q (c.skipWhile p).1 (d.skipWhile p).1 := by
  rcases h.skipWhile_cases p with hCut | ⟨hPast, _⟩
  · exact hCut
  · rw [hLine] at hPast
    cases hPast

end Cursor

------------------------------------------------------------
-- Literals and Comments
------------------------------------------------------------

namespace Literal

open Cursor

variable {q : Bytes} {c d : Cursor}

/- A line feed is no digit. -/
theorem isCut_digitsTail
    {start base limit count value : Nat}
    (hBase : base ≤ 16)
    (h : IsCut q c d) :
    IsCut q
      (digitsTail start base limit count value c).1
      (digitsTail start base limit count value d).1 := by
  induction count generalizing value c d with
  | zero =>
      simp only [digitsTail]
      split
      · exact h
      · exact h
  | succ count ih =>
      simp only [digitsTail]
      by_cases hEnd : c.rest = []
      · have hLine : ¬ digitOf 0x0a < base :=
          Nat.not_lt.mpr hBase
        rw [(h.code?_of_end hEnd).1, (h.code?_of_end hEnd).2]
        simp only [if_neg hLine]
        exact h
      · rw [h.code?_eq hEnd]
        cases hCode : c.code? with
        | none => exact h
        | some n =>
            simp only
            split
            · exact ih (h.next hEnd)
            · exact h

/- Nor is it part of an escape. -/
theorem isCut_escapeTail
    {quote : UInt8}
    (hQuote : quote ≠ 0x0a)
    (h : IsCut q c d) :
    IsCut q (escapeTail quote c).1 (escapeTail quote d).1 := by
  unfold escapeTail
  by_cases hEnd : c.rest = []
  · -- no escape goes on with a line end
    have hShort : isShortEscape quote 0x0a = false := by
      have hByte : quote.toNat ≠ 0x0a := fun hSame =>
        hQuote (UInt8.toNat_inj.mp hSame)
      simp [isShortEscape, hByte.symm]
    rw [(h.code?_of_end hEnd).1, (h.code?_of_end hEnd).2]
    simp only [hShort]
    exact h
  · have hNext := h.next hEnd
    rw [h.code?_eq hEnd]
    cases hCode : c.code? with
    | none => exact h
    | some n =>
        simp only [h.offset]
        repeat' split
        · exact hNext
        · exact isCut_digitsTail (by decide) h
        · exact isCut_digitsTail (by decide) hNext
        · exact isCut_digitsTail (by decide) hNext
        · exact isCut_digitsTail (by decide) hNext
        · exact h

/- A string literal ends before the line does. -/
theorem isCut_stringTail
    (start : Nat)
    (h : IsCut q c d) :
    IsCut q (stringTail start c).1 (stringTail start d).1 := by
  fun_induction stringTail start c generalizing d with
  | case1 c hEnd =>
      have hLine := (h.code?_of_end hEnd).2
      rw [stringTail.eq_def start d]
      simpa [rest_ne_nil_of_code? hLine, hLine] using h
  | case2 c hRest hCode =>
      exact absurd hCode (code?_ne_none hRest)
  | case3 c hRest hLine =>
      have hWhole := (h.code?_eq hRest).trans hLine
      rw [stringTail.eq_def start d]
      simpa [rest_ne_nil_of_code? hWhole, hWhole] using h
  | case4 c hRest hQuote =>
      have hWhole := (h.code?_eq hRest).trans hQuote
      rw [stringTail.eq_def start d]
      simpa [rest_ne_nil_of_code? hWhole, hWhole] using
        h.next hRest
  | case5 c hRest _ _ hSlash =>
      rename_i ih
      have hWhole := (h.code?_eq hRest).trans hSlash
      have hEscape :=
        isCut_escapeTail (by decide : (0x22 : UInt8) ≠ 0x0a)
          (h.next hRest)
      rw [stringTail.eq_def start d]
      simpa [rest_ne_nil_of_code? hWhole, hWhole] using
        ih hEscape
  | case6 c hRest n hCode hLine hQuote hSlash =>
      rename_i ih
      have hWhole := (h.code?_eq hRest).trans hCode
      rw [stringTail.eq_def start d]
      simpa [rest_ne_nil_of_code? hWhole, hWhole, hLine,
        hQuote, hSlash] using ih (h.next hRest)

/- A raw string literal may go on behind the line. -/
theorem crosses_rawTail
    (start : Nat)
    (h : IsCut q c d) :
    Crosses q c.finish
      (rawTail start c).1 (rawTail start d).1 := by
  fun_induction rawTail start c generalizing d with
  | case1 c hEnd =>
      exact Or.inr (h.isPast hEnd (leadsTo_rawTail start d))
  | case2 c hRest hQuote =>
      have hWhole := (h.code?_eq hRest).trans hQuote
      rw [rawTail.eq_def start d]
      simpa [rest_ne_nil_of_code? hWhole, hWhole] using
        (h.next hRest).crosses
  | case3 c hRest hOther =>
      rename_i ih
      have hBehind : d.rest ≠ [] := by simp [h.rest]
      have hWhole : d.code? ≠ some 0x60 := by
        rw [h.code?_eq hRest]
        exact hOther
      have hNext := ih (h.next hRest)
      rw [(leadsTo_next c).finish_eq] at hNext
      rw [rawTail.eq_def start d]
      simpa [hBehind, hWhole] using hNext

end Literal

/- A block comment may go on behind the line, too. -/
theorem Comment.crosses_blockTail
    {q : Bytes}
    {c d : Cursor}
    (start : Nat)
    (h : Cursor.IsCut q c d) :
    Cursor.Crosses q c.finish
      (blockTail start c).1 (blockTail start d).1 := by
  fun_induction blockTail start c generalizing d with
  | case1 c hEnd =>
      exact Or.inr (h.isPast hEnd (leadsTo_blockTail start d))
  | case2 c hRest hStar =>
      have hBehind : d.rest ≠ [] := by simp [h.rest]
      have hWhole := h.startsWith_eq
        (by decide : (0x0a : UInt8) ∉ [0x2a, 0x2f])
      have hTwo := (List.isPrefixOf_iff_prefix.mp hStar).length_le
      rw [blockTail.eq_def start d]
      simpa [hBehind, hWhole, hStar] using
        (h.skip Nat.two_pos hTwo).crosses
  | case3 c hRest hOther =>
      rename_i ih
      have hBehind : d.rest ≠ [] := by simp [h.rest]
      have hWhole := h.startsWith_eq
        (by decide : (0x0a : UInt8) ∉ [0x2a, 0x2f])
      have hNext := ih (h.next hRest)
      rw [(Cursor.leadsTo_next c).finish_eq] at hNext
      rw [blockTail.eq_def start d]
      simpa [hBehind, hWhole, hOther] using hNext

------------------------------------------------------------
-- Tokens
------------------------------------------------------------

namespace Scanner

open Cursor

variable {q : Bytes} {c d : Cursor}

/-
  The kinds of tokens that cannot be found out of place: no
  number, no character literal and no stray glyph.
-/
def isPlain : TokenKind → Bool
  | .illegal | .int | .float | .imag | .char => false
  | _ => true

theorem isPlain_number
    (c : Cursor) :
    isPlain (number c).kind = false := by
  simp only [number, Number.scan]
  repeat' split
  all_goals rfl

theorem startsNumber_eq
    (h : IsCut q c d)
    (hRest : c.rest ≠ []) :
    startsNumber d.rest = startsNumber c.rest := by
  rw [h.rest]
  rcases hText : c.rest with _ | ⟨b, _ | ⟨b', s⟩⟩
  · exact absurd hText hRest
  · simp [startsNumber, isAsciiDigit]
  · rfl

theorem startsComment_eq
    (h : IsCut q c d) :
    startsComment d.rest = startsComment c.rest := by
  unfold startsComment
  rw [h.startsWith_eq (by decide), h.startsWith_eq (by decide)]

theorem operator?_eq
    (h : IsCut q c d) :
    operator? d.rest = operator? c.rest := by
  have hLine :
      ∀ k ∈ operators, 0x0a ∉ utf8 k.spelling := by
    decide
  unfold operator?
  revert hLine
  generalize operators = kinds
  intro hLine
  induction kinds with
  | nil => rfl
  | cons k kinds ih =>
      rw [List.forall_mem_cons] at hLine
      rw [List.find?_cons, List.find?_cons,
        h.startsWith_eq hLine.1, ih hLine.2]

/- Two tokens that were read side by side. -/
structure PiecesCross
    (q : Bytes)
    (n : Nat)
    (p r : Piece) : Prop where
  kind : r.kind = p.kind
  ends :
    (IsCut q p.cursor r.cursor ∧ r.text = p.text) ∨
      IsPast n p.cursor r.cursor

/- A word ends at the cut at the latest. -/
theorem crosses_word
    (h : IsCut q c d) :
    PiecesCross q c.finish (word c) (word d) := by
  have hCut : IsCut q (word c).cursor (word d).cursor :=
    h.skipWhile (by decide)
  have hLeads : c.LeadsTo (word c).cursor :=
    leadsTo_skipWhile isNamePart c
  have hText : (word d).text = (word c).text :=
    h.between_eq hCut hLeads
  refine ⟨?_, Or.inl ⟨hCut, hText⟩⟩
  exact congrArg TokenKind.ofWord hText

/- A string ends there, too, if it is not closed before. -/
theorem crosses_string
    (h : IsCut q c d)
    (hRest : c.rest ≠ []) :
    PiecesCross q c.finish (string c) (string d) := by
  have hQuote :=
    h.skip Nat.one_pos (List.length_pos_iff.mpr hRest)
  have hCut : IsCut q (string c).cursor (string d).cursor := by
    have hTail := Literal.isCut_stringTail c.offset hQuote
    simpa only [string, h.offset] using hTail
  have hLeads : c.LeadsTo (string c).cursor :=
    (movesTo_skip_one hRest).leadsTo.trans
      (Literal.leadsTo_stringTail _ _)
  exact ⟨rfl, Or.inl ⟨hCut, h.between_eq hCut hLeads⟩⟩

/- A raw string is the one literal that may go on behind it. -/
theorem crosses_rawString
    (h : IsCut q c d)
    (hRest : c.rest ≠ []) :
    PiecesCross q c.finish (rawString c) (rawString d) := by
  have hMoves := movesTo_skip_one hRest
  have hQuote :=
    h.skip Nat.one_pos (List.length_pos_iff.mpr hRest)
  have hLeads : c.LeadsTo (rawString c).cursor :=
    hMoves.leadsTo.trans (Literal.leadsTo_rawTail _ _)
  have hTail := Literal.crosses_rawTail c.offset hQuote
  rw [hMoves.leadsTo.finish_eq] at hTail
  have hEnds :
      Crosses q c.finish (rawString c).cursor
        (rawString d).cursor := by
    simpa only [rawString, h.offset] using hTail
  refine ⟨rfl, ?_⟩
  rcases hEnds with hCut | hPast
  · exact Or.inl ⟨hCut, congrArg Literal.withoutReturns
      (h.between_eq hCut hLeads)⟩
  · exact Or.inr hPast

/- A line comment ends at the cut, a block comment may not. -/
theorem crosses_comment
    (h : IsCut q c d)
    (hStart : startsComment c.rest = true) :
    PiecesCross q c.finish (comment c) (comment d) := by
  have hTwo := two_le_length_of_startsComment hStart
  have hMoves := movesTo_skip Nat.two_pos hTwo
  have hBody := h.skip Nat.two_pos hTwo
  have hBlock :=
    h.startsWith_eq (by decide : (0x0a : UInt8) ∉ [0x2f, 0x2a])
  have hLeads := (movesTo_comment hStart).leadsTo
  have hEnds :
      Crosses q c.finish (comment c).cursor
        (comment d).cursor := by
    unfold comment
    simp only [hBlock, h.offset]
    split
    · have hTail :=
        Comment.crosses_blockTail c.offset hBody
      rw [hMoves.leadsTo.finish_eq] at hTail
      exact hTail
    · exact (hBody.skipWhile (by decide)).crosses
  refine ⟨rfl, ?_⟩
  rcases hEnds with hCut | hPast
  · exact Or.inl ⟨hCut, h.between_eq hCut hLeads⟩
  · exact Or.inr hPast

/- No operator has a line feed in it. -/
theorem crosses_operator
    {kind : TokenKind}
    (h : IsCut q c d)
    (hKind : operator? c.rest = some kind) :
    PiecesCross q c.finish (operator kind c)
      (operator kind d) := by
  have hMem : kind ∈ operators :=
    List.mem_of_find?_eq_some hKind
  have hStarts := List.find?_some hKind
  have hCut :=
    h.skip (length_spelling_pos hMem)
      (List.isPrefixOf_iff_prefix.mp hStarts).length_le
  exact ⟨rfl, Or.inl ⟨hCut, rfl⟩⟩

/- Each token is read alike in both texts. -/
theorem crosses_piece
    {code : Nat}
    (h : IsCut q c d)
    (hCode : c.code? = some code)
    (hPlain : isPlain (piece d code).kind = true) :
    PiecesCross q c.finish (piece c code) (piece d code) := by
  have hRest := rest_ne_nil_of_code? hCode
  unfold piece at hPlain ⊢
  rw [startsNumber_eq h hRest, startsComment_eq h,
    operator?_eq h] at hPlain ⊢
  split
  · rename_i hStart
    exact crosses_word h
  · rename_i hStart
    rw [if_neg hStart] at hPlain
    split
    · rename_i hNumber
      rw [if_pos hNumber, isPlain_number] at hPlain
      cases hPlain
    · rename_i hNumber
      rw [if_neg hNumber] at hPlain
      split
      · exact crosses_string h hRest
      · rename_i hQuote
        rw [if_neg hQuote] at hPlain
        split
        · rename_i hTick
          rw [if_pos hTick] at hPlain
          cases hPlain
        · rename_i hTick
          rw [if_neg hTick] at hPlain
          split
          · exact crosses_rawString h hRest
          · rename_i hBack
            rw [if_neg hBack] at hPlain
            split
            · rename_i hComment
              exact crosses_comment h hComment
            · rename_i hComment
              rw [if_neg hComment] at hPlain
              split
              · rename_i hOperator
                exact crosses_operator h hOperator
              · rename_i hNone
                rw [hNone] at hPlain
                cases hPlain

------------------------------------------------------------
-- States
------------------------------------------------------------

/- The same state, in a cut text and in the whole text. -/
structure State.IsCut
    (q : Bytes)
    (s u : State) : Prop where
  cursor : Cursor.IsCut q s.cursor u.cursor
  implies : u.implies = s.implies
  pending : u.pending = s.pending

/- Two states that the scanner reaches at the same time. -/
def State.Crosses
    (q : Bytes)
    (n : Nat)
    (s u : State) : Prop :=
  State.IsCut q s u ∨ IsPast n s.cursor u.cursor

/- What follows a token is decided by its kind and its text. -/
theorem crosses_afterPiece
    {implies : Bool}
    {n : Nat}
    {p r : Piece}
    (h : Cursor.IsCut q c d)
    (hPieces : PiecesCross q n p r) :
    State.Crosses q n
      (afterPiece implies c p).2 (afterPiece implies d r).2 := by
  rcases hPieces.ends with ⟨hCut, hText⟩ | hPast
  · refine Or.inl ⟨?_, ?_, ?_⟩
    · rw [cursor_afterPiece, cursor_afterPiece]
      exact hCut
    · unfold afterPiece
      simp only [hPieces.kind, hText, h.offset]
      repeat' split
      all_goals rfl
    · unfold afterPiece
      simp only [hPieces.kind, hText, h.offset]
      repeat' split
      all_goals rfl
  · refine Or.inr ?_
    rw [cursor_afterPiece, cursor_afterPiece]
    exact hPast

/- Is this a parenthesis? -/
def isParen : TokenKind → Bool
  | .leftParen | .rightParen => true
  | _ => false

/-
  What one step does in both texts.  It reads tokens of one
  kind, parentheses only before the cut; or the cut text ends
  while the next token of the whole text is behind the cut.
-/
inductive StepsCross
    (q : Bytes)
    (n : Nat)
    (s u : State) : Prop where
  | same
      (hKind :
        (step u).1.token.kind = (step s).1.token.kind)
      (hBefore :
        isParen (step u).1.token.kind = true →
          (step u).1.token.offset < n)
      (hNext : State.Crosses q n (step s).2 (step u).2)
  | ended
      (hEof : (step s).1.token.kind = .eof)
      (hToken : n ≤ (step u).1.token.offset)
      (hNext : n ≤ (step u).2.cursor.offset)

/- A step does not go back behind the blanks. -/
theorem le_offset_step
    {u : State}
    {n : Nat}
    (hPending : u.pending = none)
    (hBlank : n ≤ u.behindBlanks.1.offset) :
    n ≤ (step u).1.token.offset ∧
      n ≤ (step u).2.cursor.offset := by
  cases hCode : u.behindBlanks.1.code? with
  | none =>
      rw [step_of_end hPending hCode]
      simp only
      split
      · exact ⟨hBlank, hBlank⟩
      · exact ⟨hBlank, hBlank⟩
  | some code =>
      by_cases hLine : code = 0x0a
      · rw [hLine] at hCode
        rw [step_of_lineEnd hPending hCode]
        have hNext := leadsTo_next u.behindBlanks.1
        exact ⟨hBlank, Nat.le_trans hBlank hNext.offset_mono⟩
      · have hMoves := (piece_movesTo hCode).leadsTo
        rw [step_of_piece hPending hCode hLine]
        simp only [offset_afterPiece, cursor_afterPiece]
        exact ⟨hBlank, Nat.le_trans hBlank hMoves.offset_mono⟩

/- One step, while both texts are before the cut. -/
theorem crosses_step_of_isCut
    {s u : State}
    (h : State.IsCut q s u)
    (hPending : s.pending = none)
    (hBlank :
      Cursor.IsCut q s.behindBlanks.1 u.behindBlanks.1)
    (hPlain : isPlain (step u).1.token.kind = true) :
    StepsCross q s.cursor.finish s u := by
  have hFinish : s.behindBlanks.1.finish = s.cursor.finish :=
    (leadsTo_skipWhile _ _).finish_eq
  have hWhole := h.pending.trans hPending
  by_cases hEnd : s.behindBlanks.1.rest = []
  · have hCodes := hBlank.code?_of_end hEnd
    have hPast :=
      hBlank.isPast hEnd (leadsTo_next u.behindBlanks.1)
    rw [hFinish] at hPast
    have hStep := step_of_end hPending hCodes.1
    have hOther := step_of_lineEnd hWhole hCodes.2
    cases hImplies : s.implies with
    | true =>
        rw [hImplies, if_pos rfl] at hStep
        apply StepsCross.same
        · rw [hStep, hOther]
          rfl
        · rw [hOther]
          intro hParen
          cases hParen
        · rw [hStep, hOther]
          exact Or.inr hPast
    | false =>
        rw [hImplies, if_neg Bool.false_ne_true] at hStep
        have hBehind :=
          (hBlank.isPast hEnd (LeadsTo.refl _)).offset
        rw [hFinish] at hBehind
        have hLater := le_offset_step hWhole hBehind
        refine StepsCross.ended ?_ hLater.1 hLater.2
        rw [hStep]
  · cases hCode : s.behindBlanks.1.code? with
    | none => exact absurd hCode (code?_ne_none hEnd)
    | some code =>
        have hSame := (hBlank.code?_eq hEnd).trans hCode
        by_cases hLine : code = 0x0a
        · rw [hLine] at hCode hSame
          have hStep := step_of_lineEnd hPending hCode
          have hOther := step_of_lineEnd hWhole hSame
          apply StepsCross.same
          · rw [hStep, hOther]
            rfl
          · rw [hOther]
            intro hParen
            cases hParen
          · rw [hStep, hOther]
            exact Or.inl ⟨hBlank.next hEnd, rfl, rfl⟩
        · have hStep := step_of_piece hPending hCode hLine
          have hOther := step_of_piece hWhole hSame hLine
          simp only at hStep hOther
          rw [hOther, kind_afterPiece] at hPlain
          have hPieces := crosses_piece hBlank hCode hPlain
          rw [hFinish] at hPieces
          have hOffset := hBlank.offset_lt hEnd
          rw [hFinish] at hOffset
          apply StepsCross.same
          · rw [hStep, hOther, kind_afterPiece,
              kind_afterPiece, hPieces.kind]
          · rw [hOther, offset_afterPiece]
            exact fun _ => hOffset
          · rw [hStep, hOther, h.implies]
            exact crosses_afterPiece hBlank hPieces

/- Each step reads both texts alike until the cut. -/
theorem crosses_step
    {s u : State}
    (h : State.IsCut q s u)
    (hPlain : isPlain (step u).1.token.kind = true) :
    StepsCross q s.cursor.finish s u := by
  cases hPending : s.pending with
  | some n =>
      have hWhole := h.pending.trans hPending
      apply StepsCross.same
      · rw [step_of_pending hPending, step_of_pending hWhole]
      · rw [step_of_pending hWhole]
        intro hParen
        cases hParen
      · rw [step_of_pending hPending, step_of_pending hWhole]
        exact Or.inl ⟨h.cursor, h.implies, rfl⟩
  | none =>
      have hWhole := h.pending.trans hPending
      have hBlanks :
          u.behindBlanks =
            u.cursor.skipWhile (isBlank s.implies) := by
        rw [State.behindBlanks, h.implies]
      rcases h.cursor.skipWhile_cases (isBlank s.implies) with
        hCut | ⟨hLine, hPast⟩
      · rw [← hBlanks] at hCut
        exact crosses_step_of_isCut h hPending hCut hPlain
      · rw [← hBlanks] at hPast
        have hLater := le_offset_step hWhole hPast.offset
        refine StepsCross.ended ?_ hLater.1 hLater.2
        have hNone : s.behindBlanks.1.code? = none := by
          rw [code?, State.behindBlanks, hPast.rest]
          rfl
        have hImplies : s.implies = false := by
          simpa [isBlank] using hLine
        rw [step_of_end hPending hNone, hImplies]
        rfl

------------------------------------------------------------
-- All Tokens
------------------------------------------------------------

/- At the end of a text nothing more is written. -/
theorem kind_of_mem_tokensFrom_end
    {s : State}
    {t : Lexed}
    (hEnd : s.cursor.rest = [])
    (hMem : t ∈ tokensFrom s) :
    t.token.kind = .semicolon ∨ t.token.kind = .eof := by
  have hStep
      {s : State}
      (hEnd : s.cursor.rest = []) :
      ((step s).1.token.kind = .semicolon ∨
          (step s).1.token.kind = .eof) ∧
        (step s).2.cursor.rest = [] := by
    cases hPending : s.pending with
    | some n =>
        rw [step_of_pending hPending]
        exact ⟨Or.inl rfl, hEnd⟩
    | none =>
        rw [step_of_nil hPending hEnd]
        refine ⟨?_, hEnd⟩
        cases s.implies with
        | true => exact Or.inl rfl
        | false => exact Or.inr rfl
  fun_induction tokensFrom s with
  | case1 s _ hEof =>
      rw [List.mem_singleton.mp hMem]
      exact Or.inr hEof
  | case2 s _ _ _ ih =>
      rcases List.mem_cons.mp hMem with rfl | hLater
      · exact (hStep hEnd).1
      · exact ih (hStep hEnd).2 hLater
  | case3 s _ hKind hStuck =>
      exact absurd (weight_step_lt s hKind) hStuck

/- Behind the cut all parentheses are behind the cut. -/
theorem le_offset_of_mem_tokensFrom
    {u : State}
    {t : Lexed}
    {n : Nat}
    (hPast : n ≤ u.cursor.offset)
    (hMem : t ∈ tokensFrom u)
    (hParen : isParen t.token.kind = true) :
    n ≤ t.token.offset := by
  rcases exists_steps_of_mem_tokensFrom hMem with
    ⟨s', s'', hLeads, hSteps⟩
  have hWritten : t.token.isImplied = false := by
    rw [Token.isImplied]
    cases hKind : t.token.kind <;> simp_all [isParen]
  rcases hSteps.exists_place hWritten with
    ⟨c, hPlace, hOffset⟩
  rw [hOffset]
  exact Nat.le_trans hPast (hLeads.trans hPlace).offset_mono

/-
  The tokens of a cut text are those of the whole text up to
  the cut, and nothing more that is written.  A literal or a
  comment that is cut is among them.
-/
structure SplitsAt
    (n : Nat)
    (cut whole : List Token)
    (front back : List Token)
    (tail : List TokenKind) : Prop where
  whole : whole = front ++ back
  cut :
    cut.map Token.kind = front.map Token.kind ++ tail
  ending : ∀ k ∈ tail, k = .semicolon ∨ k = .eof
  before :
    ∀ t ∈ front, isParen t.kind = true → t.offset < n
  behind :
    ∀ t ∈ back, isParen t.kind = true → n ≤ t.offset

/- One more token in front of both texts. -/
theorem SplitsAt.cons
    {n : Nat}
    {cut whole front back : List Token}
    {tail : List TokenKind}
    {t t' : Token}
    (h : SplitsAt n cut whole front back tail)
    (hKind : t'.kind = t.kind)
    (hBefore : isParen t'.kind = true → t'.offset < n) :
    SplitsAt n (t :: cut) (t' :: whole) (t' :: front) back
      tail := by
  refine ⟨?_, ?_, h.ending, ?_, h.behind⟩
  · rw [h.whole]
    rfl
  · rw [List.map_cons, h.cut, List.map_cons, hKind]
    rfl
  · rw [List.forall_mem_cons]
    exact ⟨hBefore, h.before⟩

/- From the cut on the two texts have nothing in common. -/
theorem splitsAt_of_isPast
    {n : Nat}
    {s u : State}
    (h : IsPast n s.cursor u.cursor) :
    SplitsAt n
      ((tokensFrom s).map Lexed.token)
      ((tokensFrom u).map Lexed.token)
      [] ((tokensFrom u).map Lexed.token)
      ((tokensFrom s).map fun t => t.token.kind) := by
  refine ⟨rfl, ?_, ?_, by simp, ?_⟩
  · rw [List.map_map]
    rfl
  · intro k hMem
    rcases List.mem_map.mp hMem with ⟨t, hToken, rfl⟩
    exact kind_of_mem_tokensFrom_end h.rest hToken
  · intro t hMem hParen
    rcases List.mem_map.mp hMem with ⟨lexed, hToken, rfl⟩
    exact le_offset_of_mem_tokensFrom h.offset hToken hParen

/- Nor have they if the cut text ends here. -/
theorem splitsAt_of_eof
    {n : Nat}
    {s : State}
    {whole : List Token}
    (hEof : (step s).1.token.kind = .eof)
    (hBehind :
      ∀ t ∈ whole, isParen t.kind = true → n ≤ t.offset) :
    SplitsAt n ((tokensFrom s).map Lexed.token) whole
      [] whole [.eof] := by
  refine ⟨rfl, ?_, by simp, by simp, hBehind⟩
  rw [tokensFrom_of_eof hEof, List.map_singleton,
    List.map_singleton, hEof]
  rfl

/-
  By induction on the longer text, up to the first token that
  ends behind the cut.
-/
theorem exists_splitsAt_tokensFrom
    {s u : State}
    (h : State.IsCut q s u)
    (hPlain :
      ∀ t ∈ tokensFrom u, isPlain t.token.kind = true) :
    ∃ front back tail,
      SplitsAt s.cursor.finish
        ((tokensFrom s).map Lexed.token)
        ((tokensFrom u).map Lexed.token) front back tail := by
  fun_induction tokensFrom u generalizing s with
  | case1 u r =>
      rename_i hEof
      have hEnd : (step s).1.token.kind = .eof := by
        rcases crosses_step h (hPlain _ List.mem_cons_self) with
          ⟨hKind, _, _⟩ | ⟨hEnd, _, _⟩
        · exact hKind.symm.trans hEof
        · exact hEnd
      refine ⟨_, _, _, splitsAt_of_eof hEnd ?_⟩
      intro t hMem hParen
      rw [List.map_singleton, List.mem_singleton] at hMem
      rw [hMem, hEof] at hParen
      cases hParen
  | case2 u r =>
      rename_i hKind _ ih
      rw [List.forall_mem_cons] at hPlain
      rw [List.map_cons]
      rcases crosses_step h hPlain.1 with
        ⟨hSame, hBefore, hNext⟩ | ⟨hEnd, hToken, hNext⟩
      · have hMore : (step s).1.token.kind ≠ .eof := by
          rw [← hSame]
          exact hKind
        have hFinish :=
          (steps_step s).leadsTo.finish_eq
        rw [tokensFrom_of_not_eof hMore, List.map_cons]
        rcases hNext with hCut | hPast
        · rcases ih hCut hPlain.2 with
            ⟨front, back, tail, hSplits⟩
          rw [hFinish] at hSplits
          exact ⟨_, _, _, hSplits.cons hSame hBefore⟩
        · exact ⟨_, _, _,
            (splitsAt_of_isPast hPast).cons hSame hBefore⟩
      · refine ⟨_, _, _, splitsAt_of_eof hEnd ?_⟩
        rw [List.forall_mem_cons]
        refine ⟨fun _ => hToken, ?_⟩
        intro t hMem hParen
        rcases List.mem_map.mp hMem with ⟨lexed, hLexed, rfl⟩
        exact le_offset_of_mem_tokensFrom hNext hLexed hParen
  | case3 u =>
      rename_i hKind hStuck
      exact absurd (weight_step_lt u hKind) hStuck

/- Both texts start alike, if they are not of two-byte units. -/
theorem isCut_start
    {p q : Bytes}
    (hNarrow :
      (Cursor.ofText (p ++ 0x0a :: q)).isWide = false) :
    State.IsCut q (start p).1 (start (p ++ 0x0a :: q)).1 := by
  have hText :
      Cursor.IsCut q (Cursor.ofText p)
        (Cursor.ofText (p ++ 0x0a :: q)) :=
    ⟨rfl, rfl, hNarrow⟩
  unfold start
  by_cases hEnd : (Cursor.ofText p).rest = []
  · have hCodes := hText.code?_of_end hEnd
    simp only [hCodes.1, hCodes.2, reduceCtorEq, if_false]
    exact ⟨hText, rfl, rfl⟩
  · simp only [hText.code?_eq hEnd]
    split
    · exact ⟨hText.next hEnd, rfl, rfl⟩
    · exact ⟨hText, rfl, rfl⟩

/-
  A text without numbers, character literals and stray glyphs
  is cut at the end of a line.  What is scanned up to the cut
  is what the whole text has there.
-/
theorem exists_splitsAt_tokens
    {p q : Bytes}
    (hNarrow :
      (Cursor.ofText (p ++ 0x0a :: q)).isWide = false)
    (hPlain :
      ∀ t ∈ (tokens (p ++ 0x0a :: q)).map Lexed.token,
        isPlain t.kind = true) :
    ∃ front back tail,
      SplitsAt p.length
        ((tokens p).map Lexed.token)
        ((tokens (p ++ 0x0a :: q)).map Lexed.token)
        front back tail := by
  have hFinish : (start p).1.cursor.finish = p.length := by
    rw [(leadsTo_start p).finish_eq]
    simp [finish, ofText]
  rw [map_token_tokens] at hPlain
  have hSplits :=
    exists_splitsAt_tokensFrom (isCut_start hNarrow)
      fun t hMem => hPlain t.token (List.mem_map_of_mem hMem)
  rw [hFinish] at hSplits
  rw [map_token_tokens, map_token_tokens]
  exact hSplits

end Scanner

end Namesake
