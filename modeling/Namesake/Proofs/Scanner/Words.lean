import Namesake.Proofs.Arguments.Exactness
import Namesake.Proofs.Scanner.Cuts
import Namesake.Proofs.Scanner.Extension

/-
  Words, that is, tokens that are scanned without a fault
  when they stand alone.  Where a blank or the end of the text
  follows a word, the scanner reads it just as it does then.

  Main declarations:
    * `Scanner.samePiece_piece`
    * `Scanner.IsWord`
    * `Scanner.IsWord.reads`
-/

namespace Namesake

------------------------------------------------------------
-- Pieces
------------------------------------------------------------

namespace Scanner

open Cursor

variable {k : Nat} {t : Bytes} {c d : Cursor}

/- A piece without faults, read alone and in a text. -/
structure SamePiece
    (k : Nat)
    (t : Bytes)
    (p p' : Piece) : Prop where
  kind : p'.kind = p.kind
  text : p'.text = p.text
  clean : p'.faults = []
  place : Extends k t p.cursor p'.cursor

/- A blank ends a word. -/
theorem isNamePart_of_isBlank
    {n : Nat}
    (h : isBlank false n = true) :
    isNamePart n = false := by
  simp only [isBlank, Bool.not_false, Bool.and_true,
    Bool.or_eq_true, beq_iff_eq] at h
  rcases h with ((rfl | rfl) | rfl) | rfl
  all_goals decide

theorem samePiece_word
    (h : Extends k t c d)
    (hClean : (word c).faults = []) :
    SamePiece k t (word c) (word d) := by
  have hAlike := h.skipWhile (p := isNamePart)
    fun _ => isNamePart_of_isBlank
  rcases hAlike hClean with ⟨hPlace, hFaults⟩
  have hText : (word d).text = (word c).text :=
    h.between_eq hPlace (leadsTo_skipWhile isNamePart c)
  exact ⟨congrArg TokenKind.ofWord hText, hText, hFaults,
    hPlace⟩

/- A number is read alike if nothing is wrong with it. -/
theorem samePiece_number
    (h : Extends k t c d)
    (hRest : c.rest ≠ [])
    (hNumber : startsNumber c.rest = true)
    (hClean : (number c).faults = []) :
    SamePiece k t (number c) (number d) := by
  rcases Number.alike_scan h hRest hClean with
    ⟨hKind, hPlace, hFaults⟩
  have hLeads := (Number.movesTo_scan hNumber).leadsTo
  exact ⟨hKind, h.between_eq hPlace hLeads, hFaults, hPlace⟩

/-
  A literal is its opening quote and a tail that is read
  alike.
-/
private theorem alike_quote
    (tail : Nat → Cursor → Cursor × List Fault)
    (hTail :
      ∀ start start' {c d : Cursor},
        Extends k t c d →
          Alike k t (tail start c) (tail start' d))
    (h : Extends k t c d)
    (hRest : c.rest ≠ []) :
    Alike k t
      ((tail c.offset (c.skip 1)).1,
        (c.skip 1).arrive ++ (tail c.offset (c.skip 1)).2)
      ((tail d.offset (d.skip 1)).1,
        (d.skip 1).arrive ++ (tail d.offset (d.skip 1)).2) :=
  (h.skip_one hRest).append (hTail c.offset d.offset)

/- The string is closed before anything behind it is read. -/
theorem samePiece_string
    (h : Extends k t c d)
    (hRest : c.rest ≠ [])
    (hClean : (string c).faults = []) :
    SamePiece k t (string c) (string d) := by
  rcases alike_quote Literal.stringTail
      (fun start start' _ _ =>
        Literal.alike_stringTail start start')
      h hRest hClean with
    ⟨hPlace, hFaults⟩
  have hLeads := (movesTo_skip_one hRest).leadsTo.trans
    (Literal.leadsTo_stringTail c.offset (c.skip 1))
  exact ⟨rfl, h.between_eq hPlace hLeads, hFaults, hPlace⟩

theorem samePiece_rawString
    (h : Extends k t c d)
    (hRest : c.rest ≠ [])
    (hClean : (rawString c).faults = []) :
    SamePiece k t (rawString c) (rawString d) := by
  rcases alike_quote Literal.rawTail
      (fun start start' _ _ =>
        Literal.alike_rawTail start start')
      h hRest hClean with
    ⟨hPlace, hFaults⟩
  have hLeads := (movesTo_skip_one hRest).leadsTo.trans
    (Literal.leadsTo_rawTail c.offset (c.skip 1))
  have hText := h.between_eq hPlace hLeads
  exact ⟨rfl, congrArg Literal.withoutReturns hText, hFaults,
    hPlace⟩

theorem samePiece_character
    (h : Extends k t c d)
    (hRest : c.rest ≠ [])
    (hClean : (character c).faults = []) :
    SamePiece k t (character c) (character d) := by
  rcases alike_quote (fun start => Literal.charTail start 0 true)
      (fun start start' _ _ =>
        Literal.alike_charTail start start' 0)
      h hRest hClean with
    ⟨hPlace, hFaults⟩
  have hLeads := (movesTo_skip_one hRest).leadsTo.trans
    (Literal.leadsTo_charTail c.offset 0 true (c.skip 1))
  exact ⟨rfl, h.between_eq hPlace hLeads, hFaults, hPlace⟩

/- No operator has a blank in it. -/
theorem samePiece_operator
    {kind : TokenKind}
    (h : Extends k t c d)
    (hKind : operator? c.rest = some kind)
    (hClean : (operator kind c).faults = []) :
    SamePiece k t (operator kind c) (operator kind d) := by
  have hMem : kind ∈ operators :=
    List.mem_of_find?_eq_some hKind
  have hStarts := List.find?_some hKind
  rcases h.skip (length_spelling_pos hMem)
      (List.isPrefixOf_iff_prefix.mp hStarts).length_le hClean with
    ⟨hPlace, hFaults⟩
  exact ⟨rfl, rfl, hFaults, hPlace⟩

/- A point with a blank behind it starts no number. -/
theorem startsNumber_of_extends
    (h : Extends k t c d)
    (hRest : c.rest ≠ []) :
    startsNumber d.rest = startsNumber c.rest := by
  rw [h.rest]
  rcases hText : c.rest with _ | ⟨b, _ | ⟨b', s⟩⟩
  · exact absurd hText hRest
  · rcases h.cases_behind with rfl | ⟨b', s, rfl, hBlank⟩
    · rfl
    · rcases hBlank with rfl | rfl | rfl | rfl
      all_goals simp [startsNumber, isAsciiDigit]
  · rfl

theorem startsComment_of_extends
    (h : Extends k t c d) :
    startsComment d.rest = startsComment c.rest := by
  unfold startsComment
  rw [h.startsWith_eq (by decide),
    h.startsWith_eq (by decide)]

theorem operator?_of_extends
    (h : Extends k t c d) :
    operator? d.rest = operator? c.rest := by
  have hSpelling :
      ∀ kind ∈ operators, IsSolid (utf8 kind.spelling) := by
    decide
  unfold operator?
  revert hSpelling
  generalize operators = kinds
  intro hSpelling
  induction kinds with
  | nil => rfl
  | cons kind kinds ih =>
      rw [List.forall_mem_cons] at hSpelling
      rw [List.find?_cons, List.find?_cons,
        h.startsWith_eq hSpelling.1, ih hSpelling.2]

/- What starts no token is wrong, but for a byte order mark. -/
private theorem faults_stray_ne_nil
    {code : Nat}
    (hMark : code ≠ 0xfeff) :
    (stray c code).faults ≠ [] := by
  unfold stray
  simp only [hMark, if_false]
  split <;> simp

/- A token of a word is the same token in a text. -/
theorem samePiece_piece
    {code : Nat}
    (h : Extends k t c d)
    (hCode : c.code? = some code)
    (hMark : code ≠ 0xfeff)
    (hKind : (piece c code).kind ≠ .comment)
    (hClean : (piece c code).faults = []) :
    SamePiece k t (piece c code) (piece d code) := by
  have hRest := rest_ne_nil_of_code? hCode
  unfold piece at hKind hClean ⊢
  rw [startsNumber_of_extends h hRest,
    startsComment_of_extends h, operator?_of_extends h]
  split
  · rename_i hStart
    rw [if_pos hStart] at hClean
    exact samePiece_word h hClean
  · rename_i hStart
    rw [if_neg hStart] at hClean hKind
    split
    · rename_i hNumber
      rw [if_pos hNumber] at hClean
      exact samePiece_number h hRest hNumber hClean
    · rename_i hNumber
      rw [if_neg hNumber] at hClean hKind
      split
      · rename_i hQuote
        rw [if_pos hQuote] at hClean
        exact samePiece_string h hRest hClean
      · rename_i hQuote
        rw [if_neg hQuote] at hClean hKind
        split
        · rename_i hTick
          rw [if_pos hTick] at hClean
          exact samePiece_character h hRest hClean
        · rename_i hTick
          rw [if_neg hTick] at hClean hKind
          split
          · rename_i hBack
            rw [if_pos hBack] at hClean
            exact samePiece_rawString h hRest hClean
          · rename_i hBack
            rw [if_neg hBack] at hClean hKind
            split
            · rename_i hComment
              rw [if_pos hComment] at hKind
              exact absurd rfl hKind
            · rename_i hComment
              rw [if_neg hComment] at hClean
              split
              · rename_i hOperator
                rw [hOperator] at hClean
                exact samePiece_operator h hOperator hClean
              · rename_i hNone
                rw [hNone] at hClean
                exact absurd hClean (faults_stray_ne_nil hMark)

/- Line ends imply semicolons; they are not read as such. -/
theorem text_of_semicolon
    {code : Nat}
    (h : (piece c code).kind = .semicolon) :
    (piece c code).text = [0x3b] := by
  unfold piece at h ⊢
  split
  · rename_i hStart
    rw [if_pos hStart] at h
    have hWord : TokenKind.ofWord (word c).text = .semicolon := h
    rcases ofWord_eq_ident_or_mem (word c).text with
      hIdent | hMem
    · rw [hWord] at hIdent
      cases hIdent
    · rw [hWord] at hMem
      exact absurd hMem (by decide)
  · rename_i hStart
    rw [if_neg hStart] at h
    split
    · rename_i hNumber
      rw [if_pos hNumber] at h
      have hPlain := isPlain_number c
      rw [h] at hPlain
      cases hPlain
    · rename_i hNumber
      rw [if_neg hNumber] at h
      repeat' split at h
      all_goals cases h
      -- only the operator is left
      rename_i hQuote hTick hBack hComment _ _
      simp only [hQuote, hTick, hBack, hComment, if_false]
      rfl

------------------------------------------------------------
-- Words
------------------------------------------------------------

/-
  Standing alone, `v` is scanned without a fault, and it is a
  single token.
-/
structure IsWord
    (v : Bytes)
    (kind : TokenKind)
    (text : Bytes) : Prop where
  clean : IsClean v
  single :
    (tokens v).head?.map
        (fun lexed => (lexed.token, lexed.stop)) =
      some (⟨kind, 0, text⟩, v.length)
  written : kind ≠ .comment ∧ kind ≠ .eof

instance
    (v : Bytes)
    (kind : TokenKind)
    (text : Bytes) :
    Decidable (IsWord v kind text) :=
  decidable_of_iff
    ((∀ lexed ∈ tokens v, lexed.faults = []) ∧
      (tokens v).head?.map
          (fun lexed => (lexed.token, lexed.stop)) =
        some (⟨kind, 0, text⟩, v.length) ∧
      (kind ≠ .comment ∧ kind ≠ .eof))
    ⟨fun h => ⟨h.1, h.2.1, h.2.2⟩,
      fun h => ⟨h.clean, h.single, h.written⟩⟩

/- Every run writes the token of its first step. -/
theorem exists_tokensFrom_eq_cons
    (s : State) :
    ∃ rest, tokensFrom s = (step s).1 :: rest := by
  by_cases hEof : (step s).1.token.kind = .eof
  · exact ⟨[], tokensFrom_of_eof hEof⟩
  · exact ⟨_, tokensFrom_of_not_eof hEof⟩

namespace IsWord

variable {v text : Bytes} {kind : TokenKind}

/- The first step on a word reads all of it. -/
theorem step_start
    (h : IsWord v kind text) :
    (start v).2 = [] ∧
      (step (start v).1).1.token = ⟨kind, 0, text⟩ ∧
      (step (start v).1).1.stop = v.length ∧
      (step (start v).1).1.faults = [] := by
  rcases Option.map_eq_some_iff.mp h.single with
    ⟨lexed, hHead, hFirst⟩
  rcases List.head?_eq_some_iff.mp hHead with ⟨rest, hTokens⟩
  rcases Prod.mk.inj hFirst with ⟨hToken, hStop⟩
  have hFaults := h.clean lexed (by simp [hTokens])
  rcases exists_tokensFrom_eq_cons (start v).1 with
    ⟨rest', hFrom⟩
  unfold tokens at hTokens
  simp only [hFrom, List.cons.injEq] at hTokens
  rw [← hTokens.1] at hToken hStop hFaults
  simp only [List.append_eq_nil_iff] at hFaults
  exact ⟨hFaults.1, hToken, hStop, hFaults.2⟩

/- A word does not start with a mark. -/
theorem code?_ne_mark
    (h : IsWord v kind text) :
    (Cursor.ofText v).code? ≠ some 0xfeff := by
  intro hMark
  have hToken := h.step_start.2.1
  have hStart :
      (start v).1 = ⟨(Cursor.ofText v).next, false, none⟩ := by
    simp [start, hMark]
  have hMoves := movesTo_next (rest_ne_nil_of_code? hMark)
  rw [hStart] at hToken
  have hBlank :=
    (leadsTo_skipWhile (isBlank false)
      (Cursor.ofText v).next).offset_mono
  have hBehind := (le_offset_step
    (u := ⟨(Cursor.ofText v).next, false, none⟩) rfl hBlank).1
  rw [hToken] at hBehind
  rcases hMoves with ⟨w, hw, hPasses⟩
  have hPos := List.length_pos_iff.mpr hw
  have hOffset := hPasses.offset
  simp only at hBehind
  omega

/- Nor does it start with a blank. -/
private theorem isBlank_eq_false
    {c : Cursor}
    {code : Nat}
    (hCode : c.code? = some code)
    (hOffset :
      (step ⟨c, false, none⟩).1.token.offset = c.offset) :
    isBlank false code = false := by
  by_contra hBlank
  rw [Bool.not_eq_false] at hBlank
  rcases movesTo_skipWhile hCode hBlank with ⟨w, hw, hPasses⟩
  have hBehind := (le_offset_step
    (u := ⟨c, false, none⟩) rfl
    (Nat.le_refl
      (State.behindBlanks ⟨c, false, none⟩).1.offset)).1
  have hMoved := hPasses.offset
  have hPos := List.length_pos_iff.mpr hw
  simp only [State.behindBlanks] at hBehind
  omega

/-
  A word alone is its first glyph, which is no blank, and the
  piece that starts with it.
-/
theorem exists_piece
    (h : IsWord v kind text) :
    ∃ code p,
      (Cursor.ofText v).code? = some code ∧
        isBlank false code = false ∧
        (Cursor.ofText v).arrive = [] ∧
        piece (Cursor.ofText v) code = ⟨kind, text, [], p⟩ ∧
        p.rest = [] := by
  rcases h.step_start with ⟨hArrive, hToken, hStop, hFaults⟩
  have hStart :
      start v =
        (⟨Cursor.ofText v, false, none⟩,
          (Cursor.ofText v).arrive) := by
    simp [start, h.code?_ne_mark]
  rw [hStart] at hArrive hToken hStop hFaults
  simp only at hArrive hToken hStop hFaults
  have hOffset : (Cursor.ofText v).offset = 0 := rfl
  have hRest : (Cursor.ofText v).rest = v := rfl
  generalize Cursor.ofText v = c at *
  cases hCode : c.code? with
  | none =>
      have hEnd : c.rest = [] := by
        by_contra hSome
        exact code?_ne_none hSome hCode
      have hStep := step_of_nil
        (s := ⟨c, false, none⟩) rfl hEnd
      rw [hStep] at hToken
      exact absurd (congrArg Token.kind hToken).symm
        h.written.2
  | some code =>
      have hBlank := isBlank_eq_false hCode
        (by rw [hToken, hOffset])
      have hLine : code ≠ 0x0a := by
        rintro rfl
        cases hBlank
      have hBehind :
          State.behindBlanks ⟨c, false, none⟩ = (c, []) :=
        skipWhile_of_not hCode hBlank
      have hStep := step_of_piece
        (s := ⟨c, false, none⟩) rfl
        (by rw [hBehind]; exact hCode) hLine
      simp only [hBehind, List.nil_append] at hStep
      rw [hStep] at hToken hStop hFaults
      have hKind : (piece c code).kind = kind := by
        rw [← kind_afterPiece false c]
        exact congrArg Token.kind hToken
      have hNoComment : (piece c code).kind ≠ .comment := by
        rw [hKind]
        exact h.written.1
      simp only [afterPiece, if_neg hNoComment]
        at hToken hStop hFaults
      refine ⟨code, (piece c code).cursor, rfl, hBlank, hArrive,
        ?_, ?_⟩
      · rcases hRead : piece c code with
          ⟨kind', text', faults', e⟩
        rw [hRead] at hToken hFaults
        simp only [Token.mk.injEq] at hToken hFaults
        rw [hToken.1, hToken.2.2, hFaults]
      · rcases piece_movesTo hCode with ⟨w, _, hPasses⟩
        have hLength := hPasses.offset
        have hParts := congrArg List.length hPasses.rest
        rw [hRest, List.length_append] at hParts
        rw [← List.length_eq_zero_iff]
        omega

/- Wherever it stands, a word counts. -/
theorem isWritten
    (h : IsWord v kind text)
    (n : Nat) :
    isWritten ⟨kind, n, text⟩ = true := by
  rcases h.exists_piece with ⟨code, p, _, _, _, hPiece, _⟩
  have hText : kind = .semicolon → text = [0x3b] := by
    intro hKind
    have hPieceKind :
        (piece (Cursor.ofText v) code).kind = .semicolon := by
      rw [hPiece]
      exact hKind
    have hPieceText := text_of_semicolon hPieceKind
    rwa [hPiece] at hPieceText
  by_cases hKind : kind = .semicolon
  · simp [Scanner.isWritten, Token.isImplied, hKind,
      hText hKind]
  · simp [Scanner.isWritten, Token.isImplied, hKind,
      h.written.1]

/-
  A word is read alike in a text where a blank or the end
  follows it.
-/
theorem reads
    {t : Bytes}
    {d : Cursor}
    (h : IsWord v kind text)
    (ht : EndsWord t)
    (hRest : d.rest = v ++ t) :
    ∃ code e,
      d.code? = some code ∧
        isBlank false code = false ∧
        code ≠ 0xfeff ∧
        d.arrive = [] ∧
        piece d code = ⟨kind, text, [], e⟩ ∧
        e.rest = t := by
  rcases h.exists_piece with
    ⟨code, p, hCode, hBlank, hArrive, hPiece, hEnd⟩
  have hMark : code ≠ 0xfeff := by
    rintro rfl
    exact h.code?_ne_mark hCode
  have hText :
      Extends d.offset t (Cursor.ofText v) d :=
    ⟨(Nat.zero_add _).symm, hRest,
      isWide_eq_false_of_arrive hArrive, ht⟩
  have hSame := samePiece_piece hText hCode hMark
    (by rw [hPiece]; exact h.written.1) (by rw [hPiece])
  rw [hPiece] at hSame
  rcases hRead : piece d code with ⟨kind', text', faults', e⟩
  rw [hRead] at hSame
  rcases hSame with ⟨hKind, hTextEq, hClean, hPlace⟩
  simp only at hKind hTextEq hClean hPlace
  subst hKind hTextEq hClean
  refine ⟨code, e,
    (hText.code?_eq (rest_ne_nil_of_code? hCode)).trans hCode,
    hBlank, hMark, hText.arrive_of_code? hCode hMark hArrive,
    hRead, ?_⟩
  rw [hPlace.rest, hEnd, List.nil_append]

end IsWord

end Scanner

end Namesake
