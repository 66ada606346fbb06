import Namesake.Proofs.Scanner.Faults
import Namesake.Proofs.Scanner.StringLiteral

/-
  Where tokens stand.  A name is the stretch of the text at
  its offset, it lies on one line, and the offsets of names
  increase.

  Main declarations:
    * `Scanner.Steps`
    * `Scanner.exists_steps_of_mem_tokensFrom`
    * `Scanner.offset_le_of_mem_tokens`
    * `Scanner.standsIn_of_mem_tokens`
    * `Scanner.pairwise_names`
-/

namespace Namesake

open Fault

------------------------------------------------------------
-- Names
------------------------------------------------------------

namespace Cursor

/- Units of two bytes are announced by a stray byte. -/
theorem exists_stray_of_isWide
    {c : Cursor}
    (hWide : c.isWide = true) :
    ∃ b rest, Utf8.split? c.rest = some (.stray b, rest) := by
  have hHead :
      (∃ s, c.rest = 0xff :: 0xfe :: s) ∨
        ∃ s, c.rest = 0xfe :: 0xff :: s := by
    simp only [isWide, Bool.and_eq_true, Bool.or_eq_true,
      List.isPrefixOf_iff_prefix] at hWide
    rcases hWide.2 with ⟨s, hRest⟩ | ⟨s, hRest⟩
    · exact Or.inl ⟨s, hRest.symm⟩
    · exact Or.inr ⟨s, hRest.symm⟩
  rcases hHead with ⟨s, hRest⟩ | ⟨s, hRest⟩
  · rw [hRest]
    rcases s with _ | ⟨b, _ | ⟨b', s⟩⟩ <;>
      simp [Utf8.split?, Utf8.isTwo, Utf8.isThree, Utf8.isFour]
  · rw [hRest]
    rcases s with _ | ⟨b, _ | ⟨b', s⟩⟩ <;>
      simp [Utf8.split?, Utf8.isTwo, Utf8.isThree, Utf8.isFour]

theorem isWide_eq_false_of_code?
    {c : Cursor}
    {n : Nat}
    (hCode : c.code? = some n)
    (hStray : n ≠ 0xfffd) :
    c.isWide = false := by
  rw [← Bool.not_eq_true]
  intro hWide
  apply hStray
  rcases exists_stray_of_isWide hWide with ⟨b, rest, hSplit⟩
  rw [code?, Bytes.firstCode?, hSplit] at hCode
  simpa [Glyph.code] using hCode.symm

/- They are a fault where they start. -/
theorem isWide_eq_false_of_arrive
    {c : Cursor}
    (h : c.arrive = []) :
    c.isWide = false := by
  rw [← Bool.not_eq_true]
  intro hWide
  rcases exists_stray_of_isWide hWide with ⟨b, rest, hSplit⟩
  simp [arrive, hSplit, hWide] at h

/- The ASCII bytes that are passed satisfy the condition. -/
theorem passes_skipWhile
    {p : Nat → Bool}
    {c : Cursor}
    (hNarrow : p 0xfffd = false ∨ 0 < c.offset) :
    ∃ w,
      c.Passes w (c.skipWhile p).1 ∧
        ∀ b ∈ w, b < 0x80 → p b.toNat = true := by
  fun_induction skipWhile p c with
  | case1 c | case2 c | case4 c =>
      exact ⟨[], Passes.refl c, by simp⟩
  | case3 c _ n hCode hp _ ih =>
      rcases exists_split?_of_code? hCode with
        ⟨g, rest, hSplit, hGlyph⟩
      have hWide : c.isWide = false := by
        rcases hNarrow with hStray | hBehind
        · refine isWide_eq_false_of_code? hCode ?_
          rintro rfl
          rw [hp] at hStray
          cases hStray
        · simp [isWide, Nat.ne_of_gt hBehind]
      have hNext := passes_next hSplit hWide
      have hLater : p 0xfffd = false ∨ 0 < c.next.offset := by
        rw [hNext.offset]
        exact hNarrow.imp_right fun hBehind =>
          Nat.lt_of_lt_of_le hBehind (Nat.le_add_right _ _)
      rcases ih hLater with ⟨w, hPasses, hBytes⟩
      refine ⟨g.bytes ++ w, hNext.trans hPasses, ?_⟩
      intro b hMem hLow
      rcases List.mem_append.mp hMem with hHere | hLater
      · rw [← Utf8.code_eq_of_mem_bytes hSplit hHere hLow,
          hGlyph]
        exact hp
      · exact hBytes b hLater hLow

end Cursor

namespace Scanner

open Cursor

/- A word is what stands between its two ends, on one line. -/
theorem passes_word
    {c : Cursor}
    {code : Nat}
    (hCode : c.code? = some code)
    (hStart : isNameStart code = true) :
    c.Passes (word c).text (word c).cursor ∧
      (word c).text ≠ [] ∧ 0x0a ∉ (word c).text := by
  have hMoves : c.MovesTo (word c).cursor := by
    apply movesTo_skipWhile hCode
    simp [isNamePart, hStart]
  rcases passes_skipWhile (c := c)
      (Or.inl (by decide +kernel : isNamePart 0xfffd = false))
    with ⟨w, hPasses, hBytes⟩
  have hText : (word c).text = w := hPasses.between_eq
  rw [hText]
  refine ⟨hPasses, ?_, ?_⟩
  · rintro rfl
    have hLess := hMoves.length_lt
    have hSame := congrArg List.length hPasses.rest
    rw [List.nil_append] at hSame
    have hCursor :
        (word c).cursor = (c.skipWhile isNamePart).1 := rfl
    rw [hCursor, hSame] at hLess
    exact Nat.lt_irrefl _ hLess
  · intro hMem
    have hPart := hBytes 0x0a hMem (by decide)
    revert hPart
    decide

/- A word is reserved or an identifier. -/
theorem ofWord_eq_ident_or_mem
    (s : Bytes) :
    TokenKind.ofWord s = .ident ∨
      TokenKind.ofWord s ∈ TokenKind.keywords := by
  unfold TokenKind.ofWord
  cases hFind :
      TokenKind.keywords.find? fun k =>
        utf8 k.spelling == s with
  | none => exact Or.inl rfl
  | some kind => exact Or.inr (List.mem_of_find?_eq_some hFind)

/- A word is never taken for a comment. -/
theorem ofWord_ne_comment
    (s : Bytes) :
    TokenKind.ofWord s ≠ .comment := by
  rcases ofWord_eq_ident_or_mem s with hIdent | hMem
  · simp [hIdent]
  · rintro hComment
    rw [hComment] at hMem
    revert hMem
    decide

/- Only words are names, and only comments are comments. -/
theorem piece_cases
    (c : Cursor)
    (code : Nat) :
    (isNameStart code = true ∧ piece c code = word c) ∨
      (startsComment c.rest = true ∧
        piece c code = comment c) ∨
      ((piece c code).kind ≠ .ident ∧
        (piece c code).kind ≠ .comment) := by
  unfold piece
  split
  · rename_i hStart
    exact Or.inl ⟨hStart, rfl⟩
  · refine Or.inr ?_
    split
    · refine Or.inr ?_
      simp only [number, Number.scan]
      split
      · simp
      · split <;> simp
    · split
      · exact Or.inr ⟨by simp [string], by simp [string]⟩
      · split
        · exact Or.inr
            ⟨by simp [character], by simp [character]⟩
        · split
          · exact Or.inr
              ⟨by simp [rawString], by simp [rawString]⟩
          · split
            · rename_i hComment
              exact Or.inl ⟨hComment, rfl⟩
            · refine Or.inr ?_
              split
              · rename_i kind hOperator
                have hMem : kind ∈ operators :=
                  List.mem_of_find?_eq_some hOperator
                have hAll :
                    ∀ k ∈ operators,
                      k ≠ .ident ∧ k ≠ .comment := by
                  decide
                exact hAll kind hMem
              · exact ⟨by simp [stray], by simp [stray]⟩

------------------------------------------------------------
-- Steps
------------------------------------------------------------

@[simp] theorem cursor_afterPiece
    (implies : Bool)
    (c : Cursor)
    (p : Piece) :
    (afterPiece implies c p).2.cursor = p.cursor := by
  unfold afterPiece
  repeat' split
  all_goals rfl

@[simp] theorem kind_afterPiece
    (implies : Bool)
    (c : Cursor)
    (p : Piece) :
    (afterPiece implies c p).1.token.kind = p.kind := by
  unfold afterPiece
  simp only
  split
  · rename_i hKind
    rw [hKind]
    repeat' split
    all_goals rfl
  · rfl

@[simp] theorem offset_afterPiece
    (implies : Bool)
    (c : Cursor)
    (p : Piece) :
    (afterPiece implies c p).1.token.offset = c.offset := by
  unfold afterPiece
  repeat' split
  all_goals rfl

/- Only the text of a comment is changed. -/
theorem text_afterPiece
    (implies : Bool)
    (c : Cursor)
    {p : Piece}
    (h : p.kind ≠ .comment) :
    (afterPiece implies c p).1.token.text = p.text := by
  simp only [afterPiece, if_neg h]

/- A token brings its own faults and those of a line mark. -/
theorem allWithin_afterPiece
    (implies : Bool)
    {c : Cursor}
    {code : Nat}
    (hCode : c.code? = some code) :
    AllWithin c.finish
      (afterPiece implies c (piece c code)).1.faults := by
  have hPiece := allWithin_piece hCode
  rcases piece_cases c code with
    ⟨_, hWord⟩ | ⟨_, hComment⟩ | ⟨_, hOther⟩
  · have hKind : (piece c code).kind ≠ .comment := by
      rw [hWord]
      exact ofWord_ne_comment _
    simpa only [afterPiece, if_neg hKind] using hPiece
  · have hMark :
        AllWithin c.finish
          (Comment.lineMark c (comment c).text
            (comment c).cursor).2 := by
      intro f hMem
      have hBound :=
        Comment.allWithin_lineMark c (comment c).text
          (comment c).cursor f hMem
      have hText := length_between_le c (comment c).cursor
      exact Nat.le_trans hBound hText
    rw [hComment] at hPiece ⊢
    have hBoth := hPiece.append hMark
    have hKind : (comment c).kind = .comment := rfl
    unfold afterPiece
    rw [if_pos hKind]
    simp only
    repeat' split
    all_goals exact hBoth
  · simpa only [afterPiece, if_neg hOther] using hPiece

/- What one step of the scanner does. -/
inductive Steps
    (s : State) : Lexed → State → Prop where
  | pending
      (n : Nat) :
      Steps s (implied n []) { s with pending := none }
  | lineEnd
      {c d : Cursor}
      {faults : List Fault}
      (hBlank : s.cursor.LeadsTo c)
      (hNext : c.LeadsTo d)
      (hFaults : AllWithin s.cursor.finish faults) :
      Steps s (implied c.offset faults) ⟨d, false, none⟩
  | finished
      {c : Cursor}
      {faults : List Fault}
      (hBlank : s.cursor.LeadsTo c)
      (hFaults : AllWithin s.cursor.finish faults) :
      Steps s
        { token := ⟨.eof, c.offset, []⟩
          stop := c.offset
          faults := faults }
        ⟨c, false, none⟩
  | token
      {c : Cursor}
      {code : Nat}
      {lexed : Lexed}
      {s' : State}
      (hBlank : s.cursor.LeadsTo c)
      (hCode : c.code? = some code)
      (hToken :
        lexed.token =
          (afterPiece s.implies c (piece c code)).1.token)
      (hState :
        s' = (afterPiece s.implies c (piece c code)).2)
      (hFaults : AllWithin s.cursor.finish lexed.faults) :
      Steps s lexed s'

/- The relation covers all that a step can do. -/
theorem steps_step
    (s : State) :
    Steps s (step s).1 (step s).2 := by
  have hBlank := leadsTo_skipWhile (isBlank s.implies) s.cursor
  have hFaults :=
    allWithin_skipWhile (isBlank s.implies) s.cursor
  unfold step
  split
  · exact Steps.pending _
  · simp only
    generalize s.cursor.skipWhile (isBlank s.implies) = r at *
    split
    · split
      · exact Steps.lineEnd hBlank (LeadsTo.refl _) hFaults
      · exact Steps.finished hBlank hFaults
    · rename_i code hCode
      split
      · have hNext := leadsTo_next r.1
        exact Steps.lineEnd hBlank hNext
          (hFaults.append
            (hBlank.trans hNext).allWithin_arrive)
      · exact Steps.token hBlank hCode rfl rfl
          (hFaults.append
            (hBlank.allWithin
              (allWithin_afterPiece s.implies hCode)))

namespace Steps

/- A step does not go back. -/
theorem leadsTo
    {s s' : State}
    {t : Lexed}
    (h : Steps s t s') :
    s.cursor.LeadsTo s'.cursor := by
  cases h with
  | pending => exact LeadsTo.refl _
  | lineEnd hBlank hNext => exact hBlank.trans hNext
  | finished hBlank => exact hBlank
  | token hBlank hCode _ hState =>
      rw [hState, cursor_afterPiece]
      exact hBlank.trans (piece_movesTo hCode).leadsTo

/- Its faults are in the text. -/
theorem allWithin
    {s s' : State}
    {t : Lexed}
    (h : Steps s t s') :
    AllWithin s.cursor.finish t.faults := by
  cases h with
  | pending => exact AllWithin.nil _
  | lineEnd _ _ hFaults => exact hFaults
  | finished _ hFaults => exact hFaults
  | token _ _ _ _ hFaults => exact hFaults

/- A token that is written stands at a place of the text. -/
theorem exists_place
    {s s' : State}
    {t : Lexed}
    (h : Steps s t s')
    (hWritten : t.token.isImplied = false) :
    ∃ c,
      s.cursor.LeadsTo c ∧ t.token.offset = c.offset := by
  cases h with
  | pending => cases hWritten
  | lineEnd => cases hWritten
  | finished hBlank => exact ⟨_, hBlank, rfl⟩
  | token hBlank _ hToken =>
      refine ⟨_, hBlank, ?_⟩
      rw [hToken, offset_afterPiece]

/- A name is what stands between its place and the next state. -/
theorem passes_name
    {s s' : State}
    {t : Lexed}
    (h : Steps s t s')
    (hKind : t.token.kind = .ident) :
    ∃ c,
      s.cursor.LeadsTo c ∧
        t.token.offset = c.offset ∧
        c.Passes t.token.text s'.cursor ∧
        t.token.text ≠ [] ∧ 0x0a ∉ t.token.text := by
  cases h with
  | pending => cases hKind
  | lineEnd => cases hKind
  | finished => cases hKind
  | @token c code _ _ hBlank hCode hToken hState =>
      rw [hToken, kind_afterPiece] at hKind
      rcases piece_cases c code with
        ⟨hStart, hWord⟩ | ⟨_, hComment⟩ | ⟨hOther, _⟩
      · have hText : t.token.text = (word c).text := by
          rw [hToken, text_afterPiece, hWord]
          rw [hKind]
          decide
        have hOffset : t.token.offset = c.offset := by
          rw [hToken, offset_afterPiece]
        refine ⟨c, hBlank, hOffset, ?_⟩
        rw [hText, hState, cursor_afterPiece, hWord]
        exact passes_word hCode hStart
      · rw [hComment] at hKind
        cases hKind
      · exact absurd hKind hOther

end Steps

------------------------------------------------------------
-- All Tokens
------------------------------------------------------------

/- Every token comes from a step at a place of the text. -/
theorem exists_leadsTo_of_mem_tokensFrom
    {s : State}
    {t : Lexed}
    (h : t ∈ tokensFrom s) :
    ∃ s', s.cursor.LeadsTo s'.cursor ∧ t = (step s').1 := by
  fun_induction tokensFrom s with
  | case1 s =>
      exact ⟨s, LeadsTo.refl _, List.mem_singleton.mp h⟩
  | case2 s _ _ _ ih =>
      rcases List.mem_cons.mp h with hHead | hTail
      · exact ⟨s, LeadsTo.refl _, hHead⟩
      · rcases ih hTail with ⟨s', hLeads, hStep⟩
        exact ⟨s', (steps_step s).leadsTo.trans hLeads, hStep⟩
  | case3 s =>
      exact ⟨s, LeadsTo.refl _, List.mem_singleton.mp h⟩

theorem exists_steps_of_mem_tokensFrom
    {s : State}
    {t : Lexed}
    (h : t ∈ tokensFrom s) :
    ∃ s' s'',
      s.cursor.LeadsTo s'.cursor ∧ Steps s' t s'' := by
  rcases exists_leadsTo_of_mem_tokensFrom h with
    ⟨s', hLeads, rfl⟩
  exact ⟨s', _, hLeads, steps_step s'⟩

/- A name stands in a text at its offset, on one line. -/
structure StandsIn
    (src : Bytes)
    (t : Token) : Prop where
  split :
    ∃ front rest,
      src = front ++ t.text ++ rest ∧
        front.length = t.offset
  oneLine : 0x0a ∉ t.text

namespace StandsIn

/- The text of a name is found at its offset. -/
theorem isPrefix
    {src : Bytes}
    {t : Token}
    (h : StandsIn src t) :
    t.text <+: src.drop t.offset := by
  rcases h.split with ⟨front, rest, hSplit, hFront⟩
  refine ⟨rest, ?_⟩
  rw [hSplit, ← hFront, List.append_assoc, List.drop_left]

theorem offset_add_length_le
    {src : Bytes}
    {t : Token}
    (h : StandsIn src t) :
    t.offset + t.text.length ≤ src.length := by
  rcases h.split with ⟨front, rest, hSplit, hFront⟩
  rw [hSplit, ← hFront, List.length_append,
    List.length_append]
  exact Nat.le_add_right _ _

end StandsIn

/- The offsets of names increase. -/
theorem pairwise_names_tokensFrom
    (s : State) :
    (tokensFrom s).Pairwise fun t u =>
      t.token.kind = .ident → u.token.kind = .ident →
        t.token.offset < u.token.offset := by
  fun_induction tokensFrom s with
  | case1 s => exact List.pairwise_singleton _ _
  | case2 s _ _ _ ih =>
      refine List.Pairwise.cons ?_ ih
      intro u hMem hName hOther
      rcases (steps_step s).passes_name hName with
        ⟨c, _, hOffset, hPasses, hText, _⟩
      rcases exists_steps_of_mem_tokensFrom hMem with
        ⟨s', s'', hLeads, hSteps⟩
      rcases hSteps.passes_name hOther with
        ⟨c', hPlace, hOffset', _⟩
      rcases hLeads.trans hPlace with ⟨w, hLater⟩
      have hWidth := List.length_pos_iff.mpr hText
      have hBehind := hPasses.offset
      have hThere :
          c'.offset = (step s).2.cursor.offset + w.length :=
        hLater.offset
      rw [hOffset, hOffset']
      omega
  | case3 s => exact List.pairwise_singleton _ _

/- The place before the first token. -/
theorem leadsTo_start
    (src : Bytes) :
    (Cursor.ofText src).LeadsTo (start src).1.cursor := by
  unfold start
  simp only
  split
  · exact leadsTo_next _
  · exact LeadsTo.refl _

theorem map_token_tokens
    (src : Bytes) :
    (tokens src).map Lexed.token =
      (tokensFrom (start src).1).map Lexed.token := by
  unfold tokens
  simp only
  split
  · rename_i hNil
    rw [hNil]
  · rename_i hCons
    rw [hCons]
    rfl

/- A written token stands in the text or at its end. -/
theorem offset_le_of_mem_tokens
    {src : Bytes}
    {t : Lexed}
    (hMem : t ∈ tokens src)
    (hWritten : t.token.isImplied = false) :
    t.token.offset ≤ src.length := by
  have hToken : t.token ∈ (tokens src).map Lexed.token :=
    List.mem_map_of_mem hMem
  rw [map_token_tokens] at hToken
  rcases List.mem_map.mp hToken with ⟨u, hFrom, hEq⟩
  rw [← hEq] at hWritten ⊢
  rcases exists_steps_of_mem_tokensFrom hFrom with
    ⟨s, s', hLeads, hSteps⟩
  rcases hSteps.exists_place hWritten with
    ⟨c, hPlace, hOffset⟩
  have hAll :=
    (leadsTo_start src).trans (hLeads.trans hPlace)
  have hBound := hAll.offset_le
  rw [hOffset]
  simpa [finish, ofText] using hBound

/- So do the faults of all tokens. -/
theorem allWithin_of_mem_tokens
    {src : Bytes}
    {t : Lexed}
    (hMem : t ∈ tokens src) :
    AllWithin src.length t.faults := by
  have hFinish : (Cursor.ofText src).finish = src.length := by
    simp [finish, ofText]
  have hFrom
      {u : Lexed}
      (h : u ∈ tokensFrom (start src).1) :
      AllWithin src.length u.faults := by
    rcases exists_steps_of_mem_tokensFrom h with
      ⟨s, s', hLeads, hSteps⟩
    rw [← hFinish]
    exact ((leadsTo_start src).trans hLeads).allWithin
      hSteps.allWithin
  have hBefore : AllWithin src.length (start src).2 := by
    rw [← hFinish]
    unfold start
    simp only
    split
    · exact (allWithin_arrive _).append
        (leadsTo_next _).allWithin_arrive
    · exact allWithin_arrive _
  unfold tokens at hMem
  simp only at hMem
  split at hMem
  · cases hMem
  · rename_i first rest hTokens
    rcases List.mem_cons.mp hMem with rfl | hTail
    · exact hBefore.append (hFrom (by simp [hTokens]))
    · exact hFrom (by simp [hTokens, hTail])

/- Every name of a text stands in it. -/
theorem standsIn_of_mem_tokens
    {src : Bytes}
    {t : Token}
    (hMem : t ∈ (tokens src).map Lexed.token)
    (hKind : t.kind = .ident) :
    StandsIn src t := by
  rw [map_token_tokens] at hMem
  rcases List.mem_map.mp hMem with ⟨u, hFrom, rfl⟩
  rcases exists_steps_of_mem_tokensFrom hFrom with
    ⟨s, s', hLeads, hSteps⟩
  rcases hSteps.passes_name hKind with
    ⟨c, hPlace, hOffset, hPasses, _, hLine⟩
  rcases (leadsTo_start src).trans (hLeads.trans hPlace) with
    ⟨front, hFront⟩
  refine ⟨⟨front, s'.cursor.rest, ?_, ?_⟩, hLine⟩
  · have hRest := hFront.rest
    rw [hPasses.rest, ← List.append_assoc] at hRest
    exact hRest
  · have hWidth := hFront.offset
    simp only [ofText] at hWidth
    rw [hOffset]
    omega

/- So the names of a text stand one behind the other. -/
theorem pairwise_names
    (src : Bytes) :
    ((tokens src).map Lexed.token).Pairwise fun t u =>
      t.kind = .ident → u.kind = .ident →
        t.offset < u.offset := by
  rw [map_token_tokens]
  exact List.pairwise_map.mpr (pairwise_names_tokensFrom _)

end Scanner

end Namesake
