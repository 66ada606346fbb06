import Namesake.Proofs.Scanner.Extent

/-
  The shape of a token list.  Each step lowers the weight of
  the state, so the list always runs to the end of the text
  and the end is its last token and no other.

  Main declarations:
    * `Scanner.step_of_piece`
    * `Scanner.weight_step_lt`
    * `Scanner.EndsOnce`
    * `Scanner.endsOnce_tokens`
    * `Scanner.exists_step_of_mem_tokens`
-/

namespace Namesake

namespace Scanner

open Cursor

------------------------------------------------------------
-- Single Steps
------------------------------------------------------------

/- The place behind the blanks, and the faults among them. -/
def State.behindBlanks
    (s : State) : Cursor × List Fault :=
  s.cursor.skipWhile (isBlank s.implies)

theorem step_of_pending
    {s : State}
    {n : Nat}
    (hPending : s.pending = some n) :
    step s = (implied n [], { s with pending := none }) := by
  rw [step, hPending]

/- At the end of the text there is one more semicolon at most. -/
theorem step_of_end
    {s : State}
    (hPending : s.pending = none)
    (hCode : s.behindBlanks.1.code? = none) :
    step s =
      (if s.implies then
        implied s.behindBlanks.1.offset s.behindBlanks.2
      else
        { token := ⟨.eof, s.behindBlanks.1.offset, []⟩
          stop := s.behindBlanks.1.offset
          faults := s.behindBlanks.2 },
        ⟨s.behindBlanks.1, false, none⟩) := by
  unfold State.behindBlanks at *
  rw [step.eq_def]
  simp only [hPending, hCode]
  split
  · rfl
  · rfl

/- A text that is read to its end has no more blanks. -/
theorem step_of_nil
    {s : State}
    (hPending : s.pending = none)
    (hRest : s.cursor.rest = []) :
    step s =
      (if s.implies then
        implied s.cursor.offset []
      else
        { token := ⟨.eof, s.cursor.offset, []⟩
          stop := s.cursor.offset
          faults := [] },
        ⟨s.cursor, false, none⟩) := by
  have hBehind : s.behindBlanks = (s.cursor, []) := by
    unfold State.behindBlanks
    rw [Cursor.skipWhile]
    simp [hRest]
  have hCode : s.behindBlanks.1.code? = none := by
    rw [hBehind, Cursor.code?, hRest]
    rfl
  have hStep := step_of_end hPending hCode
  rw [hBehind] at hStep
  exact hStep

theorem step_of_lineEnd
    {s : State}
    (hPending : s.pending = none)
    (hCode : s.behindBlanks.1.code? = some 0x0a) :
    step s =
      (implied s.behindBlanks.1.offset
          (s.behindBlanks.2 ++ s.behindBlanks.1.next.arrive),
        ⟨s.behindBlanks.1.next, false, none⟩) := by
  unfold State.behindBlanks at *
  rw [step.eq_def]
  simp only [hPending, hCode, if_true]

/- Any other glyph starts a piece. -/
theorem step_of_piece
    {s : State}
    {code : Nat}
    (hPending : s.pending = none)
    (hCode : s.behindBlanks.1.code? = some code)
    (hLine : code ≠ 0x0a) :
    let r := afterPiece s.implies s.behindBlanks.1
      (piece s.behindBlanks.1 code)
    step s =
      ({ r.1 with faults := s.behindBlanks.2 ++ r.1.faults },
        r.2) := by
  unfold State.behindBlanks at *
  rw [step.eq_def]
  simp only [hPending, hCode, if_neg hLine]

------------------------------------------------------------
-- Progress
------------------------------------------------------------

/- The state behind a token weighs less than the place before it. -/
private theorem weight_afterPiece_lt
    {implies : Bool}
    {c : Cursor}
    {p : Piece}
    (h : c.MovesTo p.cursor) :
    (afterPiece implies c p).2.weight <
      2 * c.rest.length + if implies then 1 else 0 := by
  have hShorter := h.length_lt
  have hBit (b : Bool) : (if b then 1 else 0) ≤ 1 := by
    cases b <;> decide
  unfold afterPiece
  split
  · simp only
    split
    · cases implies with
      | true =>
          -- the pending semicolon is paid for by `implies`
          simp only [State.weight, Bool.false_eq_true,
            if_false, if_true, Option.isSome_some]
          omega
      | false =>
          simp only [State.weight, Option.isSome_none,
            Bool.false_eq_true, if_false]
          omega
    · have := hBit implies
      simp only [State.weight, Option.isSome_none,
        Bool.false_eq_true, if_false]
      omega
  · have := hBit
      (if p.kind = .illegal then implies
        else p.kind.endsStatement)
    simp only [State.weight, Option.isSome_none,
      Bool.false_eq_true, if_false]
    omega

/- Every token but the end of the text lowers the weight. -/
theorem weight_step_lt
    (s : State)
    (h : (step s).1.token.kind ≠ .eof) :
    (step s).2.weight < s.weight := by
  unfold step at h ⊢
  cases hPending : s.pending with
  | some n =>
      simp [State.weight, hPending]
  | none =>
      simp only [hPending] at h ⊢
      have hBlank :=
        (leadsTo_skipWhile (isBlank s.implies)
          s.cursor).length_le
      generalize s.cursor.skipWhile (isBlank s.implies) = r at *
      have hBound :
          2 * r.1.rest.length + (if s.implies then 1 else 0) ≤
            s.weight := by
        simp only [State.weight]
        omega
      cases hCode : r.1.code? with
      | none =>
          simp only [hCode] at h ⊢
          split
          · rename_i hImplies
            simp only [hImplies, if_true] at hBound
            simp only [State.weight, Option.isSome_none,
              Bool.false_eq_true, if_false] at hBound ⊢
            omega
          · rename_i hImplies
            simp [hImplies] at h
      | some code =>
          simp only
          split
          · have hNext :=
              (movesTo_next
                (rest_ne_nil_of_code? hCode)).length_lt
            refine Nat.lt_of_lt_of_le ?_ hBound
            simp only [State.weight, Option.isSome_none,
              Bool.false_eq_true, if_false]
            omega
          · exact Nat.lt_of_lt_of_le
              (weight_afterPiece_lt (piece_movesTo hCode))
              hBound

------------------------------------------------------------
-- The End of the Text
------------------------------------------------------------

/- The end of the text is the last token and no other. -/
inductive EndsOnce : List Lexed → Prop where
  | last
      {t : Lexed}
      (hEof : t.token.kind = .eof) :
      EndsOnce [t]
  | cons
      {t : Lexed}
      {ts : List Lexed}
      (hKind : t.token.kind ≠ .eof)
      (hRest : EndsOnce ts) :
      EndsOnce (t :: ts)

theorem tokensFrom_of_eof
    {s : State}
    (h : (step s).1.token.kind = .eof) :
    tokensFrom s = [(step s).1] := by
  rw [tokensFrom]
  simp only [h, if_true]

/- A text that is read to its end has no more tokens. -/
theorem tokensFrom_of_quiet_nil
    {s : State}
    (hPending : s.pending = none)
    (hQuiet : s.implies = false)
    (hRest : s.cursor.rest = []) :
    tokensFrom s =
      [{ token := ⟨.eof, s.cursor.offset, []⟩
         stop := s.cursor.offset
         faults := [] }] := by
  have hStep := step_of_nil hPending hRest
  simp only [hQuiet, Bool.false_eq_true, if_false] at hStep
  rw [tokensFrom_of_eof]
  · rw [hStep]
  · rw [hStep]

/- Every token but the end of the text is followed by others. -/
theorem tokensFrom_of_not_eof
    {s : State}
    (h : (step s).1.token.kind ≠ .eof) :
    tokensFrom s = (step s).1 :: tokensFrom (step s).2 := by
  rw [tokensFrom]
  simp only [if_neg h, dif_pos (weight_step_lt s h)]

theorem endsOnce_tokensFrom
    (s : State) :
    EndsOnce (tokensFrom s) := by
  fun_induction tokensFrom s with
  | case1 s _ hEof => exact EndsOnce.last hEof
  | case2 s _ hKind _ ih => exact EndsOnce.cons hKind ih
  | case3 s r hKind hStuck =>
      exact absurd (weight_step_lt s hKind) hStuck

/- The faults of the first token do not matter for the shape. -/
private theorem EndsOnce.withFaults
    {t : Lexed}
    {ts : List Lexed}
    (h : EndsOnce (t :: ts))
    (faults : List Fault) :
    EndsOnce ({ t with faults := faults } :: ts) := by
  cases h with
  | last hEof => exact EndsOnce.last hEof
  | cons hKind hRest => exact EndsOnce.cons hKind hRest

theorem endsOnce_tokens
    (src : Bytes) :
    EndsOnce (tokens src) := by
  have hFrom := endsOnce_tokensFrom (start src).1
  unfold tokens
  cases hTokens : tokensFrom (start src).1 with
  | nil =>
      rw [hTokens] at hFrom
      cases hFrom
  | cons t ts =>
      rw [hTokens] at hFrom
      simp only [hTokens]
      exact hFrom.withFaults _

------------------------------------------------------------
-- Where Tokens Come From
------------------------------------------------------------

theorem exists_step_of_mem_tokensFrom
    {s : State}
    {t : Lexed}
    (h : t ∈ tokensFrom s) :
    ∃ s', t = (step s').1 := by
  fun_induction tokensFrom s with
  | case1 s => exact ⟨s, by simpa using h⟩
  | case2 s _ _ _ ih =>
      rcases List.mem_cons.mp h with hHead | hTail
      · exact ⟨s, hHead⟩
      · exact ih hTail
  | case3 s => exact ⟨s, by simpa using h⟩

/-
  Every token comes from one step; only the faults before
  the first token are added to it.
-/
theorem exists_step_of_mem_tokens
    {src : Bytes}
    {t : Lexed}
    (h : t ∈ tokens src) :
    ∃ s faults,
      t.token = (step s).1.token ∧
        t.faults = faults ++ (step s).1.faults := by
  unfold tokens at h
  cases hTokens : tokensFrom (start src).1 with
  | nil => simp [hTokens] at h
  | cons u us =>
      simp only [hTokens] at h
      rcases List.mem_cons.mp h with hHead | hTail
      · have hMem : u ∈ tokensFrom (start src).1 := by
          simp [hTokens]
        rcases exists_step_of_mem_tokensFrom hMem with ⟨s, hs⟩
        refine ⟨s, (start src).2, ?_, ?_⟩
        · rw [hHead, ← hs]
        · rw [hHead, ← hs]
      · have hMem : t ∈ tokensFrom (start src).1 := by
          simp [hTokens, hTail]
        rcases exists_step_of_mem_tokensFrom hMem with ⟨s, hs⟩
        exact ⟨s, [], by rw [hs], by rw [hs, List.nil_append]⟩

end Scanner

end Namesake
