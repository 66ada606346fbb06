import Namesake.Proofs.Arguments.FirstError
import Namesake.Proofs.Scanner.Comments

/-
  No text is refused for the value of a string literal.  The
  scanner finds everything that could be wrong with a literal,
  so the literals that reach the automaton all have values: a
  quoted one what its escapes stand for, a raw one what is
  between its quotes without carriage returns.

  Main declarations:
    * `Scanner.ReadsLiteral`
    * `Scanner.exists_literal_of_mem_tokens`
    * `Arguments.read_ne_literal`
    * `Arguments.Cause.message_startsWith_iff`
    * `Alias.parse_never_refuses_literal`
-/

namespace Namesake

------------------------------------------------------------
-- Literals in a Text
------------------------------------------------------------

namespace Scanner

open Cursor Literal

/-
  A stretch of a text, the text of the literal that it is read
  as, and the value of that literal.
-/
inductive ReadsLiteral : Bytes → Bytes → Bytes → Prop where
  | quoted
      {w value : Bytes}
      (hInside : Quoted.inside? 0x22 w = some value) :
      ReadsLiteral (0x22 :: w) (0x22 :: w) value
  | backQuoted
      {w : Bytes}
      (hNone : 0x60 ∉ w) :
      ReadsLiteral
        (0x60 :: (w ++ [0x60]))
        (0x60 :: (withoutReturns w ++ [0x60]))
        (withoutReturns w)

/- The decoder finds the value in the text of the literal. -/
theorem ReadsLiteral.decode?_eq
    {raw text value : Bytes}
    (h : ReadsLiteral raw text value) :
    Quoted.decode? text = some value := by
  cases h with
  | quoted hInside => exact hInside
  | @backQuoted w hNone =>
      have hText : 0x60 ∉ withoutReturns w := by
        simp [withoutReturns, hNone]
      rw [decode?_back_quoted hText]
      simp [withoutReturns]

/- A string piece without a fault is read from its stretch. -/
theorem exists_readsLiteral_of_piece
    {c : Cursor}
    {code : Nat}
    (hCode : c.code? = some code)
    (hKind : (piece c code).kind = .string)
    (hClean : (piece c code).faults = []) :
    ∃ raw value,
      c.Passes raw (piece c code).cursor ∧
        ReadsLiteral raw (piece c code).text value := by
  rcases piece_of_string hKind with
    ⟨rfl, hPiece⟩ | ⟨rfl, hPiece⟩
  · rw [hPiece] at hClean ⊢
    rcases passes_string hCode hClean with
      ⟨w, hPasses, hText, hInside⟩
    rcases Option.isSome_iff_exists.mp hInside with
      ⟨value, hValue⟩
    refine ⟨0x22 :: w, value, hPasses, ?_⟩
    rw [hText]
    exact ReadsLiteral.quoted hValue
  · rw [hPiece] at hClean ⊢
    rcases passes_rawString hCode hClean with
      ⟨w, hPasses, hText, hNone⟩
    refine ⟨0x60 :: (w ++ [0x60]), withoutReturns w, hPasses,
      ?_⟩
    rw [hText]
    exact ReadsLiteral.backQuoted hNone

/- A step that gives a string reads a piece behind blanks. -/
theorem exists_piece_of_string
    {s : State}
    (hKind : (step s).1.token.kind = .string) :
    ∃ c code faults,
      s.cursor.LeadsTo c ∧ c.code? = some code ∧
        (piece c code).kind = .string ∧
        (step s).1.token =
          ⟨.string, c.offset, (piece c code).text⟩ ∧
        (step s).1.faults =
          faults ++ (piece c code).faults := by
  have hBlank : s.cursor.LeadsTo s.behindBlanks.1 :=
    leadsTo_skipWhile (isBlank s.implies) s.cursor
  cases hPending : s.pending with
  | some n =>
      rw [step_of_pending hPending] at hKind
      cases hKind
  | none =>
      cases hCode : s.behindBlanks.1.code? with
      | none =>
          rw [step_of_end hPending hCode] at hKind
          simp only at hKind
          split at hKind <;> cases hKind
      | some code =>
          by_cases hLine : code = 0x0a
          · rw [step_of_lineEnd hPending (hLine ▸ hCode)]
              at hKind
            cases hKind
          · have hStep := step_of_piece hPending hCode hLine
            simp only at hStep
            rw [hStep] at hKind ⊢
            rw [kind_afterPiece] at hKind
            simp only [afterPiece, hKind]
            exact ⟨_, code, _, hBlank, hCode, hKind, rfl, rfl⟩

/- Every token comes from a step behind what is read so far. -/
theorem exists_place_of_mem_tokens
    {src : Bytes}
    {t : Lexed}
    (h : t ∈ tokens src) :
    ∃ s faults,
      (ofText src).LeadsTo s.cursor ∧
        t.token = (step s).1.token ∧
        t.faults = faults ++ (step s).1.faults := by
  have hFrom
      {u : Lexed}
      (hMem : u ∈ tokensFrom (start src).1) :
      ∃ s, (ofText src).LeadsTo s.cursor ∧ u = (step s).1 := by
    rcases exists_leadsTo_of_mem_tokensFrom hMem with
      ⟨s, hLeads, hStep⟩
    exact ⟨s, (leadsTo_start src).trans hLeads, hStep⟩
  unfold tokens at h
  simp only at h
  split at h
  · cases h
  · rename_i first rest hTokens
    rw [hTokens] at hFrom
    rcases List.mem_cons.mp h with rfl | hTail
    · rcases hFrom List.mem_cons_self with ⟨s, hLeads, hStep⟩
      refine ⟨s, (start src).2, hLeads, ?_, ?_⟩
      · rw [← hStep]
      · rw [← hStep]
    · rcases hFrom (List.mem_cons_of_mem first hTail) with
        ⟨s, hLeads, hStep⟩
      refine ⟨s, [], hLeads, ?_, ?_⟩
      · rw [← hStep]
      · rw [← hStep, List.nil_append]

/-
  A string token without a fault is read from the stretch of
  the text at its offset, and its text has a value.
-/
theorem exists_literal_of_mem_tokens
    {src : Bytes}
    {t : Lexed}
    (hMem : t ∈ tokens src)
    (hKind : t.token.kind = .string)
    (hClean : t.faults = []) :
    ∃ front raw rest value,
      src = front ++ raw ++ rest ∧
        front.length = t.token.offset ∧
        ReadsLiteral raw t.token.text value ∧
        Quoted.decode? t.token.text = some value := by
  rcases exists_place_of_mem_tokens hMem with
    ⟨s, before, hLeads, hToken, hFaults⟩
  rw [hToken] at hKind ⊢
  rw [hFaults] at hClean
  rcases exists_piece_of_string hKind with
    ⟨c, code, blanks, hBlank, hCode, hString, hHere, hStep⟩
  have hStepClean := (List.append_eq_nil_iff.mp hClean).2
  rw [hStep] at hStepClean
  have hPiece := (List.append_eq_nil_iff.mp hStepClean).2
  rcases exists_readsLiteral_of_piece hCode hString hPiece with
    ⟨raw, value, hPasses, hReads⟩
  rcases hLeads.trans hBlank with ⟨front, hFront⟩
  have hOffset : c.offset = front.length := by
    simpa [ofText] using hFront.offset
  have hRest : src = front ++ c.rest :=
    hFront.rest
  rw [hHere]
  refine ⟨front, raw, (piece c code).cursor.rest, value, ?_,
    hOffset.symm, hReads, hReads.decode?_eq⟩
  rw [hRest, hPasses.rest, List.append_assoc]

end Scanner

------------------------------------------------------------
-- The Automaton
------------------------------------------------------------

namespace Arguments

/- Only a string without a value is refused for its value. -/
theorem step_ne_literal
    {s : State}
    {t : Token}
    {cause : Cause}
    (hValue :
      t.kind = .string →
        (Quoted.decode? t.text).isSome = true)
    (h : step s t = .error cause)
    (k : Key) :
    cause ≠ .literal k := by
  rintro rfl
  cases s with
  | assigned entries e d key =>
      simp only [step] at h
      split at h
      · rename_i hKind
        split at h
        · cases h
        · rename_i hNone
          rw [hNone] at hValue
          cases hValue hKind
      · cases h
  | _ =>
      simp only [step] at h
      repeat' split at h
      all_goals cases h

/- Tokens whose strings have values are never refused for one. -/
theorem readFrom_ne_literal
    {ending : Ending}
    {s : State}
    {tokens : List Token}
    {e : Error}
    (hValues : Decodes tokens)
    (h : readFrom ending s tokens = .error e)
    (k : Key) :
    e.cause ≠ .literal k := by
  induction tokens generalizing s with
  | nil =>
      unfold readFrom at h
      split at h
      · cases h
        intro hScan
        cases hScan
      · split at h
        · cases h
        · split at h
          · rename_i offset _ _ cause hStep
            cases h
            refine step_ne_literal ?_ hStep k
            intro hString
            cases hString
          · cases h
  | cons t ts ih =>
      rw [decodes_cons_iff] at hValues
      unfold readFrom at h
      split at h
      · exact ih hValues.2 h
      · rename_i cause hStep
        cases h
        exact step_ne_literal hValues.1 hStep k

theorem read_ne_literal
    {src : Bytes}
    {e : Error}
    (h : read src = .error e)
    (k : Key) :
    e.cause ≠ .literal k :=
  readFrom_ne_literal (decodes_ofText src) h k

------------------------------------------------------------
-- Wordings
------------------------------------------------------------

namespace Cause

/- How the refusal of a literal for its value starts. -/
def literalRefusal : Bytes :=
  utf8 "invalid string literal"

theorem scan_message_not_startsWith
    (cause : Fault.Cause) :
    cause.message.startsWith literalRefusal = false := by
  cases cause with
  | radixPoint form => cases form <;> rfl
  | noDigits form => cases form <;> rfl
  | digit letter form => cases form <;> rfl
  | _ => rfl

/- No other refusal starts in the same way. -/
theorem message_startsWith_iff
    (cause : Cause) :
    cause.message.startsWith literalRefusal = true ↔
      ∃ k, cause = .literal k := by
  constructor
  · intro h
    cases cause with
    | literal k => exact ⟨k, rfl⟩
    | scan cause =>
        have hScan := scan_message_not_startsWith cause
        rw [message, hScan] at h
        cases h
    | _ => cases h
  · rintro ⟨k, rfl⟩
    cases k <;> rfl

end Cause

end Arguments

------------------------------------------------------------
-- Alias Lists
------------------------------------------------------------

namespace Alias

open Arguments Scanner

/-
  No diagnostic of a text starts like the refusal of a literal
  for its value.  Every string token that is read without a
  fault is a literal of the text and has a value: a quoted one
  has the text that it is read from, a raw one has that text
  without carriage returns.
-/
theorem parse_never_refuses_literal
    (src : Bytes)
    (locate : Nat → Position) :
    (∀ d,
        parse src locate = .error d →
          d.message.startsWith Cause.literalRefusal = false) ∧
      ∀ t ∈ tokens src,
        t.token.kind = .string →
          t.faults = [] →
            ∃ front raw rest value,
              src = front ++ raw ++ rest ∧
                front.length = t.token.offset ∧
                ReadsLiteral raw t.token.text value ∧
                Quoted.decode? t.token.text = some value := by
  constructor
  · intro d hParse
    unfold parse at hParse
    cases hRead : Arguments.read src with
    | ok entries =>
        rw [hRead] at hParse
        cases hParse
    | error e =>
        rw [hRead] at hParse
        cases hParse
        have hOther : ¬ ∃ k, e.cause = .literal k := by
          rintro ⟨k, hLiteral⟩
          exact read_ne_literal hRead k hLiteral
        rw [← Cause.message_startsWith_iff,
          Bool.not_eq_true] at hOther
        exact hOther
  · intro t hMem hKind hClean
    exact exists_literal_of_mem_tokens hMem hKind hClean

end Alias

end Namesake
