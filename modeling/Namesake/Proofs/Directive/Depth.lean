import Namesake.Directive
import Namesake.Proofs.Arguments.Exactness
import Namesake.Proofs.Scanner.Cuts

/-
  The balance of parentheses in directive arguments.  It
  follows the state of the automaton that reads them, so it
  is positive from the first parenthesis to the last one, and
  zero when the list is closed.  A text that is cut at the end
  of a line between the two has the balance at the cut.

  Main declarations:
    * `Arguments.State.depth`
    * `Directive.depthFrom_of_runs`
    * `Directive.depth_of_parse`
    * `Directive.depth_pos_of_cut`
-/

namespace Namesake

------------------------------------------------------------
-- States
------------------------------------------------------------

namespace Arguments

open Grammar Scanner

namespace State

/- The number of parentheses that are open. -/
def depth : State → Int
  | .start | .closed _ => 0
  | .listing _ | .listed _ _ | .deprecated _ => 1
  | .deprecatedOpen _ | .details _ _ _ | .detail _ _ _ => 2
  | .assigning _ _ _ _ | .assigned _ _ _ _ => 2

/- Was a parenthesis opened? -/
def hasOpened : State → Bool
  | .start => false
  | _ => true

theorem depth_pos
    {s : State}
    (hOpened : s.hasOpened = true)
    (hOpen : ∀ entries, s ≠ .closed entries) :
    0 < s.depth := by
  cases s with
  | start => cases hOpened
  | closed entries => exact absurd rfl (hOpen entries)
  | _ => simp [depth]

end State

/- What the automaton takes is a parenthesis or no surprise. -/
theorem step_spec
    {s s' : State}
    {t : Token}
    (h : step s t = .ok s')
    (kinds : List TokenKind) :
    isPlain t.kind = true ∧
      s'.hasOpened = true ∧
      Directive.depthFrom s.depth s.hasOpened
          (t.kind :: kinds) =
        Directive.depthFrom s'.depth true kinds := by
  cases s <;> simp only [step] at h
  all_goals repeat' split at h
  all_goals
    simp only [reduceCtorEq, Except.ok.injEq] at h
  all_goals
    subst h
    simp_all [isPlain, State.hasOpened, State.depth,
      Directive.depthFrom]

theorem isPlain_of_runs
    {s s' : State}
    {tokens : List Token}
    (h : Runs s tokens s') :
    ∀ t ∈ tokens, isPlain t.kind = true := by
  induction h with
  | nil => simp
  | cons hStep _ ih =>
      rw [List.forall_mem_cons]
      exact ⟨(step_spec hStep []).1, ih⟩

/- Reading a token opens the list, if it was not open. -/
theorem hasOpened_of_runs
    {s s' : State}
    {tokens : List Token}
    (h : Runs s tokens s')
    (hSome : tokens ≠ []) :
    s'.hasOpened = true := by
  induction h with
  | nil => exact absurd rfl hSome
  | @cons s s' s'' t ts hStep hRest ih =>
      by_cases hNil : ts = []
      · subst hNil
        cases hRest
        exact (step_spec hStep []).2.1
      · exact ih hNil

/- Nothing is taken behind a closed list. -/
theorem ne_closed_of_runs
    {s s' : State}
    {tokens : List Token}
    (h : Runs s tokens s')
    (hSome : tokens ≠ [])
    (entries : List Entry) :
    s ≠ .closed entries := by
  cases h with
  | nil => exact absurd rfl hSome
  | cons hStep _ =>
      rintro rfl
      simp [step] at hStep

end Arguments

------------------------------------------------------------
-- Balance
------------------------------------------------------------

namespace Directive

open Arguments Scanner

/- The kinds of tokens that leave the balance as it is. -/
def isQuiet : TokenKind → Bool
  | .comment | .semicolon | .eof => true
  | _ => false

theorem kind_of_not_isWritten
    {t : Token}
    (h : isWritten t = false) :
    t.kind = .comment ∨ t.kind = .semicolon := by
  simp only [isWritten, Token.isImplied, Bool.not_eq_false',
    Bool.or_eq_true, Bool.and_eq_true, decide_eq_true_eq,
    beq_iff_eq] at h
  exact h.imp_right And.left

/- A test of kinds has to be made of the written tokens. -/
theorem forall_kind_of_written
    {p : TokenKind → Bool}
    {tokens : List Token}
    (hComment : p .comment = true)
    (hSemicolon : p .semicolon = true)
    (h : ∀ t ∈ tokens.filter isWritten, p t.kind = true) :
    ∀ t ∈ tokens, p t.kind = true := by
  intro t hMem
  cases hKept : isWritten t with
  | false =>
      rcases kind_of_not_isWritten hKept with hKind | hKind
      · rw [hKind]
        exact hComment
      · rw [hKind]
        exact hSemicolon
  | true => exact h t (List.mem_filter.mpr ⟨hMem, hKept⟩)

theorem depthFrom_of_not_isWritten
    {t : Token}
    (h : isWritten t = false)
    (depth : Int)
    (opened : Bool)
    (kinds : List TokenKind) :
    depthFrom depth opened (t.kind :: kinds) =
      depthFrom depth opened kinds := by
  rcases kind_of_not_isWritten h with hKind | hKind
  · rw [hKind, depthFrom]
  · rw [hKind, depthFrom]

/- The balance follows the state of the automaton. -/
theorem depthFrom_of_runs
    {s s' : Arguments.State}
    {tokens : List Token}
    (h : Runs s (tokens.filter isWritten) s')
    (kinds : List TokenKind) :
    depthFrom s.depth s.hasOpened
        (tokens.map Token.kind ++ kinds) =
      depthFrom s'.depth s'.hasOpened kinds := by
  induction tokens generalizing s with
  | nil =>
      cases h
      rfl
  | cons t tokens ih =>
      rw [List.map_cons, List.cons_append]
      cases hWritten : isWritten t with
      | false =>
          rw [depthFrom_of_not_isWritten hWritten]
          rw [List.filter_cons_of_neg (by simp [hWritten])] at h
          exact ih h
      | true =>
          rw [List.filter_cons_of_pos hWritten] at h
          cases h with
          | cons hStep hRest =>
              rcases step_spec hStep
                  (tokens.map Token.kind ++ kinds) with
                ⟨_, hOpened, hDepth⟩
              rw [hDepth, ← hOpened]
              exact ih hRest

/- What is read behind the parentheses changes nothing. -/
theorem depthFrom_of_isQuiet
    {kinds : List TokenKind}
    (h : ∀ k ∈ kinds, isQuiet k = true)
    (depth : Int) :
    depthFrom depth true kinds = depth := by
  induction kinds with
  | nil => rfl
  | cons k kinds ih =>
      rcases List.forall_mem_cons.mp h with ⟨hQuiet, hRest⟩
      unfold isQuiet at hQuiet
      split at hQuiet
      · rw [depthFrom, ih hRest]
      · rw [depthFrom, ih hRest]
      · rfl
      · cases hQuiet

theorem depth_eq
    (src : Bytes) :
    depth src =
      depthFrom 0 false
        (((tokens src).map Lexed.token).map Token.kind) := by
  rw [List.map_map]
  rfl

------------------------------------------------------------
-- Texts
------------------------------------------------------------

/- How the tokens of a text that can be parsed are taken. -/
theorem exists_runs_of_parse
    {src : Bytes}
    {locate : Nat → Position}
    {aliases : List Alias}
    (h : Alias.parse src locate = .ok aliases) :
    IsClean src ∧
      ∃ tokens eof accepted,
        written src = tokens ++ [eof] ∧ eof.kind = .eof ∧
          Runs .start tokens (.closed accepted) := by
  rcases Alias.parse_eq_ok_iff.mp h with ⟨entries, hRead, _⟩
  rcases read_eq_ok_iff.mp hRead with
    ⟨hClean, tokens, eof, accepted, hWritten, hEof, hRuns, _⟩
  exact ⟨hClean, tokens, eof, accepted, hWritten, hEof, hRuns⟩

/- The parentheses of a list that can be parsed match. -/
theorem depth_of_parse
    {src : Bytes}
    {locate : Nat → Position}
    {aliases : List Alias}
    (h : Alias.parse src locate = .ok aliases) :
    depth src = 0 := by
  rcases exists_runs_of_parse h with
    ⟨_, read, eof, accepted, hWritten, hEof, hRuns⟩
  rcases List.filter_eq_append_iff.mp hWritten with
    ⟨front, back, hTokens, hFront, hBack⟩
  rw [← hFront] at hRuns
  have hQuiet :
      ∀ k ∈ back.map Token.kind, isQuiet k = true := by
    rw [List.forall_mem_map]
    apply forall_kind_of_written (p := isQuiet) rfl rfl
    rw [hBack, List.forall_mem_singleton, hEof]
    rfl
  have hDepth :=
    depthFrom_of_runs hRuns (back.map Token.kind)
  rw [depth_eq, hTokens, List.map_append]
  exact hDepth.trans (depthFrom_of_isQuiet hQuiet 0)

/- A text without faults is not one of two-byte units. -/
theorem isWide_of_isClean
    {src : Bytes}
    (h : IsClean src) :
    (Cursor.ofText src).isWide = false := by
  have hStart := ((isClean_iff src).mp h).1
  apply Cursor.isWide_eq_false_of_arrive
  unfold start at hStart
  simp only at hStart
  split at hStart
  · exact (List.append_eq_nil_iff.mp hStart).1
  · exact hStart

/- No token of a list that can be parsed is out of place. -/
theorem isPlain_of_parse
    {src : Bytes}
    {locate : Nat → Position}
    {aliases : List Alias}
    (h : Alias.parse src locate = .ok aliases) :
    ∀ t ∈ (tokens src).map Lexed.token,
      isPlain t.kind = true := by
  rcases exists_runs_of_parse h with
    ⟨_, read, eof, accepted, hWritten, hEof, hRuns⟩
  apply forall_kind_of_written rfl rfl
  intro t hMem
  have hRead : t ∈ written src := hMem
  rw [hWritten] at hRead
  rcases List.mem_append.mp hRead with hRead | hLast
  · exact isPlain_of_runs hRuns t hRead
  · rw [List.mem_singleton.mp hLast, hEof]
    rfl

theorem isWritten_of_isParen
    {t : Token}
    (h : isParen t.kind = true) :
    isWritten t = true := by
  rw [← Bool.not_eq_false]
  intro hNot
  rcases kind_of_not_isWritten hNot with hKind | hKind
  · rw [hKind] at h
    cases h
  · rw [hKind] at h
    cases h

/- The offsets of the parentheses among some tokens. -/
def parenOffsets
    (tokens : List Token) : List Nat :=
  (tokens.filter fun t => isParen t.kind).map Token.offset

/- The offsets of the parentheses of a text. -/
def parens
    (src : Bytes) : List Nat :=
  parenOffsets ((tokens src).map Lexed.token)

theorem forall_mem_parenOffsets
    {tokens : List Token}
    {p : Nat → Prop}
    (h : ∀ t ∈ tokens, isParen t.kind = true → p t.offset) :
    ∀ n ∈ parenOffsets tokens, p n := by
  intro n hMem
  rcases List.mem_map.mp hMem with ⟨t, hToken, rfl⟩
  rcases List.mem_filter.mp hToken with ⟨hToken, hParen⟩
  exact h t hToken hParen

theorem exists_isWritten_of_parenOffsets
    {tokens : List Token}
    (h : parenOffsets tokens ≠ []) :
    ∃ t ∈ tokens.filter isWritten, isParen t.kind = true := by
  rcases List.exists_mem_of_ne_nil _ h with ⟨n, hMem⟩
  rcases List.mem_map.mp hMem with ⟨t, hToken, _⟩
  rcases List.mem_filter.mp hToken with ⟨hToken, hParen⟩
  exact ⟨t,
    List.mem_filter.mpr ⟨hToken, isWritten_of_isParen hParen⟩,
    hParen⟩

/-
  Between its first and its last parenthesis the text of a
  list has a parenthesis open wherever a line ends, be it in
  a literal or a comment.
-/
theorem depth_pos_of_cut
    {p q : Bytes}
    {locate : Nat → Position}
    {aliases : List Alias}
    (h : Alias.parse (p ++ 0x0a :: q) locate = .ok aliases)
    (hFirst :
      ∃ n ∈ (parens (p ++ 0x0a :: q)).head?, n < p.length)
    (hLast :
      ∃ n ∈ (parens (p ++ 0x0a :: q)).getLast?,
        p.length ≤ n) :
    0 < depth p := by
  rcases exists_runs_of_parse h with
    ⟨hClean, read, eof, accepted, hWritten, hEof, hRuns⟩
  rcases exists_splitsAt_tokens (isWide_of_isClean hClean)
      (isPlain_of_parse h) with ⟨front, back, tail, hSplits⟩
  have hParens :
      parens (p ++ 0x0a :: q) =
        parenOffsets front ++ parenOffsets back := by
    rw [parens, hSplits.whole, parenOffsets, List.filter_append,
      List.map_append]
    rfl
  have hBefore : ∀ n ∈ parenOffsets front, n < p.length :=
    forall_mem_parenOffsets hSplits.before
  have hBehind : ∀ n ∈ parenOffsets back, p.length ≤ n :=
    forall_mem_parenOffsets hSplits.behind
  rw [hParens] at hFirst hLast
  have hOpening : parenOffsets front ≠ [] := by
    intro hNil
    rcases hFirst with ⟨n, hHead, hLess⟩
    rw [hNil, List.nil_append] at hHead
    have hLater := hBehind n (List.mem_of_head? hHead)
    omega
  have hClosing : parenOffsets back ≠ [] := by
    intro hNil
    rcases hLast with ⟨n, hEnd, hLess⟩
    rw [hNil, List.append_nil] at hEnd
    have hEarlier := hBefore n (List.mem_of_getLast? hEnd)
    omega
  rcases exists_isWritten_of_parenOffsets hOpening with
    ⟨opening, hFront, _⟩
  rcases exists_isWritten_of_parenOffsets hClosing with
    ⟨closing, hBack, hKind⟩
  -- the end of the text is not among the tokens that are read
  have hWhole :
      front.filter isWritten ++ back.filter isWritten =
        read ++ [eof] := by
    rw [← List.filter_append, ← hSplits.whole, ← hWritten]
    rfl
  rcases List.eq_nil_or_concat' (back.filter isWritten) with
    hNil | ⟨rest, last, hConcat⟩
  · rw [hNil] at hBack
    cases hBack
  · rw [hConcat, ← List.append_assoc] at hWhole
    rcases List.append_inj' hWhole rfl with ⟨hRead, hEnd⟩
    rw [← hRead] at hRuns
    have hRest : rest ≠ [] := by
      rintro rfl
      rw [hConcat, List.nil_append, hEnd,
        List.mem_singleton] at hBack
      rw [hBack, hEof] at hKind
      cases hKind
    rcases exists_of_runs_append hRuns with
      ⟨s, hLeft, hRight⟩
    have hOpened :=
      hasOpened_of_runs hLeft (List.ne_nil_of_mem hFront)
    have hDepth := depthFrom_of_runs hLeft tail
    have hQuiet : ∀ k ∈ tail, isQuiet k = true := by
      intro k hMem
      rcases hSplits.ending k hMem with rfl | rfl
      · rfl
      · rfl
    rw [hOpened, depthFrom_of_isQuiet hQuiet] at hDepth
    rw [depth_eq, hSplits.cut]
    have hPos :=
      State.depth_pos hOpened (ne_closed_of_runs hRight hRest)
    exact hDepth ▸ hPos

end Directive

end Namesake
