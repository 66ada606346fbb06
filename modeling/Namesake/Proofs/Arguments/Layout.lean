import Namesake.Proofs.Arguments.FirstError
import Namesake.Proofs.Arguments.Printing
import Namesake.Proofs.Scanner.Words

/-
  The layout of directive arguments.  Texts that write the
  same tokens with blanks between them are read alike: the
  semicolons that line ends imply are left out, and neither
  the entries nor the messages depend on offsets.

  Main declarations:
    * `Scanner.Writes`
    * `Scanner.passes_gap`
    * `Scanner.written_of_writes`
    * `Arguments.step_bare` and `Arguments.said_readFrom`
    * `Alias.parse_ignores_layout`
-/

namespace Namesake

namespace Scanner

open Cursor

------------------------------------------------------------
-- Gaps
------------------------------------------------------------

/- Text that may stand between two tokens. -/
def IsGap
    (g : Bytes) : Prop :=
  ∀ b ∈ g, IsBlankByte b

instance
    (g : Bytes) :
    Decidable (IsGap g) :=
  List.decidableBAll (fun b => IsBlankByte b) g

/-
  The text writes these tokens, with gaps between them.  The
  gap at the beginning may be empty unless there is a token
  behind which the text stands.
-/
inductive Writes : Bool → List Token → Bytes → Prop where
  | nil
      {behind : Bool}
      {g : Bytes}
      (hGap : IsGap g) :
      Writes behind [] g
  | cons
      {behind : Bool}
      {g v w text : Bytes}
      {kind : TokenKind}
      {ts : List Token}
      (hGap : IsGap g)
      (hApart : behind = true → g ≠ [])
      (hWord : IsWord v kind text)
      (hRest : Writes true ts w) :
      Writes behind (⟨kind, 0, text⟩ :: ts) (g ++ (v ++ w))

theorem head?_of_gap
    {g s : Bytes}
    {b : UInt8}
    (hGap : IsGap g)
    (hSome : g ≠ [])
    (hHead : (g ++ s).head? = some b) :
    IsBlankByte b := by
  cases g with
  | nil => exact absurd rfl hSome
  | cons =>
      cases hHead
      exact hGap b List.mem_cons_self

/- Behind a token, a gap or nothing follows. -/
theorem endsWord_of_writes
    {ts : List Token}
    {w : Bytes}
    (h : Writes true ts w) :
    EndsWord w := by
  intro b hHead
  cases h with
  | nil hGap =>
      exact hGap b (List.mem_of_head? hHead)
  | cons hGap hApart _ _ =>
      exact head?_of_gap hGap (hApart rfl) hHead

/- A place where a text starts that is all right so far. -/
structure IsFair
    (c : Cursor) : Prop where
  arrive : c.arrive = []
  mark : c.code? ≠ some 0xfeff

theorem isFair_of_head
    {c : Cursor}
    (h : ∀ b, c.rest.head? = some b → IsBlankByte b) :
    IsFair c := by
  cases hRest : c.rest with
  | nil =>
      constructor
      · simp [Cursor.arrive, hRest, Utf8.split?]
      · intro hCode
        exact rest_ne_nil_of_code? hCode hRest
  | cons b s =>
      have hBlank : IsBlankByte b := h b (by simp [hRest])
      constructor
      · exact arrive_of_head hRest hBlank.ascii.1 hBlank.ascii.2
      · rw [Number.code?_of_head hRest hBlank.ascii.2]
        rcases hBlank with rfl | rfl | rfl | rfl <;> decide

theorem isFair_of_gap
    {g r : Bytes}
    {c : Cursor}
    (hGap : IsGap g)
    (hFair : ∀ d : Cursor, d.rest = r → IsFair d)
    (hRest : c.rest = g ++ r) :
    IsFair c := by
  by_cases hEmpty : g = []
  · rw [hEmpty, List.nil_append] at hRest
    exact hFair c hRest
  · apply isFair_of_head
    intro b hHead
    rw [hRest] at hHead
    exact head?_of_gap hGap hEmpty hHead

theorem isFair_of_word
    {v w text : Bytes}
    {kind : TokenKind}
    {c : Cursor}
    (hWord : IsWord v kind text)
    (hBehind : EndsWord w)
    (hRest : c.rest = v ++ w) :
    IsFair c := by
  rcases hWord.reads hBehind hRest with
    ⟨code, _, hCode, _, hMark, hArrive, _, _⟩
  refine ⟨hArrive, ?_⟩
  rw [hCode]
  exact fun hSame => hMark (Option.some.inj hSame)

theorem isFair_of_writes
    {behind : Bool}
    {ts : List Token}
    {c : Cursor}
    (h : Writes behind ts c.rest) :
    IsFair c := by
  generalize hRest : c.rest = src at h
  cases h with
  | nil hGap =>
      exact isFair_of_gap hGap
        (fun d hd => isFair_of_head (by simp [hd]))
        (hRest.trans (List.append_nil _).symm)
  | cons hGap _ hWord hLater =>
      exact isFair_of_gap hGap
        (fun d => isFair_of_word hWord
          (endsWord_of_writes hLater))
        hRest

------------------------------------------------------------
-- Passing a Gap
------------------------------------------------------------

/- A step does not depend on the blanks before its token. -/
theorem step_of_skipWhile
    {s : State}
    {d : Cursor}
    (hPending : s.pending = none)
    (hSkip : s.cursor.skipWhile (isBlank s.implies) = (d, []))
    (hStop : d.skipWhile (isBlank s.implies) = (d, [])) :
    step s = step { s with cursor := d } := by
  rw [step, step]
  simp only [hPending, hSkip, hStop]

/- A gap in which no line end counts. -/
private theorem passes_blanks
    {s : State}
    {g r : Bytes}
    (hGap : IsGap g)
    (hBlank : ∀ b ∈ g, isBlank s.implies b.toNat = true)
    (hFair : ∀ d : Cursor, d.rest = r → IsFair d)
    (hStop :
      ∀ d : Cursor, d.rest = r →
        ∀ implies, d.skipWhile (isBlank implies) = (d, []))
    (hPending : s.pending = none)
    (hHere : s.cursor.arrive = [])
    (hRest : s.cursor.rest = g ++ r) :
    ∃ s',
      tokensFrom s = tokensFrom s' ∧
        s'.pending = none ∧ s'.cursor.rest = r := by
  rcases skipWhile_of_ascii
      (fun b hMem => ⟨(hGap b hMem).ascii, hBlank b hMem⟩)
      (fun d hd => (hFair d hd).arrive)
      (fun d hd => hStop d hd s.implies) hHere hRest with
    ⟨d, hSkip, hd⟩
  exact ⟨{ s with cursor := d },
    tokensFrom_of_step_eq (step_of_skipWhile hPending hSkip
      (hStop d hd s.implies)), hPending, hd⟩

/- Other blanks than line ends are always passed over. -/
private theorem isBlank_of_ne_line
    {g : Bytes}
    (hGap : IsGap g)
    (hLine : 0x0a ∉ g)
    (implies : Bool) :
    ∀ b ∈ g, isBlank implies b.toNat = true := by
  intro b hMem
  rcases hGap b hMem with rfl | rfl | rfl | rfl
  · rfl
  · rfl
  · rfl
  · exact absurd hMem hLine

/-
  Behind a gap the scanner goes on where the gap ends.  It
  may have read a semicolon that a line end implies.
-/
theorem passes_gap
    {s : State}
    {g r : Bytes}
    (hGap : IsGap g)
    (hFair : ∀ d : Cursor, d.rest = r → IsFair d)
    (hStop :
      ∀ d : Cursor, d.rest = r →
        ∀ implies, d.skipWhile (isBlank implies) = (d, []))
    (hPending : s.pending = none)
    (hHere : s.cursor.arrive = [])
    (hRest : s.cursor.rest = g ++ r) :
    ∃ read s',
      tokensFrom s = read ++ tokensFrom s' ∧
        (∀ u ∈ read,
          u.faults = [] ∧ isWritten u.token = false) ∧
        s'.pending = none ∧ s'.cursor.rest = r := by
  by_cases hCounts : s.implies = true ∧ 0x0a ∈ g
  · rcases List.eq_append_cons_of_mem hCounts.2 with
      ⟨front, back, rfl, hFront⟩
    have hFrontGap : IsGap front := fun b hMem =>
      hGap b (List.mem_append_left _ hMem)
    have hBackGap : IsGap back := fun b hMem =>
      hGap b (List.mem_append_right _
        (List.mem_cons_of_mem _ hMem))
    have hLine (d : Cursor) (hd : d.rest = 0x0a :: (back ++ r)) :
        IsFair d ∧ d.code? = some 0x0a :=
      ⟨isFair_of_head (by simp [hd, IsBlankByte]),
        Number.code?_of_head hd (by decide)⟩
    rw [List.append_assoc, List.cons_append] at hRest
    rcases skipWhile_of_ascii (p := isBlank s.implies)
        (fun b hMem => ⟨(hFrontGap b hMem).ascii,
          isBlank_of_ne_line hFrontGap hFront s.implies b hMem⟩)
        (fun d hd => (hLine d hd).1.arrive)
        (fun d hd => skipWhile_of_not (hLine d hd).2
          (by rw [hCounts.1]; rfl))
        hHere hRest with
      ⟨d, hSkip, hd⟩
    have hBehind : s.behindBlanks = (d, []) := hSkip
    have hStep := step_of_lineEnd hPending
      (by rw [hBehind]; exact (hLine d hd).2)
    have hNext : d.next.rest = back ++ r :=
      rest_next_of_ascii
        (isWide_eq_false_of_arrive (hLine d hd).1.arrive) hd
        (by decide)
    have hArrive := (isFair_of_gap hBackGap hFair hNext).arrive
    rw [hBehind] at hStep
    simp only [List.nil_append, hArrive] at hStep
    rcases passes_blanks (s := ⟨d.next, false, none⟩) hBackGap
        (fun b hMem => (hBackGap b hMem).isBlank) hFair hStop
        rfl hArrive hNext with
      ⟨s', hTokens, hRest'⟩
    refine ⟨[(step s).1], s', ?_, ?_, hRest'⟩
    · rw [tokensFrom_of_not_eof (by rw [hStep]; simp [implied]),
        hStep, ← hTokens]
      rfl
    · rw [hStep]
      simp [implied, isWritten, Token.isImplied]
  · have hBlank :
        ∀ b ∈ g, isBlank s.implies b.toNat = true := by
      cases hImplies : s.implies with
      | false => exact fun b hMem => (hGap b hMem).isBlank
      | true =>
          exact isBlank_of_ne_line hGap
            (fun hMem => hCounts ⟨hImplies, hMem⟩) true
    rcases passes_blanks hGap hBlank hFair hStop hPending hHere
        hRest with
      ⟨s', hTokens, hRest'⟩
    exact ⟨[], s', hTokens, by simp, hRest'⟩

------------------------------------------------------------
-- Texts of Words
------------------------------------------------------------

/- Where a word starts, or nothing more, no blanks are passed. -/
theorem skipWhile_of_word
    {v w text : Bytes}
    {kind : TokenKind}
    {d : Cursor}
    (hWord : IsWord v kind text)
    (hBehind : EndsWord w)
    (hRest : d.rest = v ++ w)
    (implies : Bool) :
    d.skipWhile (isBlank implies) = (d, []) := by
  rcases hWord.reads hBehind hRest with
    ⟨code, _, hCode, hBlank, _, _, _, _⟩
  apply skipWhile_of_not hCode
  cases implies with
  | false => exact hBlank
  | true => simp_all [isBlank]

theorem skipWhile_of_nil
    {p : Nat → Bool}
    {d : Cursor}
    (hRest : d.rest = []) :
    d.skipWhile p = (d, []) := by
  rw [skipWhile]
  simp [hRest]

/- One step reads a word. -/
theorem step_of_isWord
    {s : State}
    {v w text : Bytes}
    {kind : TokenKind}
    (hWord : IsWord v kind text)
    (hBehind : EndsWord w)
    (hPending : s.pending = none)
    (hRest : s.cursor.rest = v ++ w) :
    (step s).1.token = ⟨kind, s.cursor.offset, text⟩ ∧
      (step s).1.faults = [] ∧
      (step s).2.pending = none ∧
      (step s).2.cursor.rest = w := by
  rcases hWord.reads hBehind hRest with
    ⟨code, e, hCode, hBlank, _, _, hPiece, hEnd⟩
  have hLine : code ≠ 0x0a := by
    rintro rfl
    cases hBlank
  have hSkip : s.behindBlanks = (s.cursor, []) :=
    skipWhile_of_word hWord hBehind hRest s.implies
  have hStep := step_of_piece hPending
    (by rw [hSkip]; exact hCode) hLine
  rw [hStep, hSkip]
  simp only [hPiece, afterPiece, hWord.written.1, if_false]
  exact ⟨trivial, rfl, trivial, hEnd⟩

/- A token at the beginning of a text. -/
def bare
    (t : Token) : Token :=
  { t with offset := 0 }

/- What does not count may stand in front. -/
private theorem filter_written_append
    {read : List Lexed}
    (h : ∀ u ∈ read, isWritten u.token = false)
    (later : List Lexed) :
    ((read ++ later).map Lexed.token).filter isWritten =
      (later.map Lexed.token).filter isWritten := by
  rw [List.map_append, List.filter_append,
    List.filter_eq_nil_iff.mpr, List.nil_append]
  intro t hMem
  rcases List.mem_map.mp hMem with ⟨u, hu, rfl⟩
  rw [h u hu]
  exact Bool.false_ne_true

/-
  A text that writes some tokens is clean, and these are
  what is written in it, up to where they stand.
-/
theorem tokensFrom_of_writes
    {behind : Bool}
    {ts : List Token}
    {src : Bytes}
    {s : State}
    (h : Writes behind ts src)
    (hPending : s.pending = none)
    (hRest : s.cursor.rest = src) :
    (∀ u ∈ tokensFrom s, u.faults = []) ∧
      ∃ front eof,
        ((tokensFrom s).map Lexed.token).filter isWritten =
            front ++ [eof] ∧
          eof.kind = .eof ∧ front.map bare = ts := by
  have hHere := (isFair_of_writes (hRest ▸ h)).arrive
  induction h generalizing s with
  | @nil behind g hGap =>
      rcases passes_gap hGap
          (fun d hd => isFair_of_head (by simp [hd]))
          (fun d hd _ => skipWhile_of_nil hd) hPending hHere
          (hRest.trans (List.append_nil g).symm) with
        ⟨read, s', hTokens, hRead, hPending', hRest'⟩
      rcases tokensFrom_of_nil hPending' hRest' with
        ⟨eof, hEof, hWritten, hClean⟩
      rw [hTokens]
      refine ⟨?_, [], eof, ?_, hEof, rfl⟩
      · exact List.forall_mem_append.mpr
          ⟨fun u hu => (hRead u hu).1, hClean⟩
      · rw [filter_written_append fun u hu => (hRead u hu).2,
          hWritten]
        rfl
  | @cons behind g v w text kind ts hGap _ hWord hLater ih =>
      have hBehind := endsWord_of_writes hLater
      rcases passes_gap hGap
          (fun d => isFair_of_word hWord hBehind)
          (fun d => skipWhile_of_word hWord hBehind)
          hPending hHere hRest with
        ⟨read, s', hTokens, hRead, hPending', hRest'⟩
      rcases step_of_isWord hWord hBehind hPending' hRest' with
        ⟨hToken, hFaults, hNext, hNextRest⟩
      rcases ih hNext hNextRest
          (isFair_of_writes (hNextRest ▸ hLater)).arrive with
        ⟨hClean, front, eof, hWritten, hEof, hFront⟩
      have hMore : (step s').1.token.kind ≠ .eof := by
        rw [hToken]
        exact hWord.written.2
      rw [hTokens, tokensFrom_of_not_eof hMore]
      refine ⟨?_, (step s').1.token :: front, eof, ?_, hEof,
        ?_⟩
      · refine List.forall_mem_append.mpr
          ⟨fun u hu => (hRead u hu).1, ?_⟩
        exact List.forall_mem_cons.mpr ⟨hFaults, hClean⟩
      · rw [filter_written_append fun u hu => (hRead u hu).2,
          List.map_cons, List.filter_cons, hWritten, hToken,
          hWord.isWritten]
        rfl
      · rw [List.map_cons, hFront, hToken]
        rfl

theorem written_of_writes
    {ts : List Token}
    {src : Bytes}
    (h : Writes false ts src) :
    IsClean src ∧
      ∃ front eof,
        written src = front ++ [eof] ∧ eof.kind = .eof ∧
          front.map bare = ts := by
  have hFair : IsFair (Cursor.ofText src) := isFair_of_writes h
  have hStart :
      start src = (⟨Cursor.ofText src, false, none⟩, []) := by
    simp [start, hFair.mark, hFair.arrive]
  rcases tokensFrom_of_writes
      (s := ⟨Cursor.ofText src, false, none⟩) h rfl rfl with
    ⟨hClean, hWritten⟩
  refine ⟨?_, ?_⟩
  · rw [isClean_iff, hStart]
    exact ⟨rfl, hClean⟩
  · unfold written
    rw [map_token_tokens, hStart]
    exact hWritten

end Scanner

------------------------------------------------------------
-- Reading Without Offsets
------------------------------------------------------------

namespace Arguments

open Scanner

/- An entry that stands at the beginning. -/
def Entry.bare
    (e : Entry) : Entry :=
  { e with offset := 0 }

/- What has been read, without offsets. -/
def State.bare : State → State
  | .start => .start
  | .listing entries => .listing (entries.map Entry.bare)
  | .listed entries last =>
      .listed (entries.map Entry.bare) last.bare
  | .deprecated entries => .deprecated (entries.map Entry.bare)
  | .deprecatedOpen entries =>
      .deprecatedOpen (entries.map Entry.bare)
  | .details entries e d =>
      .details (entries.map Entry.bare) e.bare d
  | .detail entries e d =>
      .detail (entries.map Entry.bare) e.bare d
  | .assigning entries e d k =>
      .assigning (entries.map Entry.bare) e.bare d k
  | .assigned entries e d k =>
      .assigned (entries.map Entry.bare) e.bare d k
  | .closed entries => .closed (entries.map Entry.bare)

/- A cause about a token that stands at the beginning. -/
def Cause.bare : Cause → Cause
  | .opening t => .opening (Scanner.bare t)
  | .aliasName t => .aliasName (Scanner.bare t)
  | .separator name t => .separator name (Scanner.bare t)
  | .trailing t => .trailing (Scanner.bare t)
  | .deprecatedOpening t => .deprecatedOpening (Scanner.bare t)
  | .deprecatedName t => .deprecatedName (Scanner.bare t)
  | .deprecatedSeparator name t =>
      .deprecatedSeparator name (Scanner.bare t)
  | .key t => .key (Scanner.bare t)
  | .assign k t => .assign k (Scanner.bare t)
  | .value k t => .value k (Scanner.bare t)
  | cause => cause

/- No message tells where a token stands. -/
@[simp] theorem message_bare
    (cause : Cause) :
    cause.bare.message = cause.message := by
  cases cause <;> rfl

@[simp] theorem suggestions_bare
    (cause : Cause) :
    cause.bare.suggestions = cause.suggestions := by
  cases cause <;> rfl

/- No step depends on where its token stands. -/
theorem step_bare
    (s : State)
    (t : Token) :
    step s.bare (bare t) =
      ((step s t).map State.bare).mapError Cause.bare := by
  -- both sides take the same branch, so one split decides both
  unfold step
  cases s with
  | start | listed | deprecated | deprecatedOpen | details
  | assigning | closed =>
      simp only [State.bare]
      repeat' split
      all_goals first | contradiction | rfl
  | listing entries =>
      simp only [State.bare, List.isEmpty_map]
      repeat' split
      all_goals first | contradiction | rfl
  | detail entries e d =>
      simp only [State.bare,
        show (Scanner.bare t).text = t.text from rfl]
      cases Key.ofName? t.text
      all_goals
        repeat' split
      all_goals first | contradiction | rfl
  | assigned entries e d k =>
      simp only [State.bare,
        show (Scanner.bare t).text = t.text from rfl]
      cases Quoted.decode? t.text
      all_goals
        repeat' split
      all_goals first | contradiction | rfl

/- What an outcome says, wherever it was read. -/
def said :
    Except Error (List Entry) →
      Except (Bytes × List Bytes)
        (List (Bytes × Option Deprecation))
  | .ok entries =>
      .ok (entries.map fun e => (e.name, e.deprecation))
  | .error e => .error (e.cause.message, e.cause.suggestions)

/- At the end of the tokens, too. -/
private theorem said_readFrom_nil
    (offset : Nat)
    (s : State) :
    said (readFrom (.finished offset) s []) =
      said (readFrom (.finished 0) s.bare []) := by
  have hStep := step_bare s ⟨.eof, offset, []⟩
  cases s with
  | closed entries =>
      simp [State.bare, readFrom, said, Entry.bare,
        Function.comp_def]
  | start | listing | listed | deprecated | deprecatedOpen
  | details | detail | assigning | assigned =>
      simp only [State.bare, Scanner.bare] at hStep
      simp only [State.bare, readFrom, hStep]
      cases step _ _ with
      | ok s' => rfl
      | error cause =>
          simp [said, Except.map, Except.mapError]

/- Reading says the same of tokens without their offsets. -/
theorem said_readFrom
    (offset : Nat)
    (s : State)
    (ts : List Token) :
    said (readFrom (.finished offset) s ts) =
      said (readFrom (.finished 0) s.bare (ts.map bare)) := by
  induction ts generalizing s with
  | nil => exact said_readFrom_nil offset s
  | cons t ts ih =>
      have hStep := step_bare s t
      rw [List.map_cons]
      unfold readFrom
      rw [hStep]
      cases step s t with
      | ok s' => exact ih s'
      | error cause =>
          simp [said, Except.map, Except.mapError]

/- A text is read like the bare tokens it writes. -/
theorem said_read_of_writes
    {ts : List Token}
    {src : Bytes}
    (h : Writes false ts src) :
    said (read src) = said (readFrom (.finished 0) .start ts) := by
  rcases written_of_writes h with
    ⟨hClean, front, eof, hWritten, hEof, hFront⟩
  have hReaches := ofLexed_reaches (endsOnce_tokens src)
  have hRead := said_readFrom (s := .start)
  unfold read Stream.ofText
  generalize Stream.ofLexed (tokens src) = s at *
  cases hReaches with
  | @finished eof' hEof' hEnding hTokens _ =>
      have hSame : front ++ [eof] = s.tokens ++ [eof'] :=
        hWritten.symm.trans hTokens
      rcases List.append_inj' hSame rfl with ⟨rfl, _⟩
      simp only [hEnding]
      rw [hRead, hFront]
      rfl
  | fault _ _ _ _ hAll =>
      rcases hAll with ⟨faults, hFaults⟩
      have hNone : (tokens src).flatMap Lexed.faults = [] :=
        List.flatMap_eq_nil_iff.mpr hClean
      rw [hNone] at hFaults
      cases hFaults

end Arguments

------------------------------------------------------------
-- Aliases
------------------------------------------------------------

namespace Alias

open Arguments Scanner

/-
  Two texts that write the same tokens, with blanks between
  them, list the same names and deprecations, or both are
  rejected, with diagnostics that differ in their spans only.
-/
theorem parse_ignores_layout
    {ts : List Token}
    {src src' : Bytes}
    (h : Writes false ts src)
    (h' : Writes false ts src')
    (locate locate' : Nat → Position) :
    (∃ aliases aliases',
        parse src locate = .ok aliases ∧
          parse src' locate' = .ok aliases' ∧
          aliases.map (fun a => (a.name, a.deprecation)) =
            aliases'.map (fun a => (a.name, a.deprecation))) ∨
      ∃ d d',
        parse src locate = .error d ∧
          parse src' locate' = .error d' ∧
          d = { d' with span := d.span } := by
  have hSaid : said (read src) = said (read src') :=
    (said_read_of_writes h).trans (said_read_of_writes h').symm
  unfold parse
  cases hRead : read src with
  | ok entries =>
      cases hRead' : read src' with
      | ok entries' =>
          rw [hRead, hRead'] at hSaid
          refine .inl ⟨_, _, rfl, rfl, ?_⟩
          simpa [said, ofEntry, Function.comp_def] using hSaid
      | error e' =>
          rw [hRead, hRead'] at hSaid
          cases hSaid
  | error e =>
      cases hRead' : read src' with
      | ok entries' =>
          rw [hRead, hRead'] at hSaid
          cases hSaid
      | error e' =>
          rw [hRead, hRead'] at hSaid
          simp only [said, Except.error.injEq, Prod.mk.injEq]
            at hSaid
          refine .inr ⟨_, _, rfl, rfl, ?_⟩
          simp [diagnose, hSaid]

/- A list of one name on one line, and on two. -/
def inLine : Bytes :=
  utf8 "( A )"

def broken : Bytes :=
  utf8 "(\tA\r\n)\n"

def nameInParens : List Token :=
  [⟨.leftParen, 0, []⟩, ⟨.ident, 0, utf8 "A"⟩,
    ⟨.rightParen, 0, []⟩]

theorem parse_ignores_line_end :
    Writes false nameInParens inLine ∧
      Writes false nameInParens broken ∧
      ∃ aliases aliases',
        parse inLine (Position.inText inLine) = .ok aliases ∧
          parse broken (Position.inText broken) = .ok aliases' ∧
          aliases.map (fun a => (a.name, a.deprecation)) =
            aliases'.map (fun a => (a.name, a.deprecation)) := by
  have hOpen : IsWord (utf8 "(") .leftParen [] := by
    decide +kernel
  have hName : IsWord (utf8 "A") .ident (utf8 "A") := by
    decide +kernel
  have hClose : IsWord (utf8 ")") .rightParen [] := by
    decide +kernel
  have hNone : IsGap [] := by decide
  have hSpace : IsGap (utf8 " ") := by decide
  have hTab : IsGap (utf8 "\t") := by decide
  have hBreak : IsGap (utf8 "\r\n") := by decide
  have hFeed : IsGap (utf8 "\n") := by decide
  have hInLine : Writes false nameInParens inLine :=
    .cons (g := []) hNone (by decide) hOpen
      (.cons (g := utf8 " ") hSpace (by decide) hName
        (.cons (g := utf8 " ") hSpace (by decide) hClose
          (.nil (g := []) hNone)))
  have hBroken : Writes false nameInParens broken :=
    .cons (g := []) hNone (by decide) hOpen
      (.cons (g := utf8 "\t") hTab (by decide) hName
        (.cons (g := utf8 "\r\n") hBreak (by decide) hClose
          (.nil (g := utf8 "\n") hFeed)))
  have hOk :
      (parse inLine (Position.inText inLine)).isOk = true := by
    decide +kernel
  refine ⟨hInLine, hBroken, ?_⟩
  rcases parse_ignores_layout hInLine hBroken
      (Position.inText inLine) (Position.inText broken) with
    hAliases | ⟨d, _, hError, _⟩
  · exact hAliases
  · rw [hError] at hOk
    cases hOk

end Alias

end Namesake
