import Namesake.Proofs.Arguments.Acceptance

/-
  Reading directive arguments from a text: a list of aliases
  comes out exactly if the text splits into tokens without a
  fault and the tokens are a sentence of the grammar, and the
  list is the one that the sentence denotes.

  Main declarations:
    * `Scanner.IsClean` and `Scanner.written`
    * `Arguments.readFrom_finished_eq_ok_iff`
    * `Alias.exists_parse_of_isSentence`
    * `Alias.isSentence_of_parse`
    * `Alias.parse_accepts_exactly_sentences`
-/

namespace Namesake

------------------------------------------------------------
-- Token Streams of Clean Texts
------------------------------------------------------------

namespace Scanner

/- The text splits into tokens without a fault. -/
def IsClean
    (src : Bytes) : Prop :=
  ∀ t ∈ tokens src, t.faults = []

/- A clean text has no fault at its start nor in any step. -/
theorem isClean_iff
    (src : Bytes) :
    IsClean src ↔
      (start src).2 = [] ∧
        ∀ t ∈ tokensFrom (start src).1, t.faults = [] := by
  have hEnds := endsOnce_tokensFrom (start src).1
  unfold IsClean tokens
  cases hTokens : tokensFrom (start src).1 with
  | nil =>
      rw [hTokens] at hEnds
      cases hEnds
  | cons t ts =>
      simp only [hTokens, List.forall_mem_cons,
        List.append_eq_nil_iff, and_assoc]

/- Does the token count, unlike comments and implied semicolons? -/
def isWritten
    (t : Token) : Bool :=
  !(t.kind = .comment || t.isImplied)

/-
  The tokens of a text up to and with its end, without
  comments and implied semicolons.
-/
def written
    (src : Bytes) : List Token :=
  ((tokens src).map Lexed.token).filter isWritten

end Scanner

namespace Arguments

open Scanner

/- The end of the text counts. -/
theorem isWritten_of_eof
    {t : Token}
    (h : t.kind = .eof) :
    isWritten t = true := by
  simp [isWritten, Token.isImplied, h]

/- A list without faults gives all of its written tokens. -/
private theorem ofLexed_of_clean
    {ts : List Lexed}
    (hEnds : EndsOnce ts)
    (hClean : ∀ t ∈ ts, t.faults = []) :
    ∃ eof offset,
      eof.kind = .eof ∧
        (Stream.ofLexed ts).ending = .finished offset ∧
        (ts.map Lexed.token).filter isWritten =
          (Stream.ofLexed ts).tokens ++ [eof] := by
  induction hEnds with
  | last hEof =>
      rename_i t
      have hFaults : t.faults = [] := hClean t (by simp)
      refine ⟨t.token, t.token.offset, hEof, ?_, ?_⟩
      · simp [Stream.ofLexed, hFaults, hEof]
      · simp [Stream.ofLexed, hFaults, hEof,
          isWritten_of_eof hEof]
  | cons hKind _ ih =>
      rename_i t ts _
      have hFaults : t.faults = [] := hClean t (by simp)
      rcases ih fun u hu => hClean u (by simp [hu]) with
        ⟨eof, offset, hEof, hEnding, hTokens⟩
      refine ⟨eof, offset, hEof, ?_, ?_⟩
      · simp only [Stream.ofLexed, hFaults, if_neg hKind]
        split
        · exact hEnding
        · exact hEnding
      · simp only [Stream.ofLexed, hFaults, if_neg hKind,
          List.map_cons, List.filter_cons, hTokens]
        by_cases hSkip :
            (t.token.kind = .comment || t.token.isImplied) = true
        · simp [isWritten, hSkip]
        · simp [isWritten, hSkip]

/- A fault anywhere ends the stream with a fault. -/
private theorem ofLexed_of_fault
    {ts : List Lexed}
    (hEnds : EndsOnce ts)
    (hFault : ¬ ∀ t ∈ ts, t.faults = []) :
    ∃ f, (Stream.ofLexed ts).ending = .fault f := by
  induction hEnds with
  | last hEof =>
      rename_i t
      cases hFaults : t.faults with
      | nil => simp [hFaults] at hFault
      | cons f _ => exact ⟨f, by simp [Stream.ofLexed, hFaults]⟩
  | cons hKind _ ih =>
      rename_i t ts _
      cases hFaults : t.faults with
      | nil =>
          have hLater : ¬ ∀ u ∈ ts, u.faults = [] := by
            intro hAll
            apply hFault
            intro u hu
            rcases List.mem_cons.mp hu with rfl | hu
            · exact hFaults
            · exact hAll u hu
          rcases ih hLater with ⟨f, hf⟩
          refine ⟨f, ?_⟩
          simp only [Stream.ofLexed, hFaults, if_neg hKind]
          split
          · exact hf
          · exact hf
      | cons f _ => exact ⟨f, by simp [Stream.ofLexed, hFaults]⟩

------------------------------------------------------------
-- Reading
------------------------------------------------------------

/- The end of the text is no step of the automaton. -/
theorem step_eof
    (s : State)
    {t : Token}
    (h : t.kind = .eof) :
    ∃ cause, step s t = .error cause := by
  cases s <;> simp [step, h]

/- Reading succeeds exactly for a run that closes the list. -/
theorem readFrom_finished_eq_ok_iff
    {offset : Nat}
    {s : State}
    {tokens : List Token}
    {entries : List Entry} :
    readFrom (.finished offset) s tokens = .ok entries ↔
      ∃ read,
        Runs s tokens (.closed read) ∧
          entries = read.reverse := by
  induction tokens generalizing s with
  | nil =>
      constructor
      · intro h
        by_cases hClosed : ∃ read, s = .closed read
        · rcases hClosed with ⟨read, rfl⟩
          simp only [readFrom, Except.ok.injEq] at h
          exact ⟨read, Runs.nil, h.symm⟩
        · -- any other state fails at the end of the text
          rcases step_eof s (t := ⟨.eof, offset, []⟩) rfl with
            ⟨cause, hStep⟩
          simp only [readFrom] at h
          split at h
          · rename_i read
            exact absurd ⟨read, rfl⟩ hClosed
          · rw [hStep] at h
            cases h
      · rintro ⟨read, hRuns, rfl⟩
        cases hRuns
        rfl
  | cons t ts ih =>
      constructor
      · intro h
        unfold readFrom at h
        split at h
        · rename_i s' hStep
          rcases ih.mp h with ⟨read, hRuns, hEntries⟩
          exact ⟨read, Runs.cons hStep hRuns, hEntries⟩
        · cases h
      · rintro ⟨read, hRuns, rfl⟩
        cases hRuns with
        | cons hStep hRest =>
            unfold readFrom
            rw [hStep]
            exact ih.mpr ⟨read, hRest, rfl⟩

/- A stream that ends with a fault is never read. -/
theorem readFrom_fault_ne_ok
    {f : Fault}
    {s : State}
    {tokens : List Token}
    {entries : List Entry} :
    readFrom (.fault f) s tokens ≠ .ok entries := by
  induction tokens generalizing s with
  | nil =>
      unfold readFrom
      simp
  | cons t ts ih =>
      unfold readFrom
      split
      · exact ih
      · simp

/- Reading a text succeeds exactly if its tokens are accepted. -/
theorem read_eq_ok_iff
    {src : Bytes}
    {entries : List Entry} :
    read src = .ok entries ↔
      IsClean src ∧
        ∃ tokens eof accepted,
          written src = tokens ++ [eof] ∧
            eof.kind = .eof ∧
            Runs .start tokens (.closed accepted) ∧
            entries = accepted.reverse := by
  have hEnds := endsOnce_tokens src
  unfold read
  simp only
  constructor
  · intro h
    by_cases hClean : IsClean src
    · rcases ofLexed_of_clean hEnds hClean with
        ⟨eof, offset, hEof, hEnding, hTokens⟩
      unfold Stream.ofText at h
      rw [hEnding, readFrom_finished_eq_ok_iff] at h
      rcases h with ⟨accepted, hRuns, hEntries⟩
      exact ⟨hClean, _, eof, accepted, hTokens, hEof, hRuns,
        hEntries⟩
    · rcases ofLexed_of_fault hEnds hClean with ⟨f, hEnding⟩
      unfold Stream.ofText at h
      rw [hEnding] at h
      exact absurd h readFrom_fault_ne_ok
  · rintro ⟨hClean, tokens, eof, accepted, hWritten, hEof,
      hRuns, rfl⟩
    rcases ofLexed_of_clean hEnds hClean with
      ⟨eof', offset, _, hEnding, hTokens⟩
    have hSame :=
      (List.append_inj' (hWritten.symm.trans hTokens) rfl).1
    unfold Stream.ofText
    rw [hEnding, readFrom_finished_eq_ok_iff]
    exact ⟨accepted, hSame ▸ hRuns, rfl⟩

/- The written string literals of a clean text have values. -/
theorem decodes_of_isClean
    {src : Bytes}
    {tokens rest : List Token}
    (hClean : IsClean src)
    (hWritten : written src = tokens ++ rest) :
    Decodes tokens := by
  intro t ht hKind
  have hMem : t ∈ written src := by
    rw [hWritten]
    exact List.mem_append_left rest ht
  rcases List.mem_map.mp (List.mem_filter.mp hMem).1 with
    ⟨lexed, hLexed, rfl⟩
  exact decode?_isSome_of_mem_tokens hLexed hKind
    (hClean lexed hLexed)

end Arguments

------------------------------------------------------------
-- Alias Lists
------------------------------------------------------------

namespace Alias

open Arguments Arguments.Grammar Scanner

/- Parsing is reading, with positions added. -/
theorem parse_eq_ok_iff
    {src : Bytes}
    {locate : Nat → Position}
    {aliases : List Alias} :
    parse src locate = .ok aliases ↔
      ∃ entries,
        Arguments.read src = .ok entries ∧
          aliases = entries.map (ofEntry locate) := by
  unfold parse
  cases Arguments.read src with
  | error e => simp
  | ok entries => simp [eq_comm]

/-
  A sentence of a clean text is parsed into the aliases that
  its items denote.
-/
theorem exists_parse_of_isSentence
    {src : Bytes}
    {items : List Item}
    (locate : Nat → Position)
    (hClean : IsClean src)
    (hSentence : IsSentence (written src) items) :
    ∃ aliases,
      parse src locate = .ok aliases ∧
        List.Forall₂
          (fun item a => Denotes item a.name a.deprecation)
          items aliases := by
  rcases hSentence.exists_eof with
    ⟨tokens, eof, hWritten, hEof⟩
  rw [hWritten] at hSentence
  rcases runs_of_isSentence hSentence
      (decodes_of_isClean hClean hWritten) with
    ⟨accepted, hAgrees, hRuns⟩
  refine ⟨accepted.reverse.map (ofEntry locate), ?_, ?_⟩
  · exact parse_eq_ok_iff.mpr ⟨accepted.reverse,
      read_eq_ok_iff.mpr ⟨hClean, tokens, eof, accepted,
        hWritten, hEof, hRuns, rfl⟩, rfl⟩
  · exact List.forall₂_map_right_iff.mpr hAgrees

/- Whatever is parsed is a sentence of a clean text. -/
theorem isSentence_of_parse
    {src : Bytes}
    {locate : Nat → Position}
    {aliases : List Alias}
    (hParse : parse src locate = .ok aliases) :
    IsClean src ∧ ∃ items, IsSentence (written src) items := by
  rcases parse_eq_ok_iff.mp hParse with ⟨entries, hRead, _⟩
  rcases read_eq_ok_iff.mp hRead with
    ⟨hClean, tokens, eof, accepted, hWritten, hEof, hRuns, _⟩
  refine ⟨hClean, ?_⟩
  rw [hWritten]
  exact isSentence_of_runs hRuns hEof

/- Parsing is a function, so its result is what is denoted. -/
theorem denotes_of_parse
    {src : Bytes}
    {locate : Nat → Position}
    {aliases : List Alias}
    {items : List Item}
    (hParse : parse src locate = .ok aliases)
    (hSentence : IsSentence (written src) items) :
    List.Forall₂
      (fun item a => Denotes item a.name a.deprecation)
      items aliases := by
  have hClean := (isSentence_of_parse hParse).1
  rcases exists_parse_of_isSentence locate hClean hSentence
    with ⟨aliases', hParse', hDenotes⟩
  have hSame : aliases' = aliases := by
    rw [hParse] at hParse'
    exact (Except.ok.inj hParse').symm
  rw [hSame] at hDenotes
  exact hDenotes

theorem ne_nil_of_parse
    {src : Bytes}
    {locate : Nat → Position}
    {aliases : List Alias}
    (hParse : parse src locate = .ok aliases) :
    aliases ≠ [] := by
  rcases isSentence_of_parse hParse with ⟨_, items, hSentence⟩
  have hDenotes := denotes_of_parse hParse hSentence
  intro hNil
  rw [hNil, List.forall₂_nil_right_iff] at hDenotes
  exact hSentence.ne_nil hDenotes

/-
  Parsing succeeds exactly on the sentences of the grammar,
  and then gives one alias for each item, in order: its name,
  whether it is deprecated, and for each key the value of its
  last literal.
-/
theorem parse_accepts_exactly_sentences
    (src : Bytes)
    (locate : Nat → Position) :
    ((∃ aliases, parse src locate = .ok aliases) ↔
        IsClean src ∧
          ∃ items, IsSentence (written src) items) ∧
      ∀ aliases items,
        parse src locate = .ok aliases →
          IsSentence (written src) items →
            aliases ≠ [] ∧
              List.Forall₂
                (fun item a =>
                  Denotes item a.name a.deprecation)
                items aliases := by
  refine ⟨⟨?_, ?_⟩, ?_⟩
  · rintro ⟨aliases, hParse⟩
    exact isSentence_of_parse hParse
  · rintro ⟨hClean, items, hSentence⟩
    rcases exists_parse_of_isSentence locate hClean hSentence
      with ⟨aliases, hParse, _⟩
    exact ⟨aliases, hParse⟩
  · intro aliases items hParse hSentence
    exact ⟨ne_nil_of_parse hParse,
      denotes_of_parse hParse hSentence⟩

/- The reserved word as a name, a repeated key, stray commas. -/
theorem parse_accepts_reserved_name :
    ∃ aliases items,
      parse
          (utf8 "(X, deprecated(deprecated, note=``, note=`a`,),)")
          (fun _ => {}) = .ok aliases ∧
        aliases =
          [{ name := utf8 "X" },
            { name := utf8 "deprecated"
              deprecation :=
                some { note := some (utf8 "a") } }] ∧
        List.Forall₂
          (fun item a => Denotes item a.name a.deprecation)
          items aliases := by
  have hParse :
      parse
          (utf8 "(X, deprecated(deprecated, note=``, note=`a`,),)")
          (fun _ => {}) =
        .ok
          [{ name := utf8 "X" },
            { name := utf8 "deprecated"
              deprecation :=
                some { note := some (utf8 "a") } }] := by
    decide +kernel
  have hExact :=
    parse_accepts_exactly_sentences
      (utf8 "(X, deprecated(deprecated, note=``, note=`a`,),)")
      (fun _ => {})
  rcases hExact.1.mp ⟨_, hParse⟩ with ⟨_, items, hSentence⟩
  have hDenotes := (hExact.2 _ items hParse hSentence).2
  exact ⟨_, items, hParse, rfl, hDenotes⟩

end Alias

end Namesake
