import Namesake.Proofs.Arguments.Exactness

/-
  The error of directive arguments is about the first place
  where they go wrong: the first token that no sentence goes
  on with, or the first fault if there is one up to there.

  Main declarations:
    * `Arguments.Grammar.Viable`
    * `Arguments.Grammar.FirstWrong`
    * `Scanner.faultsThrough`
    * `Arguments.readFrom_eq_error`
    * `Arguments.ofLexed_reaches`
    * `Alias.parse_reports_first_error`
-/

namespace Namesake

namespace Arguments

namespace Grammar

------------------------------------------------------------
-- Changes of Tokens
------------------------------------------------------------

/- A change of tokens that leaves all but literals alone. -/
structure KeepsWords
    (f : Token → Token) : Prop where
  kind : ∀ t, (f t).kind = t.kind
  text : ∀ t, t.kind = .ident → (f t).text = t.text

section Change

variable {f : Token → Token}

/-
  The grammar knows a literal by its kind, so that each of its
  parts survives such a change.
-/
theorem IsSetting.map
    {tokens : List Token}
    {s : Setting}
    (hKeeps : KeepsWords f)
    (h : IsSetting tokens s) :
    ∃ s', IsSetting (tokens.map f) s' := by
  cases h with
  | intro hWord hKey hEquals hLiteral =>
      rw [← hKeeps.text _ hWord] at hKey
      rw [← hKeeps.kind] at hWord hEquals hLiteral
      exact ⟨_, IsSetting.intro hWord hKey hEquals hLiteral⟩

theorem IsSettings.map
    {tokens : List Token}
    {settings : List Setting}
    (hKeeps : KeepsWords f)
    (h : IsSettings tokens settings) :
    ∃ settings', IsSettings (tokens.map f) settings' := by
  induction h with
  | nil => exact ⟨[], IsSettings.nil⟩
  | cons hComma hFirst _ ih =>
      rcases hFirst.map hKeeps with ⟨s, hFirst⟩
      rcases ih with ⟨settings, hRest⟩
      rw [← hKeeps.kind] at hComma
      have hAll := IsSettings.cons hComma hFirst hRest
      exact ⟨s :: settings, by simpa using hAll⟩

theorem IsTrailing.map
    {tokens : List Token}
    (hKeeps : KeepsWords f)
    (h : IsTrailing tokens) :
    IsTrailing (tokens.map f) := by
  cases h with
  | none => exact IsTrailing.none
  | comma hComma =>
      rw [← hKeeps.kind] at hComma
      exact IsTrailing.comma hComma

theorem IsEntry.map
    {tokens : List Token}
    {item : Item}
    (hKeeps : KeepsWords f)
    (h : IsEntry tokens item) :
    ∃ item', IsEntry (tokens.map f) item' := by
  cases h with
  | plain hName hPlain =>
      rw [← hKeeps.text _ hName] at hPlain
      rw [← hKeeps.kind] at hName
      exact ⟨_, IsEntry.plain hName hPlain⟩
  | deprecated hWord hDeprecated hOpening hName hBody
      hTrailing hClosing =>
      rcases hBody.map hKeeps with ⟨settings, hBody⟩
      rw [← hKeeps.text _ hWord] at hDeprecated
      rw [← hKeeps.kind] at hWord hOpening hName hClosing
      have hAll := IsEntry.deprecated hWord hDeprecated
        hOpening hName hBody (hTrailing.map hKeeps) hClosing
      exact ⟨_, by simpa using hAll⟩

theorem IsEntries.map
    {tokens : List Token}
    {items : List Item}
    (hKeeps : KeepsWords f)
    (h : IsEntries tokens items) :
    ∃ items', IsEntries (tokens.map f) items' := by
  induction h with
  | single hEntry =>
      rcases hEntry.map hKeeps with ⟨item, hEntry⟩
      exact ⟨[item], IsEntries.single hEntry⟩
  | cons hFirst hComma _ ih =>
      rcases hFirst.map hKeeps with ⟨item, hFirst⟩
      rcases ih with ⟨items, hRest⟩
      rw [← hKeeps.kind] at hComma
      have hAll := IsEntries.cons hFirst hComma hRest
      exact ⟨item :: items, by simpa using hAll⟩

theorem IsSentence.map
    {tokens : List Token}
    {items : List Item}
    (hKeeps : KeepsWords f)
    (h : IsSentence tokens items) :
    ∃ items', IsSentence (tokens.map f) items' := by
  cases h with
  | intro hOpening hBody hTrailing hClosing hEof =>
      rcases hBody.map hKeeps with ⟨items, hBody⟩
      rw [← hKeeps.kind] at hOpening hClosing hEof
      have hAll := IsSentence.intro hOpening hBody
        (hTrailing.map hKeeps) hClosing hEof
      exact ⟨items, by simpa using hAll⟩

end Change

/- Some literal has a value. -/
theorem decode?_empty :
    Quoted.decode? [0x22, 0x22] = some [] := by
  decide +kernel

/- An empty literal in place of one that has no value. -/
def mend
    (t : Token) : Token :=
  if t.kind = .string ∧
      (Quoted.decode? t.text).isSome = false then
    { t with text := [0x22, 0x22] }
  else
    t

theorem keepsWords_mend : KeepsWords mend := by
  constructor
  · intro t
    unfold mend
    split
    · rfl
    · rfl
  · intro t hIdent
    simp [mend, hIdent]

/- Behind the change every literal has a value. -/
theorem decodes_map_mend
    (tokens : List Token) :
    Decodes (tokens.map mend) := by
  intro t hMem hString
  rcases List.mem_map.mp hMem with ⟨u, _, rfl⟩
  rw [keepsWords_mend.kind] at hString
  cases hValue : (Quoted.decode? u.text).isSome with
  | true => simp [mend, hValue]
  | false =>
      simp [mend, hString, hValue, decode?_empty]

/- Where all literals have one, nothing changes. -/
theorem map_mend_of_decodes
    {tokens : List Token}
    (h : Decodes tokens) :
    tokens.map mend = tokens := by
  refine List.map_congr_left (fun t hMem => ?_) |>.trans
    (List.map_id tokens)
  unfold mend
  split
  · rename_i hNone
    rw [h t hMem hNone.1] at hNone
    cases hNone.2
  · rfl

/- A sentence has no end of the text before its last token. -/
theorem IsSentence.eq_nil_of_eof
    {front rest : List Token}
    {eof : Token}
    {items : List Item}
    (h : IsSentence (front ++ eof :: rest) items)
    (hEof : eof.kind = .eof) :
    rest = [] := by
  rcases List.eq_nil_or_concat rest with hNil | ⟨middle, last, rfl⟩
  · exact hNil
  · -- the automaton would have to go on behind the end
    rcases h.map keepsWords_mend with ⟨items', hMended⟩
    have hSplit :
        (front ++ eof :: middle.concat last).map mend =
          (front ++ eof :: middle).map mend ++ [mend last] := by
      simp
    rw [hSplit] at hMended
    rcases runs_of_isSentence hMended (decodes_map_mend _) with
      ⟨entries, _, hRuns⟩
    rw [List.map_append] at hRuns
    rcases exists_of_runs_append hRuns with ⟨s, _, hRest⟩
    rw [← keepsWords_mend.kind] at hEof
    rcases step_eof s hEof with ⟨cause, hStep⟩
    cases hRest with
    | cons hOk _ =>
        rw [hStep] at hOk
        cases hOk

------------------------------------------------------------
-- Viable Prefixes
------------------------------------------------------------

/- Some sentence starts with these tokens. -/
def Viable
    (front : List Token) : Prop :=
  ∃ rest items, IsSentence (front ++ rest) items

/- What is completed by a sentence starts with viable tokens. -/
theorem Viable.of_append
    {front rest : List Token}
    (h : Viable (front ++ rest)) :
    Viable front := by
  rcases h with ⟨rest', items, hSentence⟩
  rw [List.append_assoc] at hSentence
  exact ⟨rest ++ rest', items, hSentence⟩

/- The first token that no sentence has behind those before it. -/
structure FirstWrong
    (tokens : List Token)
    (k : Nat) : Prop where
  inside : k < tokens.length
  wrong : ¬ Viable (tokens.take (k + 1))
  viable : ∀ j < k, Viable (tokens.take (j + 1))

/- There is only one such token. -/
theorem FirstWrong.eq
    {tokens : List Token}
    {j k : Nat}
    (hj : FirstWrong tokens j)
    (hk : FirstWrong tokens k) :
    j = k := by
  rcases Nat.lt_trichotomy j k with hLess | hEq | hLess
  · exact absurd (hk.viable j hLess) hj.wrong
  · exact hEq
  · exact absurd (hj.viable k hLess) hk.wrong

end Grammar

open Grammar Scanner

/- Some tokens lead from the state to the end of the list. -/
def Closes
    (s : State) : Prop :=
  ∃ rest entries, Runs s rest (.closed entries)

/- A state that leads to one that closes does so itself. -/
theorem Closes.of_step
    {s s' : State}
    (t : Token)
    (hStep : step s t = .ok s')
    (h : Closes s') :
    Closes s := by
  rcases h with ⟨rest, entries, hRuns⟩
  exact ⟨t :: rest, entries, Runs.cons hStep hRuns⟩

/- Every list can be closed, whatever has been read of it. -/
theorem closes
    (s : State) :
    Closes s := by
  have hListed
      (entries : List Entry)
      (last : Entry) :
      Closes (.listed entries last) :=
    Closes.of_step ⟨.rightParen, 0, []⟩ rfl ⟨[], _, Runs.nil⟩
  have hDetails
      (entries : List Entry)
      (e : Entry)
      (d : Deprecation) :
      Closes (.details entries e d) :=
    Closes.of_step ⟨.rightParen, 0, []⟩ rfl (hListed _ _)
  have hAssigned
      (entries : List Entry)
      (e : Entry)
      (d : Deprecation)
      (k : Key) :
      Closes (.assigned entries e d k) := by
    refine Closes.of_step ⟨.string, 0, [0x22, 0x22]⟩ ?_
      (hDetails entries e (k.set d []))
    simp [step, decode?_empty]
  have hOpen (entries : List Entry) :
      Closes (.deprecatedOpen entries) :=
    Closes.of_step ⟨.ident, 0, []⟩ rfl (hDetails _ _ _)
  have hListing (entries : List Entry) :
      Closes (.listing entries) :=
    Closes.of_step ⟨.ident, 0, []⟩ rfl (hListed _ _)
  cases s with
  | start => exact (hListing _).of_step ⟨.leftParen, 0, []⟩ rfl
  | listing entries => exact hListing entries
  | listed entries last => exact hListed entries last
  | deprecated entries =>
      exact (hOpen _).of_step ⟨.leftParen, 0, []⟩ rfl
  | deprecatedOpen entries => exact hOpen entries
  | details entries e d => exact hDetails entries e d
  | detail entries e d =>
      exact (hListed _ _).of_step ⟨.rightParen, 0, []⟩ rfl
  | assigning entries e d k =>
      exact (hAssigned _ _ _ _).of_step ⟨.assign, 0, []⟩ rfl
  | assigned entries e d k => exact hAssigned entries e d k
  | closed entries => exact ⟨[], entries, Runs.nil⟩

/- What the automaton has taken can be completed. -/
theorem viable_of_runs
    {front : List Token}
    {s : State}
    (h : Runs .start front s) :
    Viable front := by
  rcases closes s with ⟨rest, entries, hRest⟩
  rcases isSentence_of_runs (h.append hRest)
      (rfl : (⟨.eof, 0, []⟩ : Token).kind = .eof) with
    ⟨items, hSentence⟩
  rw [List.append_assoc] at hSentence
  exact ⟨_, items, hSentence⟩

/- What can be completed is taken. -/
theorem exists_runs_of_viable
    {front : List Token}
    (hDecodes : Decodes front)
    (hInside : ∀ t ∈ front, t.kind ≠ .eof)
    (h : Viable front) :
    ∃ s, Runs .start front s := by
  rcases h with ⟨rest, items, hSentence⟩
  rcases List.eq_nil_or_concat rest with rfl | ⟨middle, last, rfl⟩
  · rcases hSentence.exists_eof with ⟨before, eof, hAll, hEof⟩
    rw [List.append_nil] at hAll
    exact absurd hEof (hInside eof (by simp [hAll]))
  · rcases hSentence.map keepsWords_mend with
      ⟨items', hMended⟩
    have hSplit :
        (front ++ middle.concat last).map mend =
          (front ++ middle).map mend ++ [mend last] := by
      simp
    rw [hSplit] at hMended
    rcases runs_of_isSentence hMended (decodes_map_mend _) with
      ⟨entries, _, hRuns⟩
    rw [List.map_append, map_mend_of_decodes hDecodes] at hRuns
    rcases exists_of_runs_append hRuns with ⟨s, hFront, _⟩
    exact ⟨s, hFront⟩

/- The end of the text is right behind a closed list only. -/
theorem exists_closed_of_viable
    {front : List Token}
    {eof : Token}
    (hDecodes : Decodes front)
    (hEof : eof.kind = .eof)
    (h : Viable (front ++ [eof])) :
    ∃ entries, Runs .start front (.closed entries) := by
  rcases h with ⟨rest, items, hSentence⟩
  rw [List.append_assoc, List.singleton_append] at hSentence
  have hNil := hSentence.eq_nil_of_eof hEof
  rw [hNil] at hSentence
  rcases runs_of_isSentence hSentence hDecodes with
    ⟨entries, _, hRuns⟩
  exact ⟨entries, hRuns⟩

/- A token that the automaton rejects cannot be completed. -/
theorem not_viable_of_step_error
    {before : List Token}
    {t : Token}
    {s : State}
    {cause : Cause}
    (hDecodes : Decodes (before ++ [t]))
    (hInside : ∀ u ∈ before ++ [t], u.kind ≠ .eof)
    (hRuns : Runs .start before s)
    (hStep : step s t = .error cause) :
    ¬ Viable (before ++ [t]) := by
  intro hViable
  rcases exists_runs_of_viable hDecodes hInside hViable with
    ⟨s₂, hBoth⟩
  rcases exists_of_runs_append hBoth with ⟨s₁, hBefore, hLast⟩
  rw [← hRuns.eq_of_runs hBefore] at hLast
  cases hLast with
  | cons hOk _ =>
      rw [hStep] at hOk
      cases hOk

/- Nor can an end where the list is open. -/
theorem not_viable_of_open
    {front : List Token}
    {eof : Token}
    {s : State}
    (hDecodes : Decodes front)
    (hEof : eof.kind = .eof)
    (hRuns : Runs .start front s)
    (hOpen : ∀ entries, s ≠ .closed entries) :
    ¬ Viable (front ++ [eof]) := by
  intro hViable
  rcases exists_closed_of_viable hDecodes hEof hViable with
    ⟨entries, hClosed⟩
  exact hOpen entries (hRuns.eq_of_runs hClosed)

/- Tokens with an end are a sentence if nothing in them is wrong. -/
theorem exists_isSentence_iff
    {tokens : List Token}
    (hEnd : ∃ front eof,
      tokens = front ++ [eof] ∧ eof.kind = .eof) :
    (∃ items, IsSentence tokens items) ↔
      ∀ k, ¬ FirstWrong tokens k := by
  constructor
  · rintro ⟨items, hSentence⟩ k hWrong
    refine hWrong.wrong ⟨tokens.drop (k + 1), items, ?_⟩
    rw [List.take_append_drop]
    exact hSentence
  · intro hNone
    have hViable (k : Nat) (hInside : k < tokens.length) :
        Viable (tokens.take (k + 1)) := by
      induction k using Nat.strongRecOn with
      | ind k ih =>
          by_contra hWrong
          exact hNone k ⟨hInside, hWrong, fun j hLess =>
            ih j hLess (Nat.lt_trans hLess hInside)⟩
    rcases hEnd with ⟨front, eof, rfl, hEof⟩
    have hAll := hViable front.length (by simp)
    have hWhole :
        (front ++ [eof]).take (front.length + 1) =
          front ++ [eof] :=
      List.take_of_length_le (by simp)
    rw [hWhole] at hAll
    rcases hAll with ⟨rest, items, hSentence⟩
    rw [List.append_assoc, List.singleton_append] at hSentence
    have hNil := hSentence.eq_nil_of_eof hEof
    rw [hNil] at hSentence
    exact ⟨items, hSentence⟩

------------------------------------------------------------
-- Where Reading Stops
------------------------------------------------------------

/- An error in the tokens or, behind all of them, at the end. -/
inductive Stops
    (ending : Ending)
    (s : State)
    (tokens : List Token) : Error → Prop where
  | token
      {before after : List Token}
      {t : Token}
      {s' : State}
      {cause : Cause}
      (hTokens : tokens = before ++ t :: after)
      (hRuns : Runs s before s')
      (hStep : Arguments.step s' t = .error cause) :
      Stops ending s tokens ⟨cause, t.offset, t.width⟩
  | fault
      {f : Fault}
      {s' : State}
      (hEnding : ending = .fault f)
      (hRuns : Runs s tokens s') :
      Stops ending s tokens ⟨.scan f.cause, f.offset, 1⟩
  | finish
      {offset : Nat}
      {s' : State}
      {cause : Cause}
      (hEnding : ending = .finished offset)
      (hRuns : Runs s tokens s')
      (hOpen : ∀ entries, s' ≠ .closed entries) :
      Stops ending s tokens ⟨cause, offset, 0⟩

/- What the automaton reports is where it stops. -/
theorem readFrom_eq_error
    {ending : Ending}
    {s : State}
    {tokens : List Token}
    {e : Error}
    (h : readFrom ending s tokens = .error e) :
    Stops ending s tokens e := by
  induction tokens generalizing s with
  | nil =>
      unfold readFrom at h
      split at h
      · cases h
        exact Stops.fault rfl Runs.nil
      · split at h
        · cases h
        · rename_i hOpen
          split at h
          · cases h
            exact Stops.finish rfl Runs.nil hOpen
          · cases h
  | cons t ts ih =>
      unfold readFrom at h
      split at h
      · rename_i s' hStep
        cases ih h with
        | token hTokens hRuns hStop =>
            have hAll := congrArg (t :: ·) hTokens
            exact Stops.token hAll (Runs.cons hStep hRuns) hStop
        | fault hEnding hRuns =>
            exact Stops.fault hEnding (Runs.cons hStep hRuns)
        | finish hEnding hRuns hOpen =>
            exact Stops.finish hEnding (Runs.cons hStep hRuns)
              hOpen
      · rename_i cause hStep
        cases h
        exact Stops.token (List.nil_append _).symm Runs.nil
          hStep

end Arguments

------------------------------------------------------------
-- Faults on the Way
------------------------------------------------------------

namespace Scanner

/-
  The faults of scanning a list of tokens up to and with the
  written token at an index.
-/
def faultsThrough : Nat → List Lexed → List Fault
  | _, [] => []
  | k, t :: ts =>
      if isWritten t.token then
        match k with
        | 0 => t.faults
        | k + 1 => t.faults ++ faultsThrough k ts
      else
        t.faults ++ faultsThrough k ts

/- Clean tokens have no faults at all. -/
theorem faultsThrough_of_clean
    {ts : List Lexed}
    (h : ∀ t ∈ ts, t.faults = [])
    (k : Nat) :
    faultsThrough k ts = [] := by
  induction ts generalizing k with
  | nil => rfl
  | cons t ts ih =>
      rw [List.forall_mem_cons] at h
      simp only [faultsThrough, h.1, List.nil_append]
      split
      · cases k with
        | zero => rfl
        | succ k => exact ih h.2 k
      · exact ih h.2 k

end Scanner

namespace Arguments

open Grammar Scanner

/-
  How far the stream of a list reaches: to its end, or to the
  first fault on the way.
-/
inductive Reaches
    (ts : List Lexed)
    (s : Stream) : Prop where
  | finished
      {eof : Token}
      (hEof : eof.kind = .eof)
      (hEnding : s.ending = .finished eof.offset)
      (hTokens :
        (ts.map Lexed.token).filter isWritten =
          s.tokens ++ [eof])
      (hClean : ∀ t ∈ ts, t.faults = [])
  | fault
      {f : Fault}
      {rest : List Token}
      (hEnding : s.ending = .fault f)
      (hTokens :
        (ts.map Lexed.token).filter isWritten =
          s.tokens ++ rest)
      (hBefore :
        ∀ k < s.tokens.length, faultsThrough k ts = [])
      (hBehind :
        ∀ k, s.tokens.length ≤ k →
          ∃ faults, faultsThrough k ts = f :: faults)
      (hAll : ∃ faults, ts.flatMap Lexed.faults = f :: faults)

/- A fault ends the stream right there. -/
theorem Reaches.of_fault
    {t : Lexed}
    {f : Fault}
    {faults : List Fault}
    (h : t.faults = f :: faults)
    (ts : List Lexed) :
    Reaches (t :: ts) ⟨[], .fault f⟩ := by
  refine Reaches.fault rfl (List.nil_append _).symm (by simp) ?_
    (by simp [h])
  intro k _
  simp only [faultsThrough, h, List.cons_append]
  split
  · cases k <;> simp
  · simp

/- A written token without a fault belongs to the stream. -/
theorem Reaches.written
    {t : Lexed}
    {ts : List Lexed}
    {s : Stream}
    (h : Reaches ts s)
    (hFaults : t.faults = [])
    (hWritten : isWritten t.token = true) :
    Reaches (t :: ts) ⟨t.token :: s.tokens, s.ending⟩ := by
  have hFilter :
      ((t :: ts).map Lexed.token).filter isWritten =
        t.token :: (ts.map Lexed.token).filter isWritten := by
    simp [hWritten]
  cases h with
  | finished hEof hEnding hTokens hClean =>
      refine Reaches.finished hEof hEnding ?_ ?_
      · rw [hFilter, hTokens, List.cons_append]
      · exact List.forall_mem_cons.mpr ⟨hFaults, hClean⟩
  | fault hEnding hTokens hBefore hBehind hAll =>
      refine Reaches.fault hEnding
        (by rw [hFilter, hTokens, List.cons_append]) ?_ ?_
        (by simpa [hFaults] using hAll)
      · intro k hLess
        cases k with
        | zero => simp [faultsThrough, hWritten, hFaults]
        | succ k =>
            have hRest := hBefore k (Nat.lt_of_succ_lt_succ hLess)
            simp [faultsThrough, hWritten, hFaults, hRest]
      · intro k hLength
        cases k with
        | zero => cases hLength
        | succ k =>
            have hRest :=
              hBehind k (Nat.le_of_succ_le_succ hLength)
            simpa [faultsThrough, hWritten, hFaults] using hRest

/- Any other token without a fault is passed over. -/
theorem Reaches.skipped
    {t : Lexed}
    {ts : List Lexed}
    {s : Stream}
    (h : Reaches ts s)
    (hFaults : t.faults = [])
    (hSkipped : isWritten t.token = false) :
    Reaches (t :: ts) s := by
  have hFilter :
      ((t :: ts).map Lexed.token).filter isWritten =
        (ts.map Lexed.token).filter isWritten := by
    simp [hSkipped]
  have hThrough (k : Nat) :
      faultsThrough k (t :: ts) = faultsThrough k ts := by
    simp [faultsThrough, hSkipped, hFaults]
  cases h with
  | finished hEof hEnding hTokens hClean =>
      refine Reaches.finished hEof hEnding ?_ ?_
      · rw [hFilter, hTokens]
      · exact List.forall_mem_cons.mpr ⟨hFaults, hClean⟩
  | fault hEnding hTokens hBefore hBehind hAll =>
      refine Reaches.fault hEnding (by rw [hFilter, hTokens])
        ?_ ?_ (by simpa [hFaults] using hAll)
      · intro k hLess
        rw [hThrough, hBefore k hLess]
      · intro k hLength
        rw [hThrough]
        exact hBehind k hLength

/-
  By induction on what was written: faults and the end stop
  the stream, and every other token is taken or passed over.
-/
theorem ofLexed_reaches
    {ts : List Lexed}
    (hEnds : EndsOnce ts) :
    Reaches ts (Stream.ofLexed ts) := by
  induction hEnds with
  | @last t hEof =>
      unfold Stream.ofLexed
      split
      · rename_i f faults hFaults
        exact Reaches.of_fault hFaults []
      · rename_i hFaults
        rw [if_pos hEof]
        refine Reaches.finished hEof rfl ?_ (by simp [hFaults])
        simp [isWritten_of_eof hEof]
  | @cons t ts hKind _ ih =>
      unfold Stream.ofLexed
      split
      · rename_i f faults hFaults
        exact Reaches.of_fault hFaults ts
      · rename_i hFaults
        simp only [if_neg hKind]
        split
        · rename_i hSkipped
          exact ih.skipped hFaults (by simp [isWritten, hSkipped])
        · rename_i hWritten
          exact ih.written hFaults (by simp [isWritten, hWritten])

/- Whatever is scanned, the end of the text is written last. -/
theorem exists_eof_of_endsOnce
    {ts : List Lexed}
    (hEnds : EndsOnce ts) :
    ∃ front eof,
      (ts.map Lexed.token).filter isWritten = front ++ [eof] ∧
        eof.kind = .eof := by
  induction hEnds with
  | @last t hEof =>
      refine ⟨[], t.token, ?_, hEof⟩
      simp [isWritten_of_eof hEof]
  | @cons t ts _ _ ih =>
      rcases ih with ⟨front, eof, hTokens, hEof⟩
      rw [List.map_cons, List.filter_cons, hTokens]
      split
      · exact ⟨t.token :: front, eof, rfl, hEof⟩
      · exact ⟨front, eof, rfl, hEof⟩

/- The tokens of a stream are without faults, and no end. -/
theorem exists_lexed_of_mem_ofLexed
    {ts : List Lexed}
    {t : Token}
    (h : t ∈ (Stream.ofLexed ts).tokens) :
    t.kind ≠ .eof ∧
      ∃ lexed ∈ ts, lexed.faults = [] ∧ lexed.token = t := by
  fun_induction Stream.ofLexed ts with
  | case1 | case2 | case3 => cases h
  | case4 u ts _ _ _ _ ih =>
      rcases ih h with ⟨hKind, lexed, hMem, hRest⟩
      exact ⟨hKind, lexed, List.mem_cons_of_mem u hMem, hRest⟩
  | case5 u ts hFaults hKind _ _ ih =>
      rcases List.mem_cons.mp h with rfl | hMem
      · exact ⟨hKind, u, List.mem_cons_self, hFaults, rfl⟩
      · rcases ih hMem with ⟨hKind, lexed, hMem, hRest⟩
        exact ⟨hKind, lexed, List.mem_cons_of_mem u hMem, hRest⟩

theorem decodes_ofText
    (src : Bytes) :
    Decodes (Stream.ofText src).tokens := by
  intro t hMem hString
  rcases exists_lexed_of_mem_ofLexed hMem with
    ⟨_, lexed, hLexed, hFaults, rfl⟩
  exact decode?_isSome_of_mem_tokens hLexed hString hFaults

------------------------------------------------------------
-- The First Error
------------------------------------------------------------

/- No token that the automaton has taken is wrong. -/
theorem viable_take_of_runs
    {before after : List Token}
    {s : State}
    (hRuns : Runs .start before s)
    {k : Nat}
    (hInside : k < before.length) :
    Viable ((before ++ after).take (k + 1)) := by
  rw [List.take_append_of_le_length hInside]
  have hAll := viable_of_runs hRuns
  rw [← List.take_append_drop (k + 1) before] at hAll
  exact hAll.of_append

/- What stops the automaton is wrong behind what it has taken. -/
theorem firstWrong_of_runs
    {before after : List Token}
    {t : Token}
    {s : State}
    (hRuns : Runs .start before s)
    (hWrong : ¬ Viable (before ++ [t])) :
    FirstWrong (before ++ t :: after) before.length := by
  refine ⟨by simp, ?_, fun j => viable_take_of_runs hRuns⟩
  have hTake :
      (before ++ t :: after).take (before.length + 1) =
        before ++ [t] := by
    rw [List.take_append, List.take_of_length_le (by omega)]
    simp
  rw [hTake]
  exact hWrong

/-
  An error is about the first fault up to the first wrong
  token, or else about that token.
-/
inductive IsFirst
    (src : Bytes) : Error → Prop where
  | fault
      {f : Fault}
      (hAll :
        ∃ faults,
          (tokens src).flatMap Lexed.faults = f :: faults)
      (hThrough :
        ∀ k, FirstWrong (written src) k →
          ∃ faults,
            faultsThrough k (tokens src) = f :: faults) :
      IsFirst src ⟨.scan f.cause, f.offset, 1⟩
  | token
      {k : Nat}
      {t : Token}
      (cause : Cause)
      (hWrong : FirstWrong (written src) k)
      (hToken : (written src)[k]? = some t)
      (hClean : faultsThrough k (tokens src) = []) :
      IsFirst src ⟨cause, t.offset, t.width⟩

/- The error of a text is the first that can be found in it. -/
theorem isFirst_of_read
    {src : Bytes}
    {e : Error}
    (h : read src = .error e) :
    IsFirst src e := by
  have hReaches := ofLexed_reaches (endsOnce_tokens src)
  have hDecodes := decodes_ofText src
  have hInside :
      ∀ t ∈ (Stream.ofText src).tokens, t.kind ≠ .eof :=
    fun t hMem => (exists_lexed_of_mem_ofLexed hMem).1
  have hStops := readFrom_eq_error h
  unfold Stream.ofText at hDecodes hInside hStops
  generalize Stream.ofLexed (tokens src) = s at *
  cases hStops with
  | @token before after t s' cause hTokens hRuns hStep =>
      have hFront : before ++ [t] <+: s.tokens :=
        ⟨after, by simp [hTokens]⟩
      have hWrong : ¬ Viable (before ++ [t]) :=
        not_viable_of_step_error
          (fun u hu => hDecodes u (hFront.subset hu))
          (fun u hu => hInside u (hFront.subset hu))
          hRuns hStep
      have hFirst (rest : List Token)
          (hWritten : written src = s.tokens ++ rest) :
          FirstWrong (written src) before.length ∧
            (written src)[before.length]? = some t := by
        rw [hWritten, hTokens, List.append_assoc,
          List.cons_append]
        exact ⟨firstWrong_of_runs hRuns hWrong, by simp⟩
      have hLess : before.length < s.tokens.length := by
        simp [hTokens]
      cases hReaches with
      | finished _ _ hWritten hClean =>
          rcases hFirst _ hWritten with ⟨hFirst, hToken⟩
          exact IsFirst.token cause hFirst hToken
            (faultsThrough_of_clean hClean _)
      | fault _ hWritten hBefore _ _ =>
          rcases hFirst _ hWritten with ⟨hFirst, hToken⟩
          exact IsFirst.token cause hFirst hToken
            (hBefore _ hLess)
  | @fault f s' hEnding hRuns =>
      cases hReaches with
      | finished _ hFinished =>
          rw [hEnding] at hFinished
          cases hFinished
      | fault hFault hWritten _ hBehind hAll =>
          rw [hEnding] at hFault
          cases hFault
          refine IsFirst.fault hAll fun k hFirst => hBehind k ?_
          by_contra hLess
          apply hFirst.wrong
          unfold written
          rw [hWritten]
          exact viable_take_of_runs hRuns
            (Nat.lt_of_not_le hLess)
  | @finish offset s' cause hEnding hRuns hOpen =>
      cases hReaches with
      | fault hFault =>
          rw [hEnding] at hFault
          cases hFault
      | @finished eof hEof hFinished hWritten hClean =>
          rw [hEnding] at hFinished
          cases hFinished
          have hWrong : ¬ Viable (s.tokens ++ [eof]) :=
            not_viable_of_open hDecodes hEof hRuns hOpen
          have hEq : written src = s.tokens ++ [eof] := hWritten
          have hFirst :
              FirstWrong (written src) s.tokens.length := by
            rw [hEq]
            exact firstWrong_of_runs hRuns hWrong
          have hToken :
              (written src)[s.tokens.length]? = some eof := by
            rw [hEq]
            simp
          have hError := IsFirst.token cause hFirst hToken
            (faultsThrough_of_clean hClean _)
          have hWidth : eof.width = 0 := by
            simp [Token.width, hEof]
          rwa [hWidth] at hError

end Arguments

------------------------------------------------------------
-- Diagnostics
------------------------------------------------------------

namespace Alias

open Arguments Arguments.Grammar Scanner

/- The diagnostic is about the first of some faults, a byte wide. -/
def IsFirstFault
    (locate : Nat → Position)
    (faults : List Fault)
    (d : Diagnostic) : Prop :=
  ∃ f rest,
    faults = f :: rest ∧
      d.message = f.cause.message ∧
      d.span = ⟨locate f.offset, locate (f.offset + 1)⟩

/- The diagnostic is about the whole token at an index. -/
def IsAbout
    (locate : Nat → Position)
    (ts : List Token)
    (k : Nat)
    (d : Diagnostic) : Prop :=
  ∃ t,
    ts[k]? = some t ∧
      d.span = ⟨locate t.offset, locate (t.offset + t.width)⟩

/-
  Arguments that are rejected are reported as malformed at
  the first place where they go wrong.  That is the first
  fault of scanning them up to the first wrong token, or else
  this token; all faults count if no token is wrong, that is,
  if the tokens are a sentence.
-/
theorem parse_reports_first_error
    {src : Bytes}
    {locate : Nat → Position}
    {d : Diagnostic}
    (hParse : parse src locate = .error d) :
    d.severity = .error ∧
      d.code = Diagnostic.malformedArguments ∧
      ((∃ items, IsSentence (written src) items) ↔
        ∀ k, ¬ FirstWrong (written src) k) ∧
      ((∀ k, ¬ FirstWrong (written src) k) →
        IsFirstFault locate
          ((tokens src).flatMap Lexed.faults) d) ∧
      ∀ k, FirstWrong (written src) k →
        (faultsThrough k (tokens src) ≠ [] →
            IsFirstFault locate
              (faultsThrough k (tokens src)) d) ∧
          (faultsThrough k (tokens src) = [] →
            IsAbout locate (written src) k d) := by
  have hSentence :=
    exists_isSentence_iff
      (exists_eof_of_endsOnce (endsOnce_tokens src))
  unfold parse at hParse
  split at hParse
  · cases hParse
  · rename_i e hRead
    cases hParse
    refine ⟨rfl, rfl, hSentence, ?_⟩
    cases isFirst_of_read hRead with
    | @fault f hAll hThrough =>
        refine ⟨?_, ?_⟩
        · intro _
          rcases hAll with ⟨faults, hAll⟩
          exact ⟨f, faults, hAll, rfl, rfl⟩
        · intro k hWrong
          rcases hThrough k hWrong with ⟨faults, hFaults⟩
          refine ⟨fun _ => ⟨f, faults, hFaults, rfl, rfl⟩, ?_⟩
          intro hClean
          rw [hFaults] at hClean
          cases hClean
    | @token k t cause hWrong hToken hClean =>
        refine ⟨fun hNone => absurd hWrong (hNone k), ?_⟩
        intro k' hWrong'
        rw [hWrong'.eq hWrong]
        exact ⟨fun hFault => absurd hClean hFault,
          fun _ => ⟨t, hToken, rfl⟩⟩

/- A second name; the string behind it is never complained of. -/
def secondName : Bytes :=
  utf8 "(A B \""

theorem parse_reports_second_name :
    ∃ d,
      parse secondName (Position.inText secondName) = .error d ∧
        FirstWrong (written secondName) 2 ∧
        faultsThrough 2 (tokens secondName) = [] ∧
        faultsThrough 3 (tokens secondName) ≠ [] ∧
        IsAbout (Position.inText secondName)
          (written secondName) 2 d := by
  have hFails :
      (parse secondName
        (Position.inText secondName)).isOk = false := by
    decide +kernel
  have hWritten :
      written secondName =
        [⟨.leftParen, 0, []⟩, ⟨.ident, 1, utf8 "A"⟩] ++
          ⟨.ident, 3, utf8 "B"⟩ ::
            [⟨.string, 5, utf8 "\""⟩, ⟨.eof, 6, []⟩] := by
    decide +kernel
  have hClean :
      faultsThrough 2 (tokens secondName) = [] := by
    decide +kernel
  have hFault :
      faultsThrough 3 (tokens secondName) ≠ [] := by
    decide +kernel
  have hRuns :
      Runs .start
        [⟨.leftParen, 0, []⟩, ⟨.ident, 1, utf8 "A"⟩]
        (.listed [] ⟨utf8 "A", 1, none⟩) :=
    Runs.cons rfl (Runs.single (by decide +kernel))
  have hFirst : FirstWrong (written secondName) 2 := by
    rw [hWritten]
    refine firstWrong_of_runs hRuns fun hViable => ?_
    rcases exists_runs_of_viable (by simp [Decodes])
        (by simp) hViable with
      ⟨s, hBoth⟩
    rcases exists_of_runs_append hBoth with
      ⟨s', hBefore, hLast⟩
    rw [← hRuns.eq_of_runs hBefore] at hLast
    cases hLast with
    | cons hOk _ => cases hOk
  cases hParse :
      parse secondName (Position.inText secondName) with
  | ok aliases =>
      rw [hParse] at hFails
      cases hFails
  | error d =>
      rcases parse_reports_first_error hParse with
        ⟨_, _, _, _, hWrong⟩
      exact ⟨d, rfl, hFirst, hClean, hFault,
        (hWrong 2 hFirst).2 hClean⟩

end Alias

end Namesake
