import Namesake.Proofs.Arguments.Grammar
import Namesake.Proofs.Scanner.StringLiteral

/-
  The automaton for directive arguments accepts exactly the
  sentences of the grammar and returns what they denote.

  Main declarations:
    * `Arguments.Runs`
    * `Arguments.Reads.step` and `Arguments.Reads.run`
    * `Arguments.runs_of_isSentence`
    * `Arguments.isSentence_of_runs`
-/

namespace Namesake

namespace Arguments

namespace Grammar

------------------------------------------------------------
-- Settings One After Another
------------------------------------------------------------

theorem lastLiteral?_append
    (k : Key)
    (left right : List Setting) :
    lastLiteral? k (left ++ right) =
      (lastLiteral? k right).or (lastLiteral? k left) := by
  unfold lastLiteral?
  rw [List.filter_append, List.getLast?_append]
  cases (right.filter fun s => s.key = k).getLast? <;> rfl

/-
  The second deprecation is the first with the settings
  applied: a key that they do not mention keeps its text.
-/
def GivesFrom
    (d : Deprecation)
    (settings : List Setting)
    (d' : Deprecation) : Prop :=
  ∀ k : Key,
    ((lastLiteral? k settings).map Quoted.decode?).or
        ((k.get d).map some) =
      (k.get d').map some

theorem GivesFrom.nil
    (d : Deprecation) :
    GivesFrom d [] d := by
  intro k
  rfl

theorem GivesFrom.append
    {d d' d'' : Deprecation}
    {left right : List Setting}
    (hLeft : GivesFrom d left d')
    (hRight : GivesFrom d' right d'') :
    GivesFrom d (left ++ right) d'' := by
  intro k
  rw [lastLiteral?_append, ← hRight k, ← hLeft k]
  cases lastLiteral? k right <;> rfl

/- Setting a key is what one setting does. -/
theorem GivesFrom.single
    (d : Deprecation)
    {k : Key}
    {literal value : Bytes}
    (hValue : Quoted.decode? literal = some value) :
    GivesFrom d [⟨k, literal⟩] (k.set d value) := by
  intro k'
  cases k <;> cases k' <;>
    simp [lastLiteral?, Key.get, Key.set, hValue]

/- Settings applied to nothing are all there is. -/
theorem GivesFrom.gives
    {settings : List Setting}
    {d : Deprecation}
    (h : GivesFrom {} settings d) :
    Gives settings d := by
  intro k
  rw [← h k]
  cases k <;> simp [Key.get]

------------------------------------------------------------
-- Adding at the End
------------------------------------------------------------

theorem IsSettings.append
    {left right : List Token}
    {settings others : List Setting}
    (hLeft : IsSettings left settings)
    (hRight : IsSettings right others) :
    IsSettings (left ++ right) (settings ++ others) := by
  induction hLeft with
  | nil => exact hRight
  | cons hComma hFirst _ ih =>
      have hAll := IsSettings.cons hComma hFirst ih
      simpa using hAll

theorem IsSettings.snoc
    {tokens last : List Token}
    {comma : Token}
    {settings : List Setting}
    {s : Setting}
    (hSettings : IsSettings tokens settings)
    (hComma : comma.kind = .comma)
    (hLast : IsSetting last s) :
    IsSettings (tokens ++ comma :: last) (settings ++ [s]) := by
  have hOne := IsSettings.cons hComma hLast IsSettings.nil
  rw [List.append_nil] at hOne
  exact hSettings.append hOne

theorem IsEntries.snoc
    {tokens last : List Token}
    {comma : Token}
    {items : List Item}
    {item : Item}
    (hEntries : IsEntries tokens items)
    (hComma : comma.kind = .comma)
    (hLast : IsEntry last item) :
    IsEntries (tokens ++ comma :: last) (items ++ [item]) := by
  induction hEntries with
  | single hEntry =>
      exact IsEntries.cons hEntry hComma
        (IsEntries.single hLast)
  | cons hFirst hFirstComma _ ih =>
      have hAll := IsEntries.cons hFirst hFirstComma ih
      simpa using hAll

/- A list of entries is never empty. -/
theorem IsEntries.ne_nil
    {tokens : List Token}
    {items : List Item}
    (h : IsEntries tokens items) :
    items ≠ [] := by
  cases h <;> simp

/- A sentence has items. -/
theorem IsSentence.ne_nil
    {tokens : List Token}
    {items : List Item}
    (h : IsSentence tokens items) :
    items ≠ [] := by
  cases h with
  | intro _ hBody => exact hBody.ne_nil

/- A sentence ends with the end of the text. -/
theorem IsSentence.exists_eof
    {tokens : List Token}
    {items : List Item}
    (h : IsSentence tokens items) :
    ∃ front eof,
      tokens = front ++ [eof] ∧ eof.kind = .eof := by
  cases h with
  | intro _ _ _ _ hEof =>
      rename_i opening closing eof body trailing _ _ _ _
      exact ⟨opening :: (body ++ trailing ++ [closing]), eof,
        by simp, hEof⟩

/-
  What stands between the opening parenthesis and an entry:
  nothing, or the entries before it and a comma.
-/
inductive IsLead : List Token → List Item → Prop where
  | first : IsLead [] []
  | next
      {body : List Token}
      {comma : Token}
      {items : List Item}
      (hBody : IsEntries body items)
      (hComma : comma.kind = .comma) :
      IsLead (body ++ [comma]) items

theorem IsLead.entries
    {lead tokens : List Token}
    {items : List Item}
    {item : Item}
    (hLead : IsLead lead items)
    (hEntry : IsEntry tokens item) :
    IsEntries (lead ++ tokens) (items ++ [item]) := by
  cases hLead with
  | first => exact IsEntries.single hEntry
  | next hBody hComma =>
      rw [List.append_assoc]
      exact hBody.snoc hComma hEntry

end Grammar

------------------------------------------------------------
-- Runs
------------------------------------------------------------

/- The automaton takes a list of tokens without an error. -/
inductive Runs : State → List Token → State → Prop where
  | nil
      {s : State} :
      Runs s [] s
  | cons
      {s s' s'' : State}
      {t : Token}
      {ts : List Token}
      (hStep : step s t = .ok s')
      (hRest : Runs s' ts s'') :
      Runs s (t :: ts) s''

theorem Runs.single
    {s s' : State}
    {t : Token}
    (hStep : step s t = .ok s') :
    Runs s [t] s' :=
  Runs.cons hStep Runs.nil

theorem Runs.append
    {s s' s'' : State}
    {left right : List Token}
    (hLeft : Runs s left s')
    (hRight : Runs s' right s'') :
    Runs s (left ++ right) s'' := by
  induction hLeft with
  | nil => exact hRight
  | cons hStep _ ih => exact Runs.cons hStep (ih hRight)

/- A run has a state between any two of its tokens. -/
theorem exists_of_runs_append
    {s s'' : State}
    {left right : List Token}
    (h : Runs s (left ++ right) s'') :
    ∃ s', Runs s left s' ∧ Runs s' right s'' := by
  induction left generalizing s with
  | nil => exact ⟨s, Runs.nil, h⟩
  | cons t left ih =>
      cases h with
      | cons hStep hRest =>
          rcases ih hRest with ⟨s', hLeft, hRight⟩
          exact ⟨s', Runs.cons hStep hLeft, hRight⟩

/- A run ends in one state only. -/
theorem Runs.eq_of_runs
    {s s' s'' : State}
    {ts : List Token}
    (h : Runs s ts s')
    (h' : Runs s ts s'') :
    s' = s'' := by
  induction h with
  | nil =>
      cases h'
      rfl
  | cons hStep _ ih =>
      cases h' with
      | cons hStep' hRest =>
          rw [hStep] at hStep'
          cases hStep'
          exact ih hRest

/- Every string literal in a list of tokens has a value. -/
def Decodes
    (tokens : List Token) : Prop :=
  ∀ t ∈ tokens,
    t.kind = .string → (Quoted.decode? t.text).isSome = true

@[simp] theorem decodes_append_iff
    (left right : List Token) :
    Decodes (left ++ right) ↔ Decodes left ∧ Decodes right := by
  simp only [Decodes, List.mem_append, or_imp, forall_and]

@[simp] theorem decodes_cons_iff
    (t : Token)
    (ts : List Token) :
    Decodes (t :: ts) ↔
      (t.kind = .string →
          (Quoted.decode? t.text).isSome = true) ∧
        Decodes ts := by
  simp only [Decodes, List.mem_cons, forall_eq_or_imp]

/-
  Items and the entries that the automaton keeps, last one
  first, denote the same.
-/
def Agrees
    (items : List Grammar.Item)
    (entries : List Entry) : Prop :=
  List.Forall₂
    (fun item e => Grammar.Denotes item e.name e.deprecation)
    items entries.reverse

theorem Agrees.snoc
    {items : List Grammar.Item}
    {entries : List Entry}
    {item : Grammar.Item}
    {e : Entry}
    (hEntries : Agrees items entries)
    (hLast : Grammar.Denotes item e.name e.deprecation) :
    Agrees (items ++ [item]) (e :: entries) := by
  unfold Agrees
  rw [List.reverse_cons]
  exact List.rel_append hEntries
    (List.Forall₂.cons hLast List.Forall₂.nil)

------------------------------------------------------------
-- Sentences Are Accepted
------------------------------------------------------------

open Grammar

theorem Key.ofName?_name
    (k : Key) :
    Key.ofName? k.name = some k := by
  cases k <;> decide

theorem runs_of_isSetting
    {tokens : List Token}
    {s : Setting}
    (hSetting : IsSetting tokens s)
    (hDecodes : Decodes tokens)
    (entries : List Entry)
    (e : Entry)
    (d : Deprecation) :
    ∃ d',
      GivesFrom d [s] d' ∧
        Runs (.detail entries e d) tokens
          (.details entries e d') := by
  cases hSetting with
  | intro hWord hKey hEquals hLiteral =>
      rename_i word equals literal k
      have hSome : (Quoted.decode? literal.text).isSome = true :=
        hDecodes literal (by simp) hLiteral
      rcases Option.isSome_iff_exists.mp hSome with
        ⟨value, hValue⟩
      refine ⟨k.set d value, GivesFrom.single d hValue, ?_⟩
      have hFirst :
          step (.detail entries e d) word =
            .ok (.assigning entries e d k) := by
        simp [step, hWord, hKey, Key.ofName?_name]
      have hSecond :
          step (.assigning entries e d k) equals =
            .ok (.assigned entries e d k) := by
        simp [step, hEquals]
      have hThird :
          step (.assigned entries e d k) literal =
            .ok (.details entries e (k.set d value)) := by
        simp [step, hLiteral, hValue]
      exact Runs.cons hFirst
        (Runs.cons hSecond (Runs.single hThird))

theorem runs_of_isSettings
    {tokens : List Token}
    {settings : List Setting}
    (hSettings : IsSettings tokens settings)
    (hDecodes : Decodes tokens)
    (entries : List Entry)
    (e : Entry)
    (d : Deprecation) :
    ∃ d',
      GivesFrom d settings d' ∧
        Runs (.details entries e d) tokens
          (.details entries e d') := by
  induction hSettings generalizing d with
  | nil => exact ⟨d, GivesFrom.nil d, Runs.nil⟩
  | cons hComma hFirst _ ih =>
      rename_i comma first rest s settings _
      rw [decodes_append_iff, decodes_cons_iff] at hDecodes
      rcases runs_of_isSetting hFirst hDecodes.1.2 entries e d
        with ⟨d₁, hGives₁, hRuns₁⟩
      rcases ih hDecodes.2 d₁ with ⟨d₂, hGives₂, hRuns₂⟩
      have hStep :
          step (.details entries e d) comma =
            .ok (.detail entries e d) := by
        simp [step, hComma]
      exact ⟨d₂, hGives₁.append hGives₂,
        Runs.cons hStep (hRuns₁.append hRuns₂)⟩

/- A deprecated entry may close behind a trailing comma. -/
private theorem runs_trailing_details
    {trailing : List Token}
    {closing : Token}
    (hTrailing : IsTrailing trailing)
    (hClosing : closing.kind = .rightParen)
    (entries : List Entry)
    (e : Entry)
    (d : Deprecation) :
    Runs (.details entries e d) (trailing ++ [closing])
      (.listed entries { e with deprecation := some d }) := by
  cases hTrailing with
  | none =>
      apply Runs.single
      simp [step, hClosing]
  | comma hComma =>
      rename_i comma
      have hStep :
          step (.details entries e d) comma =
            .ok (.detail entries e d) := by
        simp [step, hComma]
      refine Runs.cons hStep (Runs.single ?_)
      simp [step, hClosing]

theorem runs_of_isEntry
    {tokens : List Token}
    {item : Item}
    (hEntry : IsEntry tokens item)
    (hDecodes : Decodes tokens)
    (entries : List Entry) :
    ∃ e : Entry,
      Denotes item e.name e.deprecation ∧
        Runs (.listing entries) tokens
          (.listed entries e) := by
  cases hEntry with
  | plain hName hPlain =>
      rename_i name
      refine ⟨⟨name.text, name.offset, none⟩,
        Denotes.plain name.text, ?_⟩
      apply Runs.single
      simp [step, hName, hPlain]
  | deprecated hWord hDeprecated hOpening hName hBody
      hTrailing hClosing =>
      rename_i word opening name closing body trailing settings
      let e : Entry := ⟨name.text, name.offset, none⟩
      have hBodyDecodes : Decodes body := by
        simp only [decodes_cons_iff, decodes_append_iff]
          at hDecodes
        exact hDecodes.2.2.2.1.1
      rcases runs_of_isSettings hBody hBodyDecodes entries e {}
        with ⟨d, hGives, hRuns⟩
      have hWordStep :
          step (.listing entries) word =
            .ok (.deprecated entries) := by
        simp [step, hWord, hDeprecated]
      have hOpeningStep :
          step (.deprecated entries) opening =
            .ok (.deprecatedOpen entries) := by
        simp [step, hOpening]
      have hNameStep :
          step (.deprecatedOpen entries) name =
            .ok (.details entries e {}) := by
        simp [step, hName, e]
      have hTail := runs_trailing_details hTrailing hClosing
        entries e d
      refine ⟨{ e with deprecation := some d },
        Denotes.deprecated hGives.gives, ?_⟩
      rw [List.append_assoc]
      exact Runs.cons hWordStep (Runs.cons hOpeningStep
        (Runs.cons hNameStep (hRuns.append hTail)))

theorem runs_of_isEntries
    {tokens : List Token}
    {items : List Item}
    (hEntries : IsEntries tokens items)
    (hDecodes : Decodes tokens)
    {before : List Item}
    {entries : List Entry}
    (hBefore : Agrees before entries) :
    ∃ entries' last,
      Agrees (before ++ items) (last :: entries') ∧
        Runs (.listing entries) tokens
          (.listed entries' last) := by
  induction hEntries generalizing before entries with
  | single hEntry =>
      rcases runs_of_isEntry hEntry hDecodes entries with
        ⟨e, hDenotes, hRuns⟩
      exact ⟨entries, e, hBefore.snoc hDenotes, hRuns⟩
  | cons hFirst hComma _ ih =>
      rename_i first rest comma item items _
      rw [decodes_append_iff, decodes_cons_iff] at hDecodes
      rcases runs_of_isEntry hFirst hDecodes.1 entries with
        ⟨e, hDenotes, hRuns⟩
      rcases ih hDecodes.2.2 (hBefore.snoc hDenotes) with
        ⟨entries', last, hAgrees, hRest⟩
      have hStep :
          step (.listed entries e) comma =
            .ok (.listing (e :: entries)) := by
        simp [step, hComma]
      refine ⟨entries', last, ?_,
        hRuns.append (Runs.cons hStep hRest)⟩
      simpa using hAgrees

/- The list may close behind a trailing comma. -/
private theorem runs_trailing_listed
    {trailing : List Token}
    {closing : Token}
    (hTrailing : IsTrailing trailing)
    (hClosing : closing.kind = .rightParen)
    (entries : List Entry)
    (last : Entry) :
    Runs (.listed entries last) (trailing ++ [closing])
      (.closed (last :: entries)) := by
  cases hTrailing with
  | none =>
      apply Runs.single
      simp [step, hClosing]
  | comma hComma =>
      rename_i comma
      have hStep :
          step (.listed entries last) comma =
            .ok (.listing (last :: entries)) := by
        simp [step, hComma]
      refine Runs.cons hStep (Runs.single ?_)
      simp [step, hClosing]

/- A sentence takes the automaton to its end. -/
theorem runs_of_isSentence
    {tokens : List Token}
    {items : List Item}
    {eof : Token}
    (hSentence : IsSentence (tokens ++ [eof]) items)
    (hDecodes : Decodes tokens) :
    ∃ entries,
      Agrees items entries ∧
        Runs .start tokens (.closed entries) := by
  generalize hWhole : tokens ++ [eof] = whole at hSentence
  cases hSentence with
  | intro hOpening hBody hTrailing hClosing hEof =>
      rename_i opening closing end' body trailing
      have hSplit :
          tokens ++ [eof] =
            (opening :: (body ++ (trailing ++ [closing]))) ++
              [end'] := by
        simpa using hWhole
      have hTokens :=
        (List.append_inj' hSplit rfl).1
      subst hTokens
      have hBodyDecodes : Decodes body := by
        simp only [decodes_cons_iff, decodes_append_iff]
          at hDecodes
        exact hDecodes.2.1
      have hNone : Agrees [] [] := List.Forall₂.nil
      rcases runs_of_isEntries hBody hBodyDecodes hNone with
        ⟨entries, last, hAgrees, hRuns⟩
      have hTail := runs_trailing_listed hTrailing hClosing
        entries last
      have hStep :
          step .start opening = .ok (.listing []) := by
        simp [step, hOpening]
      exact ⟨last :: entries, by simpa using hAgrees,
        Runs.cons hStep (hRuns.append hTail)⟩

------------------------------------------------------------
-- Only Sentences Are Accepted
------------------------------------------------------------

/-
  The tokens up to a place where an entry may start, and the
  entries among them.
-/
structure BeforeEntry
    (tokens : List Token)
    (items : List Item)
    (entries : List Entry) : Prop where
  shape :
    ∃ opening lead,
      tokens = opening :: lead ∧
        opening.kind = .leftParen ∧ IsLead lead items
  agrees : Agrees items entries

/-
  The tokens of a deprecated entry up to the place behind
  some of its settings.
-/
structure InDeprecated
    (tokens : List Token)
    (settings : List Setting)
    (e : Entry)
    (d : Deprecation) : Prop where
  shape :
    ∃ word opening name body,
      tokens = word :: opening :: name :: body ∧
        word.kind = .ident ∧
        word.text = deprecatedWord ∧
        opening.kind = .leftParen ∧
        name.kind = .ident ∧
        name.text = e.name ∧ IsSettings body settings
  gives : GivesFrom {} settings d

/- What the tokens read so far are, for each state. -/
inductive Reads : List Token → State → Prop where
  | start : Reads [] .start
  | listing
      {tokens : List Token}
      {items : List Item}
      {entries : List Entry}
      (hBefore : BeforeEntry tokens items entries) :
      Reads tokens (.listing entries)
  | listed
      {opening : Token}
      {body : List Token}
      {items : List Item}
      {entries : List Entry}
      {last : Entry}
      (hOpening : opening.kind = .leftParen)
      (hBody : IsEntries body items)
      (hAgrees : Agrees items (last :: entries)) :
      Reads (opening :: body) (.listed entries last)
  | deprecated
      {tokens : List Token}
      {word : Token}
      {items : List Item}
      {entries : List Entry}
      (hBefore : BeforeEntry tokens items entries)
      (hWord : word.kind = .ident)
      (hText : word.text = deprecatedWord) :
      Reads (tokens ++ [word]) (.deprecated entries)
  | deprecatedOpen
      {tokens : List Token}
      {word opening : Token}
      {items : List Item}
      {entries : List Entry}
      (hBefore : BeforeEntry tokens items entries)
      (hWord : word.kind = .ident)
      (hText : word.text = deprecatedWord)
      (hOpening : opening.kind = .leftParen) :
      Reads (tokens ++ [word, opening])
        (.deprecatedOpen entries)
  | details
      {tokens part : List Token}
      {items : List Item}
      {entries : List Entry}
      {settings : List Setting}
      {e : Entry}
      {d : Deprecation}
      (hBefore : BeforeEntry tokens items entries)
      (hPart : InDeprecated part settings e d) :
      Reads (tokens ++ part) (.details entries e d)
  | detail
      {tokens part : List Token}
      {comma : Token}
      {items : List Item}
      {entries : List Entry}
      {settings : List Setting}
      {e : Entry}
      {d : Deprecation}
      (hBefore : BeforeEntry tokens items entries)
      (hPart : InDeprecated part settings e d)
      (hComma : comma.kind = .comma) :
      Reads (tokens ++ part ++ [comma]) (.detail entries e d)
  | assigning
      {tokens part : List Token}
      {comma word : Token}
      {items : List Item}
      {entries : List Entry}
      {settings : List Setting}
      {e : Entry}
      {d : Deprecation}
      {k : Key}
      (hBefore : BeforeEntry tokens items entries)
      (hPart : InDeprecated part settings e d)
      (hComma : comma.kind = .comma)
      (hWord : word.kind = .ident)
      (hKey : word.text = k.name) :
      Reads (tokens ++ part ++ [comma, word])
        (.assigning entries e d k)
  | assigned
      {tokens part : List Token}
      {comma word equals : Token}
      {items : List Item}
      {entries : List Entry}
      {settings : List Setting}
      {e : Entry}
      {d : Deprecation}
      {k : Key}
      (hBefore : BeforeEntry tokens items entries)
      (hPart : InDeprecated part settings e d)
      (hComma : comma.kind = .comma)
      (hWord : word.kind = .ident)
      (hKey : word.text = k.name)
      (hEquals : equals.kind = .assign) :
      Reads (tokens ++ part ++ [comma, word, equals])
        (.assigned entries e d k)
  | closed
      {opening closing : Token}
      {body trailing : List Token}
      {items : List Item}
      {entries : List Entry}
      (hOpening : opening.kind = .leftParen)
      (hBody : IsEntries body items)
      (hTrailing : IsTrailing trailing)
      (hClosing : closing.kind = .rightParen)
      (hAgrees : Agrees items entries) :
      Reads (opening :: (body ++ trailing ++ [closing]))
        (.closed entries)

/- An entry behind what stands before it. -/
theorem BeforeEntry.listed
    {tokens part : List Token}
    {items : List Item}
    {entries : List Entry}
    {item : Item}
    {e : Entry}
    (hBefore : BeforeEntry tokens items entries)
    (hEntry : IsEntry part item)
    (hDenotes : Denotes item e.name e.deprecation) :
    Reads (tokens ++ part) (.listed entries e) := by
  rcases hBefore.shape with
    ⟨opening, lead, rfl, hOpening, hLead⟩
  exact Reads.listed hOpening (hLead.entries hEntry)
    (hBefore.agrees.snoc hDenotes)

/- One more setting behind those before it. -/
theorem InDeprecated.snoc
    {part last : List Token}
    {comma : Token}
    {settings : List Setting}
    {s : Setting}
    {e : Entry}
    {d d' : Deprecation}
    (hPart : InDeprecated part settings e d)
    (hComma : comma.kind = .comma)
    (hLast : IsSetting last s)
    (hGives : GivesFrom d [s] d') :
    InDeprecated (part ++ comma :: last)
      (settings ++ [s]) e d' := by
  rcases hPart.shape with
    ⟨word, opening, name, body, rfl, hWord, hText, hOpening,
      hName, hEq, hBody⟩
  constructor
  · exact ⟨word, opening, name, body ++ comma :: last, rfl,
      hWord, hText, hOpening, hName, hEq,
      hBody.snoc hComma hLast⟩
  · exact hPart.gives.append hGives

/- A deprecated entry closes, maybe behind a comma. -/
theorem InDeprecated.listed
    {tokens part trailing : List Token}
    {closing : Token}
    {items : List Item}
    {entries : List Entry}
    {settings : List Setting}
    {e : Entry}
    {d : Deprecation}
    (hBefore : BeforeEntry tokens items entries)
    (hPart : InDeprecated part settings e d)
    (hTrailing : IsTrailing trailing)
    (hClosing : closing.kind = .rightParen) :
    Reads (tokens ++ (part ++ trailing ++ [closing]))
      (.listed entries { e with deprecation := some d }) := by
  rcases hPart.shape with
    ⟨word, opening, name, body, rfl, hWord, hText, hOpening,
      hName, hEq, hBody⟩
  have hEntry := IsEntry.deprecated hWord hText hOpening
    hName hBody hTrailing hClosing
  rw [hEq] at hEntry
  exact hBefore.listed hEntry
    (Denotes.deprecated hPart.gives.gives)

/- A key is read from its own spelling. -/
theorem Key.eq_name_of_ofName?
    {s : Bytes}
    {k : Key}
    (h : Key.ofName? s = some k) :
    s = k.name := by
  unfold Key.ofName? at h
  split at h
  · rename_i hSince
    cases h
    exact hSince
  · split at h
    · rename_i hNote
      cases h
      exact hNote
    · cases h

/-
  A token read where an entry may start: the list closes, or
  an entry begins.
-/
private theorem Reads.step_listing
    {tokens : List Token}
    {items : List Item}
    {entries : List Entry}
    {s : State}
    {t : Token}
    (hBefore : BeforeEntry tokens items entries)
    (hStep : step (.listing entries) t = .ok s) :
    Reads (tokens ++ [t]) s := by
  simp only [Arguments.step] at hStep
  split at hStep
  · rename_i hClosing
    split at hStep
    · cases hStep
    · rename_i hSome
      cases hStep
      rcases hBefore.shape with
        ⟨opening, lead, rfl, hOpening, hLead⟩
      cases hLead with
      | first =>
          have hNil : entries = [] := by
            simpa [Agrees] using hBefore.agrees
          simp [hNil] at hSome
      | next hBody hComma =>
          exact Reads.closed hOpening hBody
            (IsTrailing.comma hComma) hClosing hBefore.agrees
  · split at hStep
    · rename_i hWord
      split at hStep
      · rename_i hText
        cases hStep
        exact Reads.deprecated hBefore hWord hText
      · rename_i hText
        cases hStep
        exact hBefore.listed (IsEntry.plain hWord hText)
          (Denotes.plain t.text)
    · cases hStep

/- A token read behind an entry: a comma, or the list closes. -/
private theorem Reads.step_listed
    {opening : Token}
    {body : List Token}
    {items : List Item}
    {entries : List Entry}
    {last : Entry}
    {s : State}
    {t : Token}
    (hOpening : opening.kind = .leftParen)
    (hBody : IsEntries body items)
    (hAgrees : Agrees items (last :: entries))
    (hStep : step (.listed entries last) t = .ok s) :
    Reads (opening :: body ++ [t]) s := by
  simp only [Arguments.step] at hStep
  split at hStep
  · rename_i hComma
    cases hStep
    apply Reads.listing
    exact ⟨⟨opening, body ++ [t], rfl, hOpening,
      IsLead.next hBody hComma⟩, hAgrees⟩
  · split at hStep
    · rename_i hClosing
      cases hStep
      have hClosed := Reads.closed hOpening hBody
        IsTrailing.none hClosing hAgrees
      simpa using hClosed
    · cases hStep

/- A token read behind a comma of a deprecated entry. -/
private theorem Reads.step_detail
    {tokens part : List Token}
    {comma : Token}
    {items : List Item}
    {entries : List Entry}
    {settings : List Setting}
    {e : Entry}
    {d : Deprecation}
    {s : State}
    {t : Token}
    (hBefore : BeforeEntry tokens items entries)
    (hPart : InDeprecated part settings e d)
    (hComma : comma.kind = .comma)
    (hStep : step (.detail entries e d) t = .ok s) :
    Reads (tokens ++ part ++ [comma] ++ [t]) s := by
  simp only [Arguments.step] at hStep
  split at hStep
  · rename_i hClosing
    cases hStep
    have hListed := InDeprecated.listed hBefore hPart
      (IsTrailing.comma hComma) hClosing
    simpa using hListed
  · split at hStep
    · rename_i hWord
      split at hStep
      · rename_i k hKey
        cases hStep
        have hAssigning := Reads.assigning hBefore hPart hComma
          hWord (Key.eq_name_of_ofName? hKey)
        simpa using hAssigning
      · cases hStep
    · cases hStep

/- Each token keeps what the tokens before it say. -/
theorem Reads.step
    {tokens : List Token}
    {s s' : State}
    {t : Token}
    (hReads : Reads tokens s)
    (hStep : step s t = .ok s') :
    Reads (tokens ++ [t]) s' := by
  cases hReads with
  | start =>
      simp only [Arguments.step] at hStep
      split at hStep
      · rename_i hOpening
        cases hStep
        apply Reads.listing
        exact ⟨⟨t, [], rfl, hOpening, IsLead.first⟩,
          List.Forall₂.nil⟩
      · cases hStep
  | listing hBefore => exact Reads.step_listing hBefore hStep
  | listed hOpening hBody hAgrees =>
      exact Reads.step_listed hOpening hBody hAgrees hStep
  | deprecated hBefore hWord hText =>
      simp only [Arguments.step] at hStep
      split at hStep
      · rename_i hOpening
        cases hStep
        have hNext := Reads.deprecatedOpen hBefore hWord hText
          hOpening
        simpa using hNext
      · cases hStep
  | deprecatedOpen hBefore hWord hText hOpening =>
      rename_i word opening _ _
      simp only [Arguments.step] at hStep
      split at hStep
      · rename_i hName
        cases hStep
        rw [List.append_assoc]
        apply Reads.details hBefore
        exact ⟨⟨word, opening, t, [], rfl, hWord, hText,
          hOpening, hName, rfl, IsSettings.nil⟩,
          GivesFrom.nil {}⟩
      · cases hStep
  | details hBefore hPart =>
      simp only [Arguments.step] at hStep
      split at hStep
      · rename_i hClosing
        cases hStep
        have hListed := InDeprecated.listed hBefore hPart
          IsTrailing.none hClosing
        simpa using hListed
      · split at hStep
        · rename_i hComma
          cases hStep
          exact Reads.detail hBefore hPart hComma
        · cases hStep
  | detail hBefore hPart hComma =>
      exact Reads.step_detail hBefore hPart hComma hStep
  | assigning hBefore hPart hComma hWord hKey =>
      simp only [Arguments.step] at hStep
      split at hStep
      · rename_i hEquals
        cases hStep
        have hNext := Reads.assigned hBefore hPart hComma hWord
          hKey hEquals
        simpa using hNext
      · cases hStep
  | assigned hBefore hPart hComma hWord hKey hEquals =>
      simp only [Arguments.step] at hStep
      split at hStep
      · rename_i hLiteral
        split at hStep
        · rename_i value hValue
          cases hStep
          have hSetting := IsSetting.intro hWord hKey hEquals
            hLiteral
          have hNext := Reads.details hBefore
            (hPart.snoc hComma hSetting
              (GivesFrom.single _ hValue))
          simpa using hNext
        · cases hStep
      · cases hStep
  | closed => simp [Arguments.step] at hStep

/- What a whole run keeps. -/
theorem Reads.run
    {before tokens : List Token}
    {s s' : State}
    (hReads : Reads before s)
    (hRuns : Runs s tokens s') :
    Reads (before ++ tokens) s' := by
  induction hRuns generalizing before with
  | nil => simpa using hReads
  | cons hStep _ ih =>
      have hRest := ih (hReads.step hStep)
      simpa using hRest

/- An accepted token list is a sentence. -/
theorem isSentence_of_runs
    {tokens : List Token}
    {entries : List Entry}
    {eof : Token}
    (hRuns : Runs .start tokens (.closed entries))
    (hEof : eof.kind = .eof) :
    ∃ items, IsSentence (tokens ++ [eof]) items := by
  have hReads := Reads.start.run hRuns
  rw [List.nil_append] at hReads
  cases hReads with
  | closed hOpening hBody hTrailing hClosing _ =>
      have hSentence := IsSentence.intro hOpening hBody
        hTrailing hClosing hEof
      exact ⟨_, by simpa using hSentence⟩

end Arguments

end Namesake
