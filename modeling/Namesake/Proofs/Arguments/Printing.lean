import Namesake.Proofs.Arguments.Exactness
import Namesake.Proofs.Settings.Identifier

/-
  Writing a list of aliases as directive arguments and
  parsing the text.  Every name and every text comes back as
  it was, whatever bytes the texts consist of: quoting hides
  whatever the scanner or the grammar might stumble over.

  Main declarations:
    * `Scanner.written_of_lexes`
    * `Alias.text` and `Alias.listText`
    * `Alias.exists_lexes_text`
    * `Alias.parse_listText`
-/

namespace Namesake

------------------------------------------------------------
-- Whole Texts of Lexemes
------------------------------------------------------------

namespace Scanner

/- At the end of the text only the end counts. -/
theorem tokensFrom_of_nil
    {s : State}
    (hPending : s.pending = none)
    (hRest : s.cursor.rest = []) :
    ∃ eof,
      eof.kind = .eof ∧
        ((tokensFrom s).map Lexed.token).filter isWritten =
          [eof] ∧
        ∀ u ∈ tokensFrom s, u.faults = [] := by
  cases hImplies : s.implies with
  | false =>
      rw [tokensFrom_of_quiet_nil hPending hImplies hRest]
      exact ⟨_, rfl, rfl, by simp⟩
  | true =>
      -- one more semicolon comes first, which is not written
      have hStep := step_of_nil hPending hRest
      simp only [hImplies, if_true] at hStep
      have hKind : (step s).1.token.kind ≠ .eof := by
        rw [hStep]
        simp [implied]
      have hQuiet :=
        tokensFrom_of_quiet_nil (s := ⟨s.cursor, false, none⟩)
          rfl rfl hRest
      rw [tokensFrom_of_not_eof hKind, hStep, hQuiet]
      exact ⟨_, rfl, rfl, by simp [implied]⟩

/- A text of lexemes is clean and says just these. -/
theorem written_of_lexes
    {src : Bytes}
    {ts : List Token}
    (h : Lexes [] 0 src ts) :
    IsClean src ∧
      ∃ eof, eof.kind = .eof ∧ written src = ts ++ [eof] := by
  have hSound := h.isSound
  have hArrive : (Cursor.ofText src).arrive = [] :=
    Cursor.arrive_of_isSound hSound
  have hStart :
      start src = (⟨Cursor.ofText src, false, none⟩, []) := by
    unfold start
    simp only
    rw [if_neg, hArrive]
    intro hMark
    rcases Cursor.exists_split?_of_code? hMark with
      ⟨g, rest, hSplit, hCode⟩
    rcases hSound.of_split? hSplit with ⟨c, rfl, _, hNe, _⟩
    exact hNe hCode
  rcases tokensFrom_of_lexes (s := (start src).1) (t := [])
      (by rw [hStart]; exact h) Utf8.IsSound.nil
      (by rw [hStart]) (by rw [hStart]; simp [Cursor.ofText]) with
    ⟨read, s', hTokens, hRead, hFaults, hPending, hEnd⟩
  rcases tokensFrom_of_nil hPending hEnd with
    ⟨eof, hEof, hWritten, hClean⟩
  refine ⟨?_, eof, hEof, ?_⟩
  · rw [isClean_iff, hTokens, hStart]
    refine ⟨rfl, ?_⟩
    intro u hu
    rcases List.mem_append.mp hu with hFront | hBack
    · exact hFaults u hFront
    · exact hClean u hBack
  · have hAll : ts.filter isWritten = ts := by
      rw [List.filter_eq_self]
      intro tok hMem
      have hKind := h.written_of_mem hMem
      simp [isWritten, Token.isImplied, hKind.1, hKind.2.1]
    rw [written, map_token_tokens, hTokens, List.map_append,
      List.filter_append, hRead, hAll, hWritten]

end Scanner

------------------------------------------------------------
-- Printing
------------------------------------------------------------

namespace Alias

open Arguments Arguments.Grammar Scanner

/- What an alias asks for, wherever it stands. -/
def request
    (a : Alias) : Bytes × Option Deprecation :=
  (a.name, a.deprecation)

/- A setting behind its comma; nothing for a text that is absent. -/
def settingText
    (k : Key) : Option Bytes → Bytes
  | none => []
  | some value =>
      utf8 ", " ++ k.name ++ utf8 " = " ++ Quoted.encode value

/- The entry of an alias. -/
def text
    (a : Alias) : Bytes :=
  match a.deprecation with
  | none => a.name
  | some d =>
      deprecatedWord ++ utf8 "(" ++ a.name ++
        settingText .since d.since ++ settingText .note d.note ++
        utf8 ")"

/- A list of aliases as directive arguments. -/
def listText
    (aliases : List Alias) : Bytes :=
  utf8 "(" ++ Bytes.join (utf8 ", ") (aliases.map text) ++
    utf8 ")"

/- The name is an identifier that a plain entry may have. -/
structure IsNamed
    (a : Alias) : Prop where
  identifier : Settings.isIdentifier a.name = true
  plain : a.deprecation = none → a.name ≠ deprecatedWord

------------------------------------------------------------
-- What Is Printed
------------------------------------------------------------

/- The settings that are printed for a text. -/
def settings
    (k : Key) : Option Bytes → List Setting
  | none => []
  | some value => [⟨k, Quoted.encode value⟩]

/- The item that is printed for an alias. -/
def item
    (a : Alias) : Item :=
  match a.deprecation with
  | none => .plain a.name
  | some d =>
      .deprecated a.name
        (settings .since d.since ++ settings .note d.note)

/- The literals that are printed are those of the deprecation. -/
theorem lastLiteral?_settings
    (d : Deprecation)
    (k : Key) :
    lastLiteral? k
        (settings .since d.since ++ settings .note d.note) =
      (k.get d).map Quoted.encode := by
  rcases d with ⟨since, note⟩
  cases k <;> cases since <;> cases note <;> rfl

/- What is printed for an alias stands for nothing else. -/
theorem request_of_denotes
    {a : Alias}
    {name : Bytes}
    {deprecation : Option Deprecation}
    (h : Denotes a.item name deprecation) :
    (name, deprecation) = a.request := by
  unfold item at h
  unfold request
  cases hDeprecation : a.deprecation with
  | none =>
      rw [hDeprecation] at h
      cases h
      rfl
  | some d =>
      rw [hDeprecation] at h
      cases h with
      | @deprecated _ _ d' hGives =>
          have hGet (k : Key) : k.get d' = k.get d := by
            have hKey := hGives k
            have hValue :
                Quoted.decode? ∘ Quoted.encode = some :=
              funext Quoted.decode?_encode
            rw [lastLiteral?_settings, Option.map_map,
              hValue] at hKey
            exact (Option.map_injective
              (fun _ _ => Option.some.inj) hKey).symm
          have hSame : d' = d := by
            rcases d with ⟨since, note⟩
            rcases d' with ⟨since', note'⟩
            have hSince : since' = since := hGet .since
            have hNote : note' = note := hGet .note
            rw [hSince, hNote]
          rw [hSame]

------------------------------------------------------------
-- Reading What Is Printed
------------------------------------------------------------

theorem isLexeme_of_isIdentifier
    {name t : Bytes}
    (hName : Settings.isIdentifier name = true)
    (ht : Utf8.IsSound t)
    (hEnd : EndsName t) :
    IsLexeme name t .ident name := by
  have hSound := Settings.isSound_of_isIdentifier hName
  unfold Settings.isIdentifier at hName
  simp only [Bool.and_eq_true, beq_iff_eq] at hName
  rcases hName with ⟨hKind, hGlyphs⟩
  split at hGlyphs
  · cases hGlyphs
  · rename_i g gs hSplit
    simp only [Bool.and_eq_true, List.all_eq_true] at hGlyphs
    exact isLexeme_word hSound ht hKind hSplit hGlyphs.1
      hGlyphs.2 hEnd

variable {t w : Bytes} {b : UInt8} {kind : TokenKind}
  {n : Nat} {ts : List Token}

/- A delimiter in front of other lexemes. -/
private theorem lexes_delimiter
    (hDelimiter : IsDelimiter b kind)
    (ht : Utf8.IsSound t)
    (hEnd : kind = .assign → (w ++ t).head? ≠ some 0x3d)
    (h : Lexes t (n + 1) w ts) :
    Lexes t n (b :: w) (⟨kind, n, []⟩ :: ts) :=
  Lexes.cons
    (isLexeme_delimiter (h.isSound.append ht) hDelimiter hEnd) h

/- A name in front of other lexemes. -/
private theorem lexes_name
    {name : Bytes}
    (hName : Settings.isIdentifier name = true)
    (ht : Utf8.IsSound t)
    (hEnd : EndsName (w ++ t))
    (h : Lexes t (n + name.length) w ts) :
    Lexes t n (name ++ w) (⟨.ident, n, name⟩ :: ts) :=
  Lexes.cons
    (isLexeme_of_isIdentifier hName (h.isSound.append ht) hEnd) h

/- A setting is printed as what the grammar calls one. -/
theorem exists_lexes_settingText
    (k : Key)
    (value : Option Bytes)
    (ht : Utf8.IsSound t)
    (n : Nat) :
    ∃ ts,
      Lexes t n (settingText k value) ts ∧
        IsSettings ts (settings k value) := by
  cases value with
  | none => exact ⟨[], Lexes.nil, IsSettings.nil⟩
  | some value =>
      have hText :
          settingText k (some value) =
            0x2c :: 0x20 :: (k.name ++ 0x20 :: 0x3d :: 0x20 ::
              (Quoted.encode value ++ [])) := by
        simp only [settingText]
        change [0x2c, 0x20] ++ k.name ++ [0x20, 0x3d, 0x20] ++
          Quoted.encode value = _
        simp
      have hKey : Settings.isIdentifier k.name = true := by
        cases k <;> decide +kernel
      have hBlank {s : Bytes} : EndsName (0x20 :: s) :=
        EndsName.cons (by decide) (by decide)
      have hLiteral (m : Nat) :
          Lexes t m (Quoted.encode value ++ [])
            [⟨.string, m, Quoted.encode value⟩] :=
        Lexes.cons (isLexeme_encode ht value) Lexes.nil
      have hSetting :=
        lexes_delimiter (n := n) IsDelimiter.comma ht
          (by simp)
          (Lexes.blank (lexes_name hKey ht hBlank
            (Lexes.blank (lexes_delimiter IsDelimiter.equals ht
              (by simp) (Lexes.blank (hLiteral _))))))
      rw [hText]
      refine ⟨_, hSetting, ?_⟩
      exact IsSettings.cons rfl (IsSetting.intro rfl rfl rfl rfl)
        IsSettings.nil

/- A name before a setting ends there. -/
private theorem endsName_settingText
    (k : Key)
    (value : Option Bytes)
    (ht : EndsName t) :
    EndsName (settingText k value ++ t) := by
  cases value with
  | none => exact ht
  | some value => exact EndsName.cons (by decide) (by decide)

theorem exists_lexes_settings
    (d : Deprecation)
    (ht : Utf8.IsSound t)
    (n : Nat) :
    ∃ ts,
      Lexes t n
          (settingText .since d.since ++
            settingText .note d.note) ts ∧
        IsSettings ts
          (settings .since d.since ++ settings .note d.note) := by
  rcases exists_lexes_settingText .note d.note ht
      (n + (settingText .since d.since).length) with
    ⟨notes, hNotes, hIsNotes⟩
  rcases exists_lexes_settingText .since d.since
      (hNotes.isSound.append ht) n with
    ⟨sinces, hSinces, hIsSinces⟩
  exact ⟨sinces ++ notes, hSinces.append hNotes,
    hIsSinces.append hIsNotes⟩

/- An entry is printed as what the grammar calls one. -/
theorem exists_lexes_text
    {a : Alias}
    (hNamed : a.IsNamed)
    (hb : b = 0x2c ∨ b = 0x29)
    (ht : Utf8.IsSound (b :: t))
    (n : Nat) :
    ∃ ts, Lexes (b :: t) n a.text ts ∧ IsEntry ts a.item := by
  have hEnd : EndsName (b :: t) := by
    rcases hb with rfl | rfl
    · exact EndsName.cons (by decide) (by decide)
    · exact EndsName.cons (by decide) (by decide)
  unfold text item
  cases hDeprecation : a.deprecation with
  | none =>
      have hName := lexes_name (n := n) (w := [])
        hNamed.identifier ht hEnd Lexes.nil
      rw [List.append_nil] at hName
      exact ⟨_, hName,
        IsEntry.plain rfl (hNamed.plain hDeprecation)⟩
  | some d =>
      have hText :
          deprecatedWord ++ utf8 "(" ++ a.name ++
              settingText .since d.since ++
              settingText .note d.note ++ utf8 ")" =
            deprecatedWord ++ 0x28 :: (a.name ++
              (settingText .since d.since ++
                settingText .note d.note ++ [0x29])) := by
        change deprecatedWord ++ [0x28] ++ a.name ++
          settingText .since d.since ++
          settingText .note d.note ++ [0x29] = _
        simp
      have hWord : Settings.isIdentifier deprecatedWord = true := by
        decide +kernel
      have hClosing (m : Nat) :
          Lexes (b :: t) m [0x29] [⟨.rightParen, m, []⟩] :=
        lexes_delimiter IsDelimiter.closing ht (by simp)
          Lexes.nil
      have hBehind : EndsName (0x29 :: b :: t) :=
        EndsName.cons (by decide) (by decide)
      have hSound : Utf8.IsSound (0x29 :: b :: t) :=
        ht.ascii (by decide) (by decide)
      have hName :
          EndsName
            (settingText .since d.since ++
              settingText .note d.note ++ [0x29] ++ b :: t) := by
        rw [List.append_assoc, List.append_assoc]
        exact endsName_settingText _ _
          (endsName_settingText _ _ hBehind)
      rcases exists_lexes_settings d hSound
          (n + deprecatedWord.length + 1 + a.name.length) with
        ⟨body, hBody, hIsBody⟩
      have hWhole :=
        lexes_name hWord ht
          (EndsName.cons (by decide) (by decide))
          (lexes_delimiter IsDelimiter.opening ht (by simp)
            (lexes_name hNamed.identifier ht hName
              (hBody.append (hClosing _))))
      simp only [hText]
      refine ⟨_, hWhole, ?_⟩
      rw [← List.append_nil body]
      exact IsEntry.deprecated rfl rfl rfl rfl hIsBody
        IsTrailing.none rfl

/- Entries with commas between them. -/
theorem exists_lexes_join
    {aliases : List Alias}
    (hNe : aliases ≠ [])
    (hNamed : ∀ a ∈ aliases, a.IsNamed)
    (n : Nat) :
    ∃ ts,
      Lexes [0x29] n
          (Bytes.join (utf8 ", ") (aliases.map text)) ts ∧
        IsEntries ts (aliases.map item) := by
  have hEnd : Utf8.IsSound [0x29] :=
    Utf8.IsSound.nil.ascii (by decide) (by decide)
  induction aliases generalizing n with
  | nil => exact absurd rfl hNe
  | cons a rest ih =>
      have hFirst := hNamed a (by simp)
      cases rest with
      | nil =>
          rcases exists_lexes_text hFirst (Or.inr rfl) hEnd n
            with ⟨ts, hLexes, hEntry⟩
          refine ⟨ts, ?_, IsEntries.single hEntry⟩
          simpa using hLexes
      | cons a' rest =>
          have hRests (m : Nat) :=
            ih (by simp) (fun a ha => hNamed a (by simp [ha])) m
          have hJoin :
              Bytes.join (utf8 ", ")
                  ((a :: a' :: rest).map text) =
                a.text ++ 0x2c :: 0x20 ::
                  Bytes.join (utf8 ", ")
                    ((a' :: rest).map text) := by
            have hSeparator : utf8 ", " = [0x2c, 0x20] := rfl
            simp [hSeparator]
          rcases hRests (n + a.text.length + 1 + 1) with
            ⟨ts, hLexes, hEntries⟩
          have hBehind := lexes_delimiter IsDelimiter.comma hEnd
            (by simp) hLexes.blank
          rcases exists_lexes_text hFirst (Or.inl rfl)
              (hBehind.isSound.append hEnd) n with
            ⟨us, hText, hEntry⟩
          rw [hJoin]
          exact ⟨_, hText.append hBehind,
            IsEntries.cons hEntry rfl hEntries⟩

/- A whole list is printed as a sentence. -/
theorem exists_lexes_listText
    {aliases : List Alias}
    (hNe : aliases ≠ [])
    (hNamed : ∀ a ∈ aliases, a.IsNamed) :
    ∃ ts,
      Lexes [] 0 (listText aliases) ts ∧
        ∀ eof, eof.kind = .eof →
          IsSentence (ts ++ [eof]) (aliases.map item) := by
  rcases exists_lexes_join hNe hNamed 1 with
    ⟨ts, hLexes, hEntries⟩
  have hClosing (m : Nat) :
      Lexes [] m [0x29] [⟨.rightParen, m, []⟩] :=
    lexes_delimiter IsDelimiter.closing Utf8.IsSound.nil
      (by simp) Lexes.nil
  have hWhole := lexes_delimiter (n := 0) IsDelimiter.opening
    Utf8.IsSound.nil (by simp) (hLexes.append (hClosing _))
  refine ⟨_, hWhole, ?_⟩
  intro eof hEof
  rw [List.cons_append, List.append_assoc,
    ← List.append_nil ts]
  exact IsSentence.intro rfl hEntries IsTrailing.none rfl hEof

/-
  Parsing a printed list gives the names and the deprecations
  back, in order and byte by byte.
-/
theorem parse_listText
    (aliases : List Alias)
    (locate : Nat → Position)
    (hNe : aliases ≠ [])
    (hNamed : ∀ a ∈ aliases, a.IsNamed) :
    ∃ parsed,
      parse (listText aliases) locate = .ok parsed ∧
        parsed.map request = aliases.map request := by
  rcases exists_lexes_listText hNe hNamed with
    ⟨ts, hLexes, hSentence⟩
  rcases written_of_lexes hLexes with
    ⟨hClean, eof, hEof, hWritten⟩
  have hItems := hSentence eof hEof
  rw [← hWritten] at hItems
  rcases exists_parse_of_isSentence locate hClean hItems with
    ⟨parsed, hParse, hDenotes⟩
  refine ⟨parsed, hParse, ?_⟩
  have hRequests :
      List.Forall₂ (fun a p => request p = request a) aliases
        parsed :=
    (List.forall₂_map_left_iff.mp hDenotes).imp
      fun _ _ h => request_of_denotes h
  have hEq := List.forall₂_map_left_iff.mpr
    (List.forall₂_map_right_iff.mpr hRequests.flip)
  rw [List.forall₂_eq_eq_eq] at hEq
  exact hEq

/-
  A name beyond ASCII, the reserved word as a name, an empty
  text, and a text of a NUL, a bell, a line end, a quote, a
  backslash, a byte order mark and half a character.
-/
def oddAliases : List Alias :=
  [{ name := utf8 "_\u00e99" },
    { name := deprecatedWord
      deprecation :=
        some
          { since := some []
            note :=
              some
                [0x00, 0x07, 0x0a, 0x22, 0x5c,
                  0xef, 0xbb, 0xbf, 0xe2, 0x82] } },
    { name := utf8 "B", deprecation := some {} }]

theorem parse_listText_oddAliases :
    listText oddAliases =
        utf8
          ("(_\u00e99, deprecated(deprecated, since = \"\", " ++
            "note = \"\\x00\\a\\n\\\"\\\\\\ufeff\\xe2\\x82\"), " ++
            "deprecated(B))") ∧
      ∃ parsed,
        parse (listText oddAliases) (fun _ => {}) = .ok parsed ∧
          parsed.map request = oddAliases.map request := by
  have hNamed : ∀ a ∈ oddAliases, a.IsNamed := by
    intro a hMem
    simp only [oddAliases, List.mem_cons, List.not_mem_nil,
      or_false] at hMem
    rcases hMem with rfl | rfl | rfl
    · exact ⟨by decide +kernel, fun _ => by decide⟩
    · exact ⟨by decide +kernel, by simp⟩
    · exact ⟨by decide +kernel, by simp⟩
  exact ⟨by decide +kernel,
    parse_listText oddAliases (fun _ => {}) (by decide) hNamed⟩

end Alias

end Namesake
