import Namesake.Proofs.Scanner.Placement

/-
  How sound texts are read.  No place in a sound text is
  wrong in itself, so the scanner reads a token that is
  written properly without a fault.  A text of such tokens
  with blanks between them is read as the tokens that it is
  made of.

  Main declarations:
    * `Cursor.arrive_of_isSound`
    * `Literal.stringTail_of_glyphs`
    * `Scanner.IsLexeme`
    * `Scanner.Lexes`
    * `Scanner.tokensFrom_of_lexes`
-/

namespace Namesake

------------------------------------------------------------
-- Sound Places
------------------------------------------------------------

namespace Cursor

variable {c d : Cursor} {s t w : Bytes}

theorem arrive_of_isSound
    (h : Utf8.IsSound c.rest) :
    c.arrive = [] := by
  unfold arrive
  cases hSplit : Utf8.split? c.rest with
  | none => rfl
  | some r =>
      rcases r with ⟨g, rest⟩
      rcases h.of_split? hSplit with ⟨ch, rfl, hNul, hMark, _⟩
      simp [hNul, hMark]

/- Moving on in a sound text takes one character. -/
theorem rest_next_of_isSound
    {g : Glyph}
    (h : Utf8.IsSound c.rest)
    (hSplit : Utf8.split? c.rest = some (g, s)) :
    c.next.rest = s ∧ Utf8.IsSound s := by
  have hWide := isWide_eq_false_of_arrive (arrive_of_isSound h)
  rcases h.of_split? hSplit with ⟨_, _, _, _, hSound⟩
  refine ⟨?_, hSound⟩
  simp [next, hSplit, hWide]

theorem code?_of_split?
    {g : Glyph}
    (hSplit : Utf8.split? c.rest = some (g, s)) :
    c.code? = some g.code := by
  rw [code?, Bytes.firstCode?, hSplit]
  rfl

/- An ASCII byte is a character of its own. -/
theorem rest_next_of_head
    {b : UInt8}
    (h : Utf8.IsSound c.rest)
    (hRest : c.rest = b :: s)
    (hLow : b < 0x80) :
    c.next.rest = s ∧ Utf8.IsSound s := by
  have hSplit :
      Utf8.split? c.rest =
        some (.char (Utf8.charOf b.toNat), s) := by
    rw [hRest]
    simp only [Utf8.split?, if_pos hLow]
  exact rest_next_of_isSound h hSplit

/- What stands between two places is told by what follows them. -/
theorem LeadsTo.passes
    (h : c.LeadsTo d)
    (hHere : c.rest = w ++ t)
    (hThere : d.rest = t) :
    c.Passes w d := by
  rcases h with ⟨w', hPasses⟩
  have hSame : w' = w := by
    have hRest := hPasses.rest
    rw [hHere, hThere] at hRest
    exact (List.append_cancel_right hRest).symm
  rw [← hSame]
  exact hPasses

theorem skipWhile_of_code?
    {p : Nat → Bool}
    {n : Nat}
    (hCode : c.code? = some n)
    (hp : p n = true) :
    c.skipWhile p =
      ((c.next.skipWhile p).1,
        c.next.arrive ++ (c.next.skipWhile p).2) := by
  rw [skipWhile]
  simp [rest_ne_nil_of_code? hCode, hCode, hp]

/- A run of glyphs is passed if none of its kind follows. -/
theorem skipWhile_of_glyphs
    {p : Nat → Bool}
    (hw : Utf8.IsSound w)
    (ht : Utf8.IsSound t)
    (hRest : c.rest = w ++ t)
    (hAll : ∀ g ∈ w.glyphs, p g.code = true)
    (hEnd : ∀ n, t.firstCode? = some n → p n = false) :
    ∃ d, c.skipWhile p = (d, []) ∧ d.rest = t := by
  induction hw generalizing c with
  | nil =>
      refine ⟨c, ?_, hRest⟩
      rw [List.nil_append] at hRest
      cases hCode : c.code? with
      | none =>
          rw [skipWhile]
          simp [hCode]
      | some n =>
          have hFirst : t.firstCode? = some n := by
            rw [← hRest]
            exact hCode
          exact skipWhile_of_not hCode (hEnd n hFirst)
  | @cons ch rest hNul hMark hSound ih =>
      rw [List.append_assoc] at hRest
      have hSplit :
          Utf8.split? c.rest = some (.char ch, rest ++ t) := by
        rw [hRest]
        exact Utf8.split?_utf8EncodeChar_append ch _
      have hWhole : Utf8.IsSound c.rest := by
        rw [hRest]
        exact Utf8.IsSound.cons hNul hMark (hSound.append ht)
      have hGlyphs := Bytes.glyphs_of_split?
        (Utf8.split?_utf8EncodeChar_append ch rest)
      rw [hGlyphs] at hAll
      have hCode : c.code? = some ch.toNat :=
        code?_of_split? hSplit
      rcases rest_next_of_isSound hWhole hSplit with
        ⟨hNext, hLater⟩
      rcases ih hNext (fun g hg => hAll g (by simp [hg])) with
        ⟨d, hSkip, hd⟩
      refine ⟨d, ?_, hd⟩
      have hHere : p ch.toNat = true :=
        hAll (.char ch) (List.mem_cons_self ..)
      rw [skipWhile_of_code? hCode hHere, hSkip,
        arrive_of_isSound (hNext ▸ hLater)]
      rfl

end Cursor

------------------------------------------------------------
-- Escapes and Strings
------------------------------------------------------------

namespace Literal

open Cursor

variable {c : Cursor} {s t : Bytes}

theorem lt_of_digitValue_lt
    {b : UInt8}
    {base : Nat}
    (hBase : base ≤ 16)
    (h : Quoted.digitValue b < base) :
    b < 0x80 := by
  rw [UInt8.lt_iff_toNat_lt]
  by_contra hHigh
  have hNone : Quoted.digitValue b = 16 := by
    simp only [UInt8.reduceToNat] at hHigh
    unfold Quoted.digitValue
    simp only [Bool.and_eq_true, decide_eq_true_eq]
    rw [if_neg (by omega), if_neg (by omega),
      if_neg (by omega)]
  omega

/- Digits that the decoder reads are read without a fault. -/
theorem digitsTail_of_digits?
    (start : Nat)
    {base limit count value n : Nat}
    (hBase : base ≤ 16)
    (hSound : Utf8.IsSound c.rest)
    (hDigits :
      Quoted.digits? base count value c.rest = some (n, s))
    (hLimit : n ≤ limit)
    (hSurrogate : ¬ (0xd800 ≤ n ∧ n < 0xe000)) :
    ∃ d,
      digitsTail start base limit count value c = (d, []) ∧
        d.rest = s ∧ Utf8.IsSound s := by
  induction count generalizing value c with
  | zero =>
      simp only [Quoted.digits?, Option.some.injEq,
        Prod.mk.injEq] at hDigits
      rcases hDigits with ⟨rfl, rfl⟩
      refine ⟨c, ?_, rfl, hSound⟩
      rw [digitsTail, if_neg]
      simp only [Bool.or_eq_true, Bool.and_eq_true,
        decide_eq_true_eq]
      omega
  | succ count ih =>
      cases hRest : c.rest with
      | nil => simp [hRest, Quoted.digits?] at hDigits
      | cons b rest =>
          simp only [hRest, Quoted.digits?] at hDigits
          split at hDigits
          · rename_i hDigit
            have hLow := lt_of_digitValue_lt hBase hDigit
            have hCode := Number.code?_of_head hRest hLow
            have hOf := digitValue_eq
              (UInt8.lt_iff_toNat_lt.mp hLow)
            rcases rest_next_of_head hSound hRest hLow with
              ⟨hNext, hLater⟩
            rw [← hNext] at hLater hDigits
            rcases ih hLater hDigits with
              ⟨d, hTail, hd⟩
            refine ⟨d, ?_, hd⟩
            simp only [digitsTail, hCode, ← hOf, if_pos hDigit,
              hTail, arrive_of_isSound hLater, List.nil_append]
          · cases hDigits

theorem isShortEscape_of_shortValue?
    {b letter : UInt8}
    (h : Quoted.shortValue? 0x22 letter = some b) :
    isShortEscape 0x22 letter.toNat = true := by
  by_cases hSelf : letter = 0x5c ∨ letter = 0x22
  · rcases hSelf with rfl | rfl
    · rfl
    · rfl
  · unfold Quoted.shortValue? at h
    rw [not_or] at hSelf
    simp only [hSelf.1, hSelf.2, decide_false, Bool.or_false,
      Bool.false_eq_true, if_false] at h
    repeat' split at h
    all_goals
      rename_i hLetter
      first
      | rw [hLetter]
        rfl
      | cases h

/- An escape of one byte. -/
theorem escapeTail_of_short
    {b letter : UInt8}
    (hSound : Utf8.IsSound c.rest)
    (hRest : c.rest = letter :: s)
    (hLow : letter < 0x80)
    (hValue : Quoted.shortValue? 0x22 letter = some b) :
    ∃ d, escapeTail 0x22 c = (d, []) ∧ d.rest = s := by
  rcases rest_next_of_head hSound hRest hLow with
    ⟨hNext, hLater⟩
  refine ⟨c.next, ?_, hNext⟩
  rw [← hNext] at hLater
  simp only [escapeTail, Number.code?_of_head hRest hLow,
    isShortEscape_of_shortValue? hValue, if_true,
    arrive_of_isSound hLater]

/- The letters before digits, with what the digits may be. -/
inductive IsDigitsEscape : UInt8 → Nat → Nat → Prop where
  | two : IsDigitsEscape 0x78 2 255
  | four : IsDigitsEscape 0x75 4 0x10ffff
  | eight : IsDigitsEscape 0x55 8 0x10ffff

/- An escape of digits that the decoder reads. -/
theorem escapeTail_of_digits?
    {letter : UInt8}
    {count limit n : Nat}
    (hSound : Utf8.IsSound c.rest)
    (hRest : c.rest = letter :: s)
    (hLetter : IsDigitsEscape letter count limit)
    (hDigits : Quoted.digits? 16 count 0 s = some (n, t))
    (hLimit : n ≤ limit)
    (hSurrogate : ¬ (0xd800 ≤ n ∧ n < 0xe000)) :
    ∃ d, escapeTail 0x22 c = (d, []) ∧ d.rest = t := by
  have hLow : letter < 0x80 := by
    cases hLetter <;> decide
  have hCode := Number.code?_of_head hRest hLow
  rcases rest_next_of_head hSound hRest hLow with
    ⟨hNext, hLater⟩
  rw [← hNext] at hLater hDigits
  rcases digitsTail_of_digits? c.offset
      (Nat.le_refl 16) hLater hDigits hLimit hSurrogate with
    ⟨d, hTail, hd, _⟩
  refine ⟨d, ?_, hd⟩
  have hArrive := arrive_of_isSound hLater
  cases hLetter with
  | two =>
      simp only [escapeTail, hCode, hTail, hArrive]
      rfl
  | four =>
      simp only [escapeTail, hCode, hTail, hArrive]
      rfl
  | eight =>
      simp only [escapeTail, hCode, hTail, hArrive]
      rfl

/- Behind an escape the string goes on. -/
theorem stringTail_of_escapeTail
    (start : Nat)
    {d : Cursor}
    (hSound : Utf8.IsSound c.rest)
    (hRest : c.rest = 0x5c :: s)
    (hEscape : escapeTail 0x22 c.next = (d, [])) :
    stringTail start c = stringTail start d := by
  have hCode := Number.code?_of_head hRest (by decide)
  rcases rest_next_of_head hSound hRest (by decide) with
    ⟨hNext, hLater⟩
  rw [← hNext] at hLater
  have hArrive := arrive_of_isSound hLater
  rw [stringTail]
  simp [rest_ne_nil_of_code? hCode, hCode, hEscape, hArrive]

/- Any other character is passed. -/
theorem stringTail_of_char
    (start : Nat)
    {ch : Char}
    (hSound : Utf8.IsSound c.rest)
    (hSplit : Utf8.split? c.rest = some (.char ch, s))
    (hQuote : ch.toNat ≠ 0x22)
    (hLine : ch.toNat ≠ 0x0a)
    (hSlash : ch.toNat ≠ 0x5c) :
    stringTail start c = stringTail start c.next := by
  have hCode : c.code? = some ch.toNat := code?_of_split? hSplit
  rcases rest_next_of_isSound hSound hSplit with
    ⟨hNext, hLater⟩
  rw [← hNext] at hLater
  have hArrive := arrive_of_isSound hLater
  rw [stringTail]
  simp [rest_ne_nil_of_code? hCode, hCode, hArrive, hQuote,
    hLine, hSlash]

/- What is written for a glyph is passed without a fault. -/
theorem stringTail_of_escape
    (start : Nat)
    {g : Glyph}
    (hs : Utf8.IsSound s)
    (hRest : c.rest = Quoted.escape 0x22 g ++ s) :
    ∃ d,
      d.rest = s ∧ stringTail start c = stringTail start d := by
  have hSound : Utf8.IsSound c.rest := by
    rw [hRest]
    exact (Quoted.isSound_escape g).append hs
  have hWritten := Quoted.escapesAs_escape g
  have hBehind (w : Bytes) (h : c.rest = 0x5c :: (w ++ s)) :
      c.next.rest = w ++ s ∧ Utf8.IsSound c.next.rest := by
    rcases rest_next_of_head hSound h (by decide) with
      ⟨hNext, hLater⟩
    exact ⟨hNext, hNext ▸ hLater⟩
  have hDigits {letter : UInt8} {count limit n : Nat}
      (hLetter : IsDigitsEscape letter count limit)
      (hWidth : n < 16 ^ count)
      (hLimit : n ≤ limit)
      (hSurrogate : ¬ (0xd800 ≤ n ∧ n < 0xe000))
      (h : c.rest = 0x5c :: letter :: Bytes.hex n count ++ s) :
      ∃ d,
        d.rest = s ∧
          stringTail start c = stringTail start d := by
    rcases hBehind (letter :: Bytes.hex n count) h with
      ⟨hNext, hLater⟩
    rcases escapeTail_of_digits? hLater hNext hLetter
        (Quoted.digits?_hex_of_lt hWidth s) hLimit hSurrogate
      with ⟨d, hEscape, hd⟩
    exact ⟨d, hd, stringTail_of_escapeTail start hSound h hEscape⟩
  generalize Quoted.escape 0x22 g = w at *
  cases hWritten with
  | @short b letter _ hValue _ hLow =>
      rcases hBehind [letter] hRest with ⟨hNext, hLater⟩
      rcases escapeTail_of_short hLater hNext hLow hValue with
        ⟨d, hEscape, hd⟩
      exact ⟨d, hd,
        stringTail_of_escapeTail start hSound hRest hEscape⟩
  | @plain ch _ hQuote hSlash hLine _ =>
      have hSplit := Utf8.split?_utf8EncodeChar_append ch s
      rw [← hRest] at hSplit
      exact ⟨c.next, (rest_next_of_isSound hSound hSplit).1,
        stringTail_of_char start hSound hSplit hQuote hLine hSlash⟩
  | @two b _ =>
      have hByte := UInt8.toNat_lt b
      exact hDigits IsDigitsEscape.two hByte (by omega)
        (by omega) hRest
  | @four ch _ hWidth =>
      have hBounds := Utf8.toNat_bounds ch
      exact hDigits IsDigitsEscape.four hWidth hBounds.1
        hBounds.2 hRest
  | @eight ch _ =>
      have hBounds := Utf8.toNat_bounds ch
      exact hDigits IsDigitsEscape.eight (by omega) hBounds.1
        hBounds.2 hRest

/- The inside of a quoted text is read up to its quote. -/
theorem stringTail_of_glyphs
    (start : Nat)
    {gs : List Glyph}
    (ht : Utf8.IsSound t)
    (hRest :
      c.rest =
        gs.flatMap (Quoted.escape 0x22) ++ 0x22 :: t) :
    ∃ d, stringTail start c = (d, []) ∧ d.rest = t := by
  have hQuoted : Utf8.IsSound (0x22 :: t) :=
    ht.ascii (by decide) (by decide)
  induction gs generalizing c with
  | nil =>
      have hCode := Number.code?_of_head hRest (by decide)
      have hSound : Utf8.IsSound c.rest := by
        rw [hRest]
        exact hQuoted
      rcases rest_next_of_head hSound hRest (by decide) with
        ⟨hNext, hLater⟩
      rw [← hNext] at hLater
      have hArrive := arrive_of_isSound hLater
      refine ⟨c.next, ?_, hNext⟩
      rw [stringTail]
      simp [rest_ne_nil_of_code? hCode, hCode, hArrive]
  | cons g gs ih =>
      have hRests := (Quoted.isSound_flatMap_escape gs).append
        hQuoted
      rw [List.flatMap_cons, List.append_assoc] at hRest
      rcases stringTail_of_escape start hRests hRest with
        ⟨d, hd, hTail⟩
      rw [hTail]
      exact ih hd

end Literal

------------------------------------------------------------
-- Lexemes
------------------------------------------------------------

namespace Scanner

open Cursor

variable {s t v w : Bytes} {b : UInt8} {kind : TokenKind}

/-
  Where `t` follows, `v` is read as one token without a
  fault.  What follows matters because a token is as long as
  it can be.
-/
structure IsLexeme
    (v t : Bytes)
    (kind : TokenKind)
    (text : Bytes) : Prop where
  sound : Utf8.IsSound v
  written : kind ≠ .comment ∧ kind ≠ .semicolon ∧ kind ≠ .eof
  reads :
    ∀ c : Cursor,
      c.rest = v ++ t →
        ∃ code d,
          c.code? = some code ∧
            isBlank false code = false ∧
            piece c code = ⟨kind, text, [], d⟩ ∧
            c.Passes v d

/- A name does not start with a blank. -/
private theorem isBlank_of_isNameStart
    {code : Nat}
    (h : isNameStart code = true) :
    isBlank false code = false := by
  by_contra hBlank
  simp only [isBlank, Bool.not_false, Bool.and_true,
    Bool.not_eq_false, Bool.or_eq_true, beq_iff_eq] at hBlank
  rcases hBlank with ((rfl | rfl) | rfl) | rfl
  all_goals
    revert h
    decide

/- A name before this text cannot go on into it. -/
def EndsName
    (t : Bytes) : Prop :=
  ∀ n, t.firstCode? = some n → isNamePart n = false

theorem EndsName.cons
    (hLow : b < 0x80)
    (hPart : isNamePart b.toNat = false) :
    EndsName (b :: t) := by
  intro n hFirst
  have hCode := Number.code?_of_head
    (c := Cursor.ofText (b :: t)) rfl hLow
  have hSame : some n = some b.toNat := hFirst.symm.trans hCode
  rw [Option.some.inj hSame]
  exact hPart

/- A name is read if it cannot go on. -/
theorem isLexeme_word
    {g : Glyph}
    {gs : List Glyph}
    (hv : Utf8.IsSound v)
    (ht : Utf8.IsSound t)
    (hKind : TokenKind.ofWord v = .ident)
    (hGlyphs : v.glyphs = g :: gs)
    (hStart : isNameStart g.code = true)
    (hParts : ∀ g' ∈ gs, isNamePart g'.code = true)
    (hEnd : EndsName t) :
    IsLexeme v t .ident v := by
  refine ⟨hv, by decide, ?_⟩
  intro c hRest
  have hAll : ∀ g' ∈ v.glyphs, isNamePart g'.code = true := by
    rw [hGlyphs]
    intro g' hMem
    rcases List.mem_cons.mp hMem with rfl | hLater
    · simp [isNamePart, hStart]
    · exact hParts g' hLater
  rcases skipWhile_of_glyphs hv ht hRest hAll hEnd with
    ⟨d, hSkip, hd⟩
  have hLeads := leadsTo_skipWhile isNamePart c
  rw [hSkip] at hLeads
  have hPasses := hLeads.passes hRest hd
  have hCode : c.code? = some g.code := by
    rcases hv.exists_split?_of_glyphs hGlyphs t with
      ⟨rest, hSplit⟩
    rw [← hRest] at hSplit
    exact code?_of_split? hSplit
  refine ⟨g.code, d, hCode, isBlank_of_isNameStart hStart, ?_,
    hPasses⟩
  unfold piece
  rw [if_pos hStart]
  simp only [word, hSkip, hPasses.between_eq, hKind]

/- The delimiters of argument lists. -/
inductive IsDelimiter : UInt8 → TokenKind → Prop where
  | opening : IsDelimiter 0x28 .leftParen
  | closing : IsDelimiter 0x29 .rightParen
  | comma : IsDelimiter 0x2c .comma
  | equals : IsDelimiter 0x3d .assign

/- A delimiter starts no longer operator but with an equals sign. -/
private theorem operator?_of_delimiter
    (h : IsDelimiter b kind)
    (hEnd : kind = .assign → t.head? ≠ some 0x3d) :
    operator? (b :: t) = some kind := by
  cases h with
  | opening => rfl
  | closing => rfl
  | comma => rfl
  | equals =>
      cases t with
      | nil => rfl
      | cons b' t =>
          have hNe : ¬ 0x3d = b' := by
            rintro rfl
            exact hEnd rfl rfl
          have hEqual :
              Bytes.startsWith (0x3d :: b' :: t)
                (utf8 TokenKind.equal.spelling) = false := by
            have hSpelling :
                utf8 TokenKind.equal.spelling = [0x3d, 0x3d] :=
              rfl
            simp [hSpelling, List.isPrefixOf_cons_cons, hNe]
          unfold operator? operators
          simp only [List.find?]
          rw [hEqual]
          rfl

theorem isLexeme_delimiter
    (ht : Utf8.IsSound t)
    (hDelimiter : IsDelimiter b kind)
    (hEnd : kind = .assign → t.head? ≠ some 0x3d) :
    IsLexeme [b] t kind [] := by
  have hAscii : 0 < b ∧ b < 0x80 := by
    cases hDelimiter <;> decide
  refine ⟨Utf8.IsSound.nil.ascii hAscii.1 hAscii.2, ?_, ?_⟩
  · cases hDelimiter <;> decide
  intro c hRest
  rw [List.singleton_append] at hRest
  have hCode := Number.code?_of_head hRest hAscii.2
  have hStart : isNameStart b.toNat = false := by
    cases hDelimiter <;> decide
  have hNumber : startsNumber c.rest = false := by
    rw [hRest]
    cases hDelimiter <;> cases t <;> rfl
  have hQuote :
      b.toNat ≠ 0x22 ∧ b.toNat ≠ 0x27 ∧ b.toNat ≠ 0x60 := by
    cases hDelimiter <;> decide
  have hComment : startsComment c.rest = false := by
    rw [hRest]
    cases hDelimiter <;> rfl
  have hOperator : operator? c.rest = some kind := by
    rw [hRest]
    exact operator?_of_delimiter hDelimiter hEnd
  have hLength : (utf8 kind.spelling).length = 1 := by
    cases hDelimiter <;> rfl
  have hText : kind ≠ .semicolon := by
    cases hDelimiter <;> decide
  have hSkip : (c.skip 1).rest = t := by
    simp [skip, hRest]
  have hArrive : (c.skip 1).arrive = [] := by
    apply arrive_of_isSound
    rw [hSkip]
    exact ht
  refine ⟨b.toNat, c.skip 1, hCode, ?_, ?_, ?_⟩
  · cases hDelimiter <;> decide
  · simp only [piece, hStart, hNumber, hQuote.1, hQuote.2.1,
      hQuote.2.2, hComment, hOperator, operator, hLength,
      hText, hArrive, Bool.false_eq_true, if_false]
  · exact (movesTo_skip_one
      (rest_ne_nil_of_code? hCode)).leadsTo.passes hRest hSkip

/- A quoted text is read whatever follows it. -/
theorem isLexeme_encode
    (ht : Utf8.IsSound t)
    (s : Bytes) :
    IsLexeme (Quoted.encode s) t .string (Quoted.encode s) := by
  refine ⟨Quoted.isSound_encode s, by decide, ?_⟩
  intro c hRest
  have hHead :
      c.rest =
        0x22 :: (s.glyphs.flatMap (Quoted.escape 0x22) ++
          0x22 :: t) := by
    rw [hRest, Quoted.encode]
    simp
  have hCode := Number.code?_of_head hHead (by decide)
  have hSkip : (c.skip 1).rest =
      s.glyphs.flatMap (Quoted.escape 0x22) ++ 0x22 :: t := by
    simp [skip, hHead]
  have hArrive : (c.skip 1).arrive = [] := by
    apply arrive_of_isSound
    rw [hSkip]
    exact (Quoted.isSound_flatMap_escape _).append
      (ht.ascii (by decide) (by decide))
  rcases Literal.stringTail_of_glyphs c.offset ht hSkip with
    ⟨d, hTail, hd⟩
  have hLeads :=
    (movesTo_skip_one (rest_ne_nil_of_code? hCode)).leadsTo.trans
      (Literal.leadsTo_stringTail c.offset (c.skip 1))
  rw [hTail] at hLeads
  have hPasses := hLeads.passes hRest hd
  refine ⟨0x22, d, hCode, rfl, ?_, hPasses⟩
  have hNumber : startsNumber c.rest = false := by
    rw [hHead]
    cases s.glyphs.flatMap (Quoted.escape 0x22) <;> rfl
  unfold piece
  rw [if_neg (by decide), hNumber]
  simp [string, hArrive, hTail, hPasses.between_eq]

------------------------------------------------------------
-- Texts of Lexemes
------------------------------------------------------------

/-
  Where `t` follows, the text at an offset is made of these
  tokens, with blanks before them.
-/
inductive Lexes (t : Bytes) :
    Nat → Bytes → List Token → Prop where
  | nil
      {n : Nat} :
      Lexes t n [] []
  | blank
      {n : Nat}
      {w : Bytes}
      {ts : List Token}
      (hRest : Lexes t (n + 1) w ts) :
      Lexes t n (0x20 :: w) ts
  | cons
      {n : Nat}
      {v w text : Bytes}
      {kind : TokenKind}
      {ts : List Token}
      (hFirst : IsLexeme v (w ++ t) kind text)
      (hRest : Lexes t (n + v.length) w ts) :
      Lexes t n (v ++ w) (⟨kind, n, text⟩ :: ts)

namespace Lexes

variable {n : Nat} {ts us : List Token}

theorem append
    (hFirst : Lexes (w ++ t) n v ts)
    (hRest : Lexes t (n + v.length) w us) :
    Lexes t n (v ++ w) (ts ++ us) := by
  induction hFirst with
  | nil => exact hRest
  | blank _ ih =>
      apply blank
      apply ih
      rw [List.length_cons] at hRest
      convert hRest using 1
      omega
  | cons hLexeme _ ih =>
      rw [List.append_assoc]
      apply cons
      · rw [List.append_assoc]
        exact hLexeme
      · apply ih
        rw [List.length_append, ← Nat.add_assoc] at hRest
        exact hRest

theorem isSound
    (h : Lexes t n w ts) :
    Utf8.IsSound w := by
  induction h with
  | nil => exact Utf8.IsSound.nil
  | blank _ ih => exact ih.ascii (by decide) (by decide)
  | cons hLexeme _ ih => exact hLexeme.sound.append ih

/- None of the tokens is passed over in argument lists. -/
theorem written_of_mem
    {tok : Token}
    (h : Lexes t n w ts)
    (hMem : tok ∈ ts) :
    tok.kind ≠ .comment ∧ tok.kind ≠ .semicolon ∧
      tok.kind ≠ .eof := by
  induction h with
  | nil => cases hMem
  | blank _ ih => exact ih hMem
  | cons hLexeme _ ih =>
      rcases List.mem_cons.mp hMem with rfl | hLater
      · exact hLexeme.written
      · exact ih hLater

end Lexes

/- What follows a state depends on its next step only. -/
theorem tokensFrom_of_step_eq
    {s s' : State}
    (h : step s = step s') :
    tokensFrom s = tokensFrom s' := by
  by_cases hEof : (step s).1.token.kind = .eof
  · have hEof' := hEof
    rw [h] at hEof'
    rw [tokensFrom_of_eof hEof, tokensFrom_of_eof hEof', h]
  · have hEof' := hEof
    rw [h] at hEof'
    rw [tokensFrom_of_not_eof hEof,
      tokensFrom_of_not_eof hEof', h]

/- A blank is passed over. -/
theorem step_of_blank
    {s : State}
    (hPending : s.pending = none)
    (hSound : Utf8.IsSound s.cursor.rest)
    (hRest : s.cursor.rest = 0x20 :: w) :
    step s = step { s with cursor := s.cursor.next } := by
  have hCode := Number.code?_of_head hRest (by decide)
  rcases rest_next_of_head hSound hRest (by decide) with
    ⟨hNext, hLater⟩
  rw [← hNext] at hLater
  have hBlank : isBlank s.implies 0x20 = true := rfl
  have hSkip :
      s.cursor.skipWhile (isBlank s.implies) =
        s.cursor.next.skipWhile (isBlank s.implies) := by
    rw [skipWhile_of_code? hCode hBlank,
      arrive_of_isSound hLater]
    rfl
  rw [step, step]
  simp only [hPending, hSkip]

/- A lexeme is read in one step. -/
theorem step_of_isLexeme
    {s : State}
    {text : Bytes}
    (h : IsLexeme v t kind text)
    (hPending : s.pending = none)
    (hRest : s.cursor.rest = v ++ t) :
    ∃ d,
      s.cursor.Passes v d ∧
        step s =
          ({ token := ⟨kind, s.cursor.offset, text⟩
             stop := d.offset
             faults := [] },
            ⟨d, if kind = .illegal then s.implies
              else kind.endsStatement, none⟩) := by
  rcases h.reads s.cursor hRest with
    ⟨code, d, hCode, hBlank, hPiece, hPasses⟩
  refine ⟨d, hPasses, ?_⟩
  have hNone : isBlank s.implies code = false := by
    cases s.implies with
    | false => exact hBlank
    | true => simp_all [isBlank]
  have hLine : code ≠ 0x0a := by
    rintro rfl
    cases hBlank
  have hBehind : s.behindBlanks = (s.cursor, []) :=
    skipWhile_of_not hCode hNone
  have hStep := step_of_piece hPending
    (by rw [hBehind]; exact hCode) hLine
  rw [hStep, hBehind]
  simp only [hPiece, afterPiece, h.written.1, if_false]
  rfl

/- A text of lexemes is read as its tokens. -/
theorem tokensFrom_of_lexes
    {s : State}
    {ts : List Token}
    (hLexes : Lexes t s.cursor.offset w ts)
    (ht : Utf8.IsSound t)
    (hPending : s.pending = none)
    (hRest : s.cursor.rest = w ++ t) :
    ∃ read s',
      tokensFrom s = read ++ tokensFrom s' ∧
        read.map Lexed.token = ts ∧
        (∀ u ∈ read, u.faults = []) ∧
        s'.pending = none ∧ s'.cursor.rest = t := by
  generalize hOffset : s.cursor.offset = n at hLexes
  induction hLexes generalizing s with
  | nil => exact ⟨[], s, rfl, rfl, by simp, hPending, hRest⟩
  | @blank n w ts hLater ih =>
      have hSound : Utf8.IsSound s.cursor.rest := by
        rw [hRest]
        exact (hLater.blank.isSound).append ht
      rcases rest_next_of_head hSound hRest (by decide) with
        ⟨hNext, _⟩
      have hPasses := (leadsTo_next s.cursor).passes
        (w := [0x20]) hRest hNext
      have hOffset' : s.cursor.next.offset = n + 1 := by
        rw [hPasses.offset, hOffset]
        rfl
      rw [tokensFrom_of_step_eq
        (step_of_blank hPending hSound hRest)]
      exact ih (s := { s with cursor := s.cursor.next })
        hPending hNext hOffset'
  | @cons n v w text kind ts hLexeme hLater ih =>
      rw [List.append_assoc] at hRest
      rcases step_of_isLexeme hLexeme hPending hRest with
        ⟨d, hPasses, hStep⟩
      have hd : d.rest = w ++ t :=
        List.append_cancel_left (hPasses.rest.symm.trans hRest)
      rcases ih (s := (step s).2) (by rw [hStep])
          (by rw [hStep]; exact hd)
          (by rw [hStep, ← hOffset]; exact hPasses.offset) with
        ⟨read, s', hTokens, hRead, hFaults, hEnd⟩
      refine ⟨(step s).1 :: read, s', ?_, ?_, ?_, hEnd⟩
      · rw [tokensFrom_of_not_eof, hTokens]
        · rfl
        · rw [hStep]
          exact hLexeme.written.2.2
      · rw [List.map_cons, hRead, hStep, hOffset]
      · intro u hu
        rcases List.mem_cons.mp hu with rfl | hLater
        · rw [hStep]
        · exact hFaults u hLater

end Scanner

end Namesake
