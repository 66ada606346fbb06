import Namesake.Proofs.Scanner.Stream
import Namesake.Proofs.Text.Quoted

/-
  The scanner and the decoder agree on string literals: a
  literal that the scanner reads without a fault has a value.

  Main declarations:
    * `Literal.inside?_of_stringTail`
    * `Literal.not_mem_of_rawTail`
    * `Scanner.passes_string`
    * `Scanner.passes_rawString`
    * `Scanner.decode?_isSome_of_mem_tokens`
-/

namespace Namesake

------------------------------------------------------------
-- Glyphs Behind the Beginning
------------------------------------------------------------

namespace Cursor

/- Only the very beginning can announce units of two bytes. -/
theorem isWide_eq_false
    {c : Cursor}
    (h : 0 < c.offset) :
    c.isWide = false := by
  have hNe : (c.offset == 0) = false := by
    simp only [beq_eq_false_iff_ne]
    omega
  simp [isWide, hNe]

theorem Passes.offset_pos
    {c d : Cursor}
    {w : Bytes}
    (h : c.Passes w d)
    (hPos : 0 < c.offset) :
    0 < d.offset := by
  rw [h.offset]
  omega

/- The glyph at a place with a code point. -/
theorem exists_split?_of_code?
    {c : Cursor}
    {n : Nat}
    (h : c.code? = some n) :
    ∃ g rest,
      Utf8.split? c.rest = some (g, rest) ∧ g.code = n := by
  unfold code? Bytes.firstCode? at h
  rcases Option.map_eq_some_iff.mp h with ⟨⟨g, rest⟩, hSplit, hg⟩
  exact ⟨g, rest, hSplit, hg⟩

/- An ASCII code point is passed as one byte. -/
theorem passes_next_ascii
    {c : Cursor}
    {n : Nat}
    (hPos : 0 < c.offset)
    (hCode : c.code? = some n)
    (hLow : n < 0x80) :
    ∃ b : UInt8, b.toNat = n ∧ c.Passes [b] c.next := by
  rcases exists_split?_of_code? hCode with
    ⟨g, rest, hSplit, hg⟩
  rcases Utf8.eq_cons_of_code_lt hSplit (by omega) with
    ⟨b, hb, hGlyph, hRest⟩
  have hPasses := passes_next hSplit (isWide_eq_false hPos)
  have hBytes : g.bytes = [b] := by
    have hAppend : [b] ++ rest = g.bytes ++ rest :=
      hRest.symm.trans (Utf8.eq_bytes_append_of_split? hSplit)
    exact (List.append_cancel_right hAppend).symm
  rw [hBytes] at hPasses
  exact ⟨b, by omega, hPasses⟩

/- A place without a fault has a character, not a stray byte. -/
theorem exists_char_of_arrive
    {c : Cursor}
    {g : Glyph}
    {rest : Bytes}
    (hSplit : Utf8.split? c.rest = some (g, rest))
    (hClean : c.arrive = []) :
    ∃ ch, g = .char ch := by
  cases g with
  | char ch => exact ⟨ch, rfl⟩
  | stray b =>
      simp only [arrive, hSplit] at hClean
      split at hClean <;> simp at hClean

end Cursor

------------------------------------------------------------
-- Escapes
------------------------------------------------------------

namespace Literal

open Cursor

/- A digit is an ASCII byte of the same value. -/
private theorem digitOf_lt
    {n base : Nat}
    (hBase : base ≤ 16)
    (h : digitOf n < base) :
    n < 0x80 := by
  by_cases hLow : n < 0x80
  · exact hLow
  · simp only [digitOf, if_neg hLow] at h
    omega

/- A byte and its code point are the same digit. -/
theorem digitValue_eq
    {b : UInt8}
    (h : b.toNat < 0x80) :
    Quoted.digitValue b = digitOf b.toNat := by
  simp [digitOf, h]

/-
  Digits that the scanner reads without a fault are read by
  the decoder, whatever follows them, and their value is in
  range.
-/
theorem digits?_of_digitsTail
    {start base limit count value : Nat}
    {c : Cursor}
    (hBase : base ≤ 16)
    (hPos : 0 < c.offset)
    (hArrive : c.arrive = [])
    (hClean :
      (digitsTail start base limit count value c).2 = []) :
    ∃ w n,
      c.Passes w
          (digitsTail start base limit count value c).1 ∧
        w.length = count ∧
        (digitsTail start base limit count value c).1.arrive =
          [] ∧
        (∀ t, Quoted.digits? base count value (w ++ t) =
          some (n, t)) ∧
        n ≤ limit ∧ ¬ (0xd800 ≤ n ∧ n < 0xe000) := by
  induction count generalizing value c with
  | zero =>
      simp only [digitsTail] at hClean ⊢
      split at hClean
      · simp at hClean
      · rename_i hRange
        rw [if_neg hRange]
        simp only [Bool.or_eq_true, Bool.and_eq_true,
          decide_eq_true_eq, not_or] at hRange
        refine ⟨[], value, Passes.refl c, rfl, hArrive, ?_,
          by omega, by omega⟩
        intro t
        rfl
  | succ count ih =>
      simp only [digitsTail] at hClean ⊢
      cases hCode : c.code? with
      | none => simp [hCode] at hClean
      | some n =>
          simp only [hCode] at hClean ⊢
          split at hClean
          · rename_i hDigit
            rw [if_pos hDigit]
            have hLow := digitOf_lt hBase hDigit
            rcases passes_next_ascii hPos hCode hLow with
              ⟨b, hb, hByte⟩
            have hEmpty := List.append_eq_nil_iff.mp hClean
            rcases ih (hByte.offset_pos hPos) hEmpty.1
                hEmpty.2 with
              ⟨w, m, hPasses, hLength, hEnd, hDigits, hRange⟩
            refine ⟨b :: w, m, hByte.trans hPasses,
              by simp [hLength], hEnd, ?_, hRange⟩
            intro t
            have hValue : Quoted.digitValue b = digitOf n := by
              rw [digitValue_eq (by omega), hb]
            simp only [List.cons_append, Quoted.digits?, hValue,
              if_pos hDigit]
            exact hDigits t
          · simp at hClean

/- What may follow a backslash alone has a value. -/
private theorem shortValue?_of_isShortEscape
    {b : UInt8}
    (h : isShortEscape 0x22 b.toNat = true) :
    ∃ v, Quoted.shortValue? 0x22 b = some v := by
  have hByte {n : UInt8} (hn : b.toNat = n.toNat) : b = n :=
    UInt8.toNat_inj.mp hn
  simp only [isShortEscape, List.contains_cons,
    List.contains_nil, Bool.or_eq_true, Bool.or_false,
    beq_iff_eq, or_assoc] at h
  rcases h with h | h | h | h | h | h | h | h | h
  · exact ⟨0x22, by rw [hByte (n := 0x22) h]; rfl⟩
  · exact ⟨0x5c, by rw [hByte (n := 0x5c) h]; rfl⟩
  · exact ⟨0x07, by rw [hByte (n := 0x61) h]; rfl⟩
  · exact ⟨0x08, by rw [hByte (n := 0x62) h]; rfl⟩
  · exact ⟨0x0c, by rw [hByte (n := 0x66) h]; rfl⟩
  · exact ⟨0x0a, by rw [hByte (n := 0x6e) h]; rfl⟩
  · exact ⟨0x0d, by rw [hByte (n := 0x72) h]; rfl⟩
  · exact ⟨0x09, by rw [hByte (n := 0x74) h]; rfl⟩
  · exact ⟨0x0b, by rw [hByte (n := 0x76) h]; rfl⟩

/- Short escapes are ASCII. -/
private theorem lt_of_isShortEscape
    {n : Nat}
    (h : isShortEscape 0x22 n = true) :
    n < 0x80 := by
  simp only [isShortEscape, List.contains_cons,
    List.contains_nil, Bool.or_eq_true, Bool.or_false,
    beq_iff_eq, UInt8.reduceToNat] at h
  omega

/- Digits behind a letter are read as after any other byte. -/
private theorem digits?_behind_letter
    (letter : UInt8)
    {c : Cursor}
    {start limit count : Nat}
    (hPos : 0 < c.offset)
    (hCode : c.code? = some letter.toNat)
    (hLow : letter.toNat < 0x80)
    (hClean :
      c.next.arrive ++
        (digitsTail start 16 limit count 0 c.next).2 = []) :
    ∃ w n,
      c.Passes (letter :: w)
          (digitsTail start 16 limit count 0 c.next).1 ∧
        (digitsTail start 16 limit count 0 c.next).1.arrive =
          [] ∧
        (∀ t, Quoted.digits? 16 count 0 (w ++ t) =
          some (n, t)) ∧
        n ≤ limit ∧ ¬ (0xd800 ≤ n ∧ n < 0xe000) := by
  have hEmpty := List.append_eq_nil_iff.mp hClean
  rcases passes_next_ascii hPos hCode hLow with
    ⟨b, hb, hByte⟩
  have hLetter : b = letter := UInt8.toNat_inj.mp hb
  rw [hLetter] at hByte
  rcases digits?_of_digitsTail (Nat.le_refl 16)
      (hByte.offset_pos hPos) hEmpty.1 hEmpty.2 with
    ⟨w, n, hPasses, _, hEnd, hDigits, hRange⟩
  exact ⟨w, n, hByte.trans hPasses, hEnd, hDigits, hRange⟩

/- An octal digit opens no other escape than an octal one. -/
private theorem escape?_octal
    {b : UInt8}
    {s : Bytes}
    (hLow : 0x30 ≤ b.toNat)
    (hHigh : b.toNat ≤ 0x37) :
    Quoted.escape? 0x22 (b :: s) =
      Quoted.byteEscape? 8 3 (b :: s) := by
  have hNe (m : UInt8)
      (hm : m.toNat < 0x30 ∨ 0x37 < m.toNat) : b ≠ m := by
    rintro rfl
    omega
  have hShort : Quoted.shortValue? 0x22 b = none := by
    unfold Quoted.shortValue?
    rw [if_neg (hNe 0x61 (by decide)),
      if_neg (hNe 0x62 (by decide)),
      if_neg (hNe 0x66 (by decide)),
      if_neg (hNe 0x6e (by decide)),
      if_neg (hNe 0x72 (by decide)),
      if_neg (hNe 0x74 (by decide)),
      if_neg (hNe 0x76 (by decide))]
    simp [hNe 0x5c (by decide), hNe 0x22 (by decide)]
  simp only [Quoted.escape?, hShort]
  rw [if_neg (hNe 0x78 (by decide)),
    if_neg (hNe 0x75 (by decide)),
    if_neg (hNe 0x55 (by decide))]

/- Three octal digits without a fault have a value. -/
private theorem escape?_of_octal_digitsTail
    {c : Cursor}
    {n start : Nat}
    (hPos : 0 < c.offset)
    (hArrive : c.arrive = [])
    (hCode : c.code? = some n)
    (hLow : 0x30 ≤ n)
    (hHigh : n ≤ 0x37)
    (hClean : (digitsTail start 8 255 3 0 c).2 = []) :
    ∃ w value,
      c.Passes w (digitsTail start 8 255 3 0 c).1 ∧
        (digitsTail start 8 255 3 0 c).1.arrive = [] ∧
        ∀ t, Quoted.escape? 0x22 (w ++ t) =
          some (value, t) := by
  rcases digits?_of_digitsTail (by decide) hPos hArrive
      hClean with
    ⟨w, m, hPasses, hLength, hEnd, hDigits, hRange, _⟩
  rcases passes_next_ascii hPos hCode (by omega) with
    ⟨b, hb, hByte⟩
  -- the first digit read is the byte at the cursor
  cases w with
  | nil => simp at hLength
  | cons b' w =>
      have hHead : b' = b := by
        have hRest := hPasses.rest.symm.trans hByte.rest
        exact (List.cons.inj hRest).1
      subst hHead
      refine ⟨b' :: w, [m.toUInt8], hPasses, hEnd, ?_⟩
      intro t
      rw [List.cons_append,
        escape?_octal (by omega) (by omega)]
      exact Quoted.byteEscape?_of_digits? (hDigits t) hRange

/-
  An escape that the scanner reads without a fault has a
  value, whatever follows it.
-/
theorem escape?_of_escapeTail
    {c : Cursor}
    (hPos : 0 < c.offset)
    (hArrive : c.arrive = [])
    (hClean : (escapeTail 0x22 c).2 = []) :
    ∃ w value,
      c.Passes w (escapeTail 0x22 c).1 ∧
        (escapeTail 0x22 c).1.arrive = [] ∧
        ∀ t, Quoted.escape? 0x22 (w ++ t) =
          some (value, t) := by
  unfold escapeTail at hClean ⊢
  cases hCode : c.code? with
  | none => simp [hCode] at hClean
  | some n =>
      simp only [hCode] at hClean ⊢
      by_cases hShort : isShortEscape 0x22 n = true
      · simp only [hShort, if_true] at hClean ⊢
        rcases passes_next_ascii hPos hCode
            (lt_of_isShortEscape hShort) with
          ⟨b, rfl, hByte⟩
        rcases shortValue?_of_isShortEscape hShort with
          ⟨v, hv⟩
        refine ⟨[b], [v], hByte, hClean, ?_⟩
        intro t
        simp only [List.cons_append, List.nil_append,
          Quoted.escape?, hv]
      · simp only [hShort, Bool.false_eq_true, if_false]
          at hClean ⊢
        split at hClean
        · rename_i hOctal
          rw [if_pos hOctal]
          simp only [Bool.and_eq_true, decide_eq_true_eq]
            at hOctal
          exact escape?_of_octal_digitsTail hPos hArrive hCode
            hOctal.1 hOctal.2 hClean
        · rename_i hOctal
          rw [if_neg hOctal]
          split at hClean
          · rename_i hLetter
            subst hLetter
            rw [if_pos rfl]
            rcases digits?_behind_letter 0x78 hPos hCode
                (by decide) hClean with
              ⟨w, m, hPasses, hEnd, hDigits, hRange, _⟩
            refine ⟨0x78 :: w, [m.toUInt8], hPasses, hEnd, ?_⟩
            intro t
            exact Quoted.byteEscape?_of_digits? (hDigits t) hRange
          · rename_i hByte
            rw [if_neg hByte]
            split at hClean
            · rename_i hLetter
              subst hLetter
              rw [if_pos rfl]
              rcases digits?_behind_letter 0x75 hPos hCode
                  (by decide) hClean with
                ⟨w, m, hPasses, hEnd, hDigits, hRange, hPair⟩
              refine ⟨0x75 :: w, Utf8.encode m, hPasses, hEnd, ?_⟩
              intro t
              exact Quoted.charEscape?_of_digits? (hDigits t) hRange hPair
            · rename_i hShortChar
              rw [if_neg hShortChar]
              split at hClean
              · rename_i hLetter
                subst hLetter
                rw [if_pos rfl]
                rcases digits?_behind_letter 0x55 hPos hCode
                    (by decide) hClean with
                  ⟨w, m, hPasses, hEnd, hDigits, hRange, hPair⟩
                refine
                  ⟨0x55 :: w, Utf8.encode m, hPasses, hEnd, ?_⟩
                intro t
                exact
                  Quoted.charEscape?_of_digits? (hDigits t) hRange hPair
              · simp at hClean

------------------------------------------------------------
-- Strings
------------------------------------------------------------

/-
  What the scanner reads without a fault up to a closing
  quote has a value.
-/
theorem inside?_of_stringTail
    {start : Nat}
    {c : Cursor}
    (hPos : 0 < c.offset)
    (hArrive : c.arrive = [])
    (hClean : (stringTail start c).2 = []) :
    ∃ w,
      c.Passes w (stringTail start c).1 ∧
        (Quoted.inside? 0x22 w).isSome = true := by
  fun_induction stringTail start c with
  | case1 | case2 | case3 => simp at hClean
  | case4 c hRest hCode =>
      rcases passes_next_ascii hPos hCode (by decide) with
        ⟨b, hb, hByte⟩
      have hEq : b = 0x22 := UInt8.toNat_inj.mp hb
      rw [hEq] at hByte
      refine ⟨[0x22], hByte, ?_⟩
      rw [Quoted.inside?_quote]
      rfl
  | case5 c _ _ _ hCode _ _ ih =>
      rcases List.append_eq_nil_iff.mp hClean with
        ⟨hHead, hTail⟩
      rcases List.append_eq_nil_iff.mp hHead with
        ⟨hNext, hEscape⟩
      rcases passes_next_ascii hPos hCode (by decide) with
        ⟨b, hb, hByte⟩
      have hEq : b = 0x5c := UInt8.toNat_inj.mp hb
      rw [hEq] at hByte
      have hNextPos := hByte.offset_pos hPos
      rcases escape?_of_escapeTail hNextPos hNext hEscape with
        ⟨v, value, hPasses, hEnd, hValue⟩
      rcases ih (hPasses.offset_pos hNextPos) hEnd hTail with
        ⟨w, hRest, hInside⟩
      refine ⟨[0x5c] ++ v ++ w,
        (hByte.trans hPasses).trans hRest, ?_⟩
      change (Quoted.inside? 0x22 (0x5c :: (v ++ w))).isSome = _
      rw [Quoted.inside?_escape (hValue w), Option.isSome_map]
      exact hInside
  | case6 c _ n hCode hLine hQuote hSlash _ ih =>
      rcases List.append_eq_nil_iff.mp hClean with
        ⟨hNext, hTail⟩
      rcases exists_split?_of_code? hCode with
        ⟨g, rest, hSplit, hg⟩
      rcases exists_char_of_arrive hSplit hArrive with
        ⟨ch, rfl⟩
      have hGlyph := passes_next hSplit (isWide_eq_false hPos)
      rcases ih (hGlyph.offset_pos hPos) hNext hTail with
        ⟨w, hRest, hInside⟩
      refine ⟨String.utf8EncodeChar ch ++ w,
        hGlyph.trans hRest, ?_⟩
      have hCh : ch.toNat = n := hg
      rw [Quoted.inside?_char
          (Utf8.split?_utf8EncodeChar_append ch w)
          (by omega) (by omega) (by omega),
        Option.isSome_map]
      exact hInside

/-
  What the scanner reads up to a closing back quote holds no
  other back quote.
-/
theorem not_mem_of_rawTail
    {start : Nat}
    {c : Cursor}
    (hPos : 0 < c.offset)
    (hClean : (rawTail start c).2 = []) :
    ∃ w,
      c.Passes (w ++ [0x60]) (rawTail start c).1 ∧
        0x60 ∉ w := by
  fun_induction rawTail start c with
  | case1 => simp at hClean
  | case2 c _ hCode =>
      rcases passes_next_ascii hPos hCode (by decide) with
        ⟨b, hb, hByte⟩
      have hEq : b = 0x60 := UInt8.toNat_inj.mp hb
      rw [hEq] at hByte
      exact ⟨[], hByte, by simp⟩
  | case3 c hRest hCode _ ih =>
      rcases List.append_eq_nil_iff.mp hClean with ⟨_, hTail⟩
      cases hSplit : Utf8.split? c.rest with
      | none => exact absurd hSplit (split?_ne_none hRest)
      | some r =>
          rcases r with ⟨g, rest⟩
          have hGlyph := passes_next hSplit (isWide_eq_false hPos)
          rcases ih (hGlyph.offset_pos hPos) hTail with
            ⟨w, hPasses, hNone⟩
          refine ⟨g.bytes ++ w, ?_, ?_⟩
          · rw [List.append_assoc]
            exact hGlyph.trans hPasses
          · intro hMem
            rcases List.mem_append.mp hMem with hHead | hLater
            · apply hCode
              have hSame := Utf8.code_eq_of_mem_bytes hSplit
                hHead (by decide)
              simp [code?, Bytes.firstCode?, hSplit, hSame]
            · exact hNone hLater

end Literal

------------------------------------------------------------
-- String Tokens
------------------------------------------------------------

namespace Scanner

open Cursor

/- The opening quote is passed by skipping one byte. -/
private theorem passes_skip_quote
    {c : Cursor}
    (b : UInt8)
    (hCode : c.code? = some b.toNat)
    (hLow : b.toNat < 0x80) :
    c.Passes [b] (c.skip 1) := by
  rcases exists_split?_of_code? hCode with
    ⟨g, rest, hSplit, hg⟩
  rcases Utf8.eq_cons_of_code_lt hSplit (by omega) with
    ⟨b', hb, _, hRest⟩
  have hEq : b' = b := UInt8.toNat_inj.mp (hb.trans hg)
  subst hEq
  have hPasses := passes_skip (c := c) (n := 1) (by simp [hRest])
  simpa [hRest] using hPasses

/-
  A string literal is what stands between its quotes, and
  without a fault it has a value.
-/
theorem passes_string
    {c : Cursor}
    (hCode : c.code? = some 0x22)
    (hClean : (string c).faults = []) :
    ∃ w,
      c.Passes (0x22 :: w) (string c).cursor ∧
        (string c).text = 0x22 :: w ∧
        (Quoted.inside? 0x22 w).isSome = true := by
  have hQuote := passes_skip_quote 0x22 hCode (by decide)
  have hPos : 0 < (c.skip 1).offset := by
    rw [hQuote.offset]
    exact Nat.succ_pos _
  rcases List.append_eq_nil_iff.mp hClean with
    ⟨hArrive, hTail⟩
  rcases Literal.inside?_of_stringTail hPos hArrive hTail with
    ⟨w, hPasses, hInside⟩
  have hBoth := hQuote.trans hPasses
  exact ⟨w, hBoth, hBoth.between_eq, hInside⟩

theorem decode?_string
    {c : Cursor}
    (hCode : c.code? = some 0x22)
    (hClean : (string c).faults = []) :
    (Quoted.decode? (string c).text).isSome = true := by
  rcases passes_string hCode hClean with
    ⟨w, _, hText, hInside⟩
  rw [hText]
  exact hInside

/-
  A raw string literal without a fault is what stands between
  its quotes, of which its text has all but the returns.
-/
theorem passes_rawString
    {c : Cursor}
    (hCode : c.code? = some 0x60)
    (hClean : (rawString c).faults = []) :
    ∃ w,
      c.Passes (0x60 :: (w ++ [0x60])) (rawString c).cursor ∧
        (rawString c).text =
          0x60 :: (Literal.withoutReturns w ++ [0x60]) ∧
        0x60 ∉ w := by
  have hQuote := passes_skip_quote 0x60 hCode (by decide)
  have hPos : 0 < (c.skip 1).offset := by
    rw [hQuote.offset]
    exact Nat.succ_pos _
  rcases List.append_eq_nil_iff.mp hClean with ⟨_, hTail⟩
  rcases Literal.not_mem_of_rawTail hPos hTail with
    ⟨w, hPasses, hNone⟩
  have hBoth := hQuote.trans hPasses
  refine ⟨w, hBoth, ?_, hNone⟩
  have hBetween := hBoth.between_eq
  unfold rawString
  simp only
  rw [hBetween]
  simp [Literal.withoutReturns]

/- The value of a raw literal is what its text has between quotes. -/
theorem decode?_back_quoted
    {s : Bytes}
    (hNone : 0x60 ∉ s) :
    Quoted.decode? (0x60 :: (s ++ [0x60])) =
      some (Literal.withoutReturns s) := by
  simp [Quoted.decode?, hNone, Literal.withoutReturns]

theorem decode?_rawString
    {c : Cursor}
    (hCode : c.code? = some 0x60)
    (hClean : (rawString c).faults = []) :
    (Quoted.decode? (rawString c).text).isSome = true := by
  rcases passes_rawString hCode hClean with
    ⟨w, _, hText, hNone⟩
  have hBody : 0x60 ∉ Literal.withoutReturns w := by
    simp [Literal.withoutReturns, hNone]
  rw [hText, decode?_back_quoted hBody]
  rfl

/- A word is no string literal. -/
private theorem ofWord_ne_string
    (s : Bytes) :
    TokenKind.ofWord s ≠ .string := by
  unfold TokenKind.ofWord
  cases hFind :
      TokenKind.keywords.find? fun k =>
        utf8 k.spelling == s with
  | none => simp
  | some kind =>
      have hMem := List.mem_of_find?_eq_some hFind
      have hAll : ∀ k ∈ TokenKind.keywords, k ≠ .string := by
        decide
      exact hAll kind hMem

/- A number is no string literal. -/
private theorem scan_ne_string
    (c : Cursor) :
    (Number.scan c).1 ≠ .string := by
  unfold Number.scan
  simp only
  split
  · simp
  · split <;> simp

/- Only quotes and back quotes start string literals. -/
theorem piece_of_string
    {c : Cursor}
    {code : Nat}
    (hKind : (piece c code).kind = .string) :
    (code = 0x22 ∧ piece c code = string c) ∨
      (code = 0x60 ∧ piece c code = rawString c) := by
  unfold piece at hKind ⊢
  split at hKind
  · exact absurd hKind (ofWord_ne_string _)
  · rename_i hWord
    rw [if_neg hWord]
    split at hKind
    · exact absurd hKind (scan_ne_string c)
    · rename_i hNumber
      rw [if_neg hNumber]
      split at hKind
      · rename_i hQuote
        exact Or.inl ⟨hQuote, if_pos hQuote⟩
      · rename_i hQuote
        rw [if_neg hQuote]
        split at hKind
        · simp [character] at hKind
        · rename_i hChar
          rw [if_neg hChar]
          split at hKind
          · rename_i hRaw
            exact Or.inr ⟨hRaw, if_pos hRaw⟩
          · split at hKind
            · simp [comment] at hKind
            · split at hKind
              · rename_i kind hOperator
                have hMem := List.mem_of_find?_eq_some hOperator
                have hAll : ∀ k ∈ operators, k ≠ .string := by
                  decide
                exact absurd hKind (hAll kind hMem)
              · simp [stray] at hKind

/- A string token without a fault has a value. -/
theorem decode?_piece
    {c : Cursor}
    {code : Nat}
    (hCode : c.code? = some code)
    (hKind : (piece c code).kind = .string)
    (hClean : (piece c code).faults = []) :
    (Quoted.decode? (piece c code).text).isSome = true := by
  rcases piece_of_string hKind with
    ⟨rfl, hPiece⟩ | ⟨rfl, hPiece⟩
  · rw [hPiece] at hClean ⊢
    exact decode?_string hCode hClean
  · rw [hPiece] at hClean ⊢
    exact decode?_rawString hCode hClean

/- A step that reads a string without a fault has its value. -/
theorem decode?_step
    {s : State}
    (hKind : (step s).1.token.kind = .string)
    (hClean : (step s).1.faults = []) :
    (Quoted.decode? (step s).1.token.text).isSome = true := by
  unfold step at hKind hClean ⊢
  cases hPending : s.pending with
  | some n => simp [hPending, implied] at hKind
  | none =>
      simp only [hPending] at hKind hClean ⊢
      generalize s.cursor.skipWhile (isBlank s.implies) = r at *
      cases hCode : r.1.code? with
      | none =>
          simp only [hCode] at hKind
          split at hKind <;> simp [implied] at hKind
      | some code =>
          simp only [hCode] at hKind hClean ⊢
          split at hKind
          · simp [implied] at hKind
          · rename_i hLine
            rw [if_neg hLine] at hClean ⊢
            unfold afterPiece at hKind hClean ⊢
            split at hKind
            · simp only at hKind
              split at hKind
              · split at hKind <;> simp at hKind
              · simp at hKind
            · rename_i hComment
              rw [if_neg hComment] at hClean ⊢
              exact decode?_piece hCode hKind
                (List.append_eq_nil_iff.mp hClean).2

/- Every string token without a fault has a value. -/
theorem decode?_isSome_of_mem_tokens
    {src : Bytes}
    {t : Lexed}
    (hMem : t ∈ tokens src)
    (hKind : t.token.kind = .string)
    (hClean : t.faults = []) :
    (Quoted.decode? t.token.text).isSome = true := by
  rcases exists_step_of_mem_tokens hMem with
    ⟨s, faults, hToken, hFaults⟩
  rw [hToken] at hKind ⊢
  rw [hFaults] at hClean
  exact decode?_step hKind (List.append_eq_nil_iff.mp hClean).2

end Scanner

end Namesake
