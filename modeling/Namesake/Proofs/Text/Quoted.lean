import Mathlib.Algebra.Group.Nat.Defs
import Namesake.Proofs.Text.Utf8
import Namesake.Text.Quoted

/-
  Quoting a text and reading the literal give the text back,
  whatever its bytes are.  The literal itself is sound even
  where the text is not: NUL, byte order marks and stray
  bytes are all written as escapes.

  Main declarations:
    * `Quoted.digits?_hex`
    * `Quoted.inside?_escape_append`
    * `Quoted.decode?_encode`
    * `Quoted.isSound_encode`
-/

namespace Namesake

namespace Quoted

------------------------------------------------------------
-- Steps of the Decoder
------------------------------------------------------------

/- The closing quote ends the text. -/
theorem inside?_quote : inside? 0x22 [0x22] = some [] := by
  rw [inside?]
  rfl

/- An escape stands for its value. -/
theorem inside?_escape
    {s rest value : Bytes}
    (h : escape? 0x22 s = some (value, rest)) :
    inside? 0x22 (0x5c :: s) =
      (inside? 0x22 rest).map fun t => value ++ t := by
  have hSplit :
      Utf8.split? (0x5c :: s) = some (.char '\\', s) := rfl
  rw [inside?]
  split
  · rename_i hNone
    rw [hSplit] at hNone
    simp at hNone
  · rename_i g s' hSome
    rw [hSplit] at hSome
    simp only [Option.some.injEq, Prod.mk.injEq] at hSome
    rcases hSome with ⟨rfl, rfl⟩
    rw [if_neg (by decide), if_neg (by decide), if_pos rfl]
    split
    · rename_i hNone
      rw [h] at hNone
      simp at hNone
    · rename_i hEscape
      rw [h] at hEscape
      simp only [Option.some.injEq, Prod.mk.injEq] at hEscape
      rw [hEscape.1, hEscape.2]

/- Any other character stands for itself. -/
theorem inside?_char
    {s rest : Bytes}
    {ch : Char}
    (hSplit : Utf8.split? s = some (.char ch, rest))
    (hQuote : ch.toNat ≠ 0x22)
    (hLine : ch.toNat ≠ 0x0a)
    (hSlash : ch.toNat ≠ 0x5c) :
    inside? 0x22 s =
      (inside? 0x22 rest).map fun t =>
        Utf8.encode ch.toNat ++ t := by
  have hNe (d : Char) (h : ch.toNat ≠ d.toNat) :
      Glyph.char ch ≠ Glyph.char d := by
    intro hEq
    exact h (congrArg Char.toNat (Glyph.char.inj hEq))
  rw [inside?]
  split
  · rename_i hNone
    rw [hSplit] at hNone
    simp at hNone
  · rename_i g s' hSome
    rw [hSplit] at hSome
    simp only [Option.some.injEq, Prod.mk.injEq] at hSome
    rcases hSome with ⟨rfl, rfl⟩
    rw [if_neg (hNe (Char.ofNat (UInt8.toNat 0x22)) hQuote),
      if_neg (hNe '\n' hLine),
      if_neg (hNe '\\' hSlash)]
    rfl

/- Digits within a byte are a byte escape. -/
theorem byteEscape?_of_digits?
    {base count n : Nat}
    {s t : Bytes}
    (hDigits : digits? base count 0 s = some (n, t))
    (hRange : n ≤ 255) :
    byteEscape? base count s =
      some ([n.toUInt8], t) := by
  have hAccepts : decide (n < 256) = true :=
    decide_eq_true (by omega)
  simp only [byteEscape?, digitEscape?, hDigits, hAccepts,
    if_true]

/- Digits of a character are a character escape. -/
theorem charEscape?_of_digits?
    {count n : Nat}
    {s t : Bytes}
    (hDigits : digits? 16 count 0 s = some (n, t))
    (hRange : n ≤ 0x10ffff)
    (hSurrogate : ¬ (0xd800 ≤ n ∧ n < 0xe000)) :
    charEscape? count s =
      some (Utf8.encode n, t) := by
  have hAccepts : isCharacter n = true := by
    simp only [isCharacter, Bool.or_eq_true,
      Bool.and_eq_true, decide_eq_true_eq]
    omega
  simp only [charEscape?, digitEscape?, hDigits, hAccepts,
    if_true]

------------------------------------------------------------
-- Hexadecimal Digits
------------------------------------------------------------

/- Digits can be read in two goes. -/
theorem digits?_add
    (base j k value : Nat)
    (s : Bytes) :
    digits? base (j + k) value s =
      (digits? base j value s).bind fun r =>
        digits? base k r.1 r.2 := by
  induction j generalizing value s with
  | zero => simp [digits?]
  | succ j ih =>
      rw [Nat.succ_add]
      cases s with
      | nil => rfl
      | cons b s =>
          simp only [digits?]
          split
          · exact ih _ s
          · rfl

theorem digitValue_hexDigit
    {n : Nat}
    (h : n < 16) :
    digitValue (Bytes.hexDigit n) = n := by
  have hAll :
      ∀ n < 16, digitValue (Bytes.hexDigit n) = n := by
    decide
  exact hAll n h

/- The low digits of a number are read as what they stand for. -/
theorem digits?_hex
    (n width value : Nat)
    (s : Bytes) :
    digits? 16 width value (Bytes.hex n width ++ s) =
      some (value * 16 ^ width + n % 16 ^ width, s) := by
  induction width generalizing n s with
  | zero => simp [digits?, Bytes.hex, Nat.mod_one]
  | succ width ih =>
      have hDigit : n % 16 < 16 := Nat.mod_lt n (by decide)
      have hValue :
          (value * 16 ^ width + n / 16 % 16 ^ width) * 16 +
              n % 16 =
            value * 16 ^ (width + 1) + n % 16 ^ (width + 1) := by
        rw [Nat.pow_succ', Nat.mod_mul,
          Nat.mul_left_comm value 16]
        omega
      rw [digits?_add, Bytes.hex, List.append_assoc, ih,
        Option.bind_some]
      simp only [List.cons_append, List.nil_append, digits?,
        digitValue_hexDigit hDigit, if_pos hDigit, hValue]

/- All digits of a number are read as the number. -/
theorem digits?_hex_of_lt
    {n width : Nat}
    (h : n < 16 ^ width)
    (s : Bytes) :
    digits? 16 width 0 (Bytes.hex n width ++ s) =
      some (n, s) := by
  rw [digits?_hex, Nat.zero_mul, Nat.zero_add,
    Nat.mod_eq_of_lt h]

------------------------------------------------------------
-- Ways to Escape
------------------------------------------------------------

/-
  The ways in which a glyph is written: as a backslash with
  one byte, as it is, or by its digits.
-/
inductive EscapesAs (g : Glyph) : Bytes → Prop where
  | short
      {b letter : UInt8}
      (hBytes : g.bytes = [b])
      (hValue : shortValue? 0x22 letter = some b)
      (hPos : 0 < letter)
      (hLow : letter < 0x80) :
      EscapesAs g [0x5c, letter]
  | plain
      {c : Char}
      (hChar : g = .char c)
      (hQuote : c.toNat ≠ 0x22)
      (hSlash : c.toNat ≠ 0x5c)
      (hLine : c.toNat ≠ 0x0a)
      (hPrintable : isPrintable c.toNat = true) :
      EscapesAs g (String.utf8EncodeChar c)
  | two
      {b : UInt8}
      (hBytes : g.bytes = [b]) :
      EscapesAs g (0x5c :: 0x78 :: Bytes.hex b.toNat 2)
  | four
      {c : Char}
      (hChar : g = .char c)
      (hWidth : c.toNat < 0x10000) :
      EscapesAs g (0x5c :: 0x75 :: Bytes.hex c.toNat 4)
  | eight
      {c : Char}
      (hChar : g = .char c) :
      EscapesAs g (0x5c :: 0x55 :: Bytes.hex c.toNat 8)

theorem encode_toNat
    (c : Char) :
    Utf8.encode c.toNat = String.utf8EncodeChar c := by
  rw [Utf8.encode, Char.ofNat_toNat]

/- An ASCII character is the byte of its code point. -/
theorem bytes_of_lt
    {c : Char}
    (h : c.toNat < 0x80) :
    (Glyph.char c).bytes = [c.toNat.toUInt8] := by
  rw [Glyph.bytes, ← encode_toNat]
  exact Utf8.encode_one h

/- A letter behind the backslash stands for its byte. -/
private theorem shortValue?_of_shortEscape?
    {n : Nat}
    {letter : Char}
    (h : shortEscape? n = some letter) :
    n < 0x80 ∧ 0 < ascii letter ∧ ascii letter < 0x80 ∧
      shortValue? 0x22 (ascii letter) = some n.toUInt8 := by
  unfold shortEscape? at h
  split at h
  all_goals
    cases h
  all_goals
    decide

theorem escapesAs_escape
    (g : Glyph) :
    EscapesAs g (escape 0x22 g) := by
  cases g with
  | stray b => exact EscapesAs.two rfl
  | char c =>
      simp only [escape, escapeCode]
      split
      · rename_i hSelf
        simp only [Bool.or_eq_true, decide_eq_true_eq,
          UInt8.reduceToNat] at hSelf
        have hByte := bytes_of_lt (c := c) (by omega)
        rcases hSelf with hQuote | hSlash
        · rw [hQuote] at hByte ⊢
          exact EscapesAs.short hByte rfl (by decide)
            (by decide)
        · rw [hSlash] at hByte ⊢
          exact EscapesAs.short hByte rfl (by decide)
            (by decide)
      rename_i hSelf
      simp only [Bool.or_eq_true, decide_eq_true_eq,
        UInt8.reduceToNat, not_or] at hSelf
      split
      · rename_i hPrintable
        have hLine : c.toNat ≠ 0x0a := by
          intro hLine
          rw [hLine] at hPrintable
          revert hPrintable
          decide
        rw [encode_toNat]
        exact EscapesAs.plain rfl hSelf.1 hSelf.2 hLine
          hPrintable
      split
      · rename_i letter hLetter
        rcases shortValue?_of_shortEscape? hLetter with
          ⟨hLow, hPos, hAscii, hValue⟩
        exact EscapesAs.short (bytes_of_lt hLow) hValue hPos
          hAscii
      split
      · rename_i hControl
        simp only [Bool.or_eq_true, decide_eq_true_eq]
          at hControl
        have hByte := bytes_of_lt (c := c) (by omega)
        have hNat : c.toNat.toUInt8.toNat = c.toNat := by
          rw [Nat.toUInt8, UInt8.toNat_ofNat']
          omega
        have hTwo := EscapesAs.two hByte
        rw [hNat] at hTwo
        exact hTwo
      split
      · rename_i hWidth
        exact EscapesAs.four rfl hWidth
      · exact EscapesAs.eight rfl

------------------------------------------------------------
-- Reading Back
------------------------------------------------------------

private theorem escape?_four
    (s : Bytes) :
    escape? 0x22 (0x75 :: s) = charEscape? 4 s :=
  rfl

private theorem escape?_eight
    (s : Bytes) :
    escape? 0x22 (0x55 :: s) = charEscape? 8 s :=
  rfl

/- The digits of a byte. -/
private theorem escape?_two
    (b : UInt8)
    (s : Bytes) :
    escape? 0x22 (0x78 :: (Bytes.hex b.toNat 2 ++ s)) =
      some ([b], s) := by
  have hLow : b.toNat < 16 ^ 2 := UInt8.toNat_lt b
  have hByte : b.toNat.toUInt8 = b := UInt8.ofNat_toNat
  have hRead := byteEscape?_of_digits?
    (digits?_hex_of_lt hLow s) (by omega)
  rw [hByte] at hRead
  exact hRead

/- The digits of a character, as many as there are. -/
private theorem charEscape?_hex
    (width : Nat)
    {c : Char}
    (h : c.toNat < 16 ^ width)
    (s : Bytes) :
    charEscape? width (Bytes.hex c.toNat width ++ s) =
      some (String.utf8EncodeChar c, s) := by
  have hBounds := Utf8.toNat_bounds c
  rw [← encode_toNat]
  exact charEscape?_of_digits? (digits?_hex_of_lt h s)
    hBounds.1 hBounds.2

/- What was written for a glyph is read as the bytes of the glyph. -/
theorem inside?_escape_append
    (g : Glyph)
    (s : Bytes) :
    inside? 0x22 (escape 0x22 g ++ s) =
      (inside? 0x22 s).map fun t => g.bytes ++ t := by
  have hWritten := escapesAs_escape g
  generalize escape 0x22 g = w at *
  cases hWritten with
  | @short b letter hBytes hValue _ _ =>
      have hRead : escape? 0x22 (letter :: s) = some ([b], s) := by
        simp only [escape?, hValue]
      rw [hBytes]
      exact inside?_escape hRead
  | @plain c hChar hQuote hSlash hLine _ =>
      rw [inside?_char (Utf8.split?_utf8EncodeChar_append c s)
        hQuote hLine hSlash, encode_toNat, hChar, Glyph.bytes]
  | @two b hBytes =>
      rw [hBytes]
      exact inside?_escape (escape?_two b s)
  | @four c hChar hWidth =>
      have hRead := charEscape?_hex 4 hWidth s
      rw [← escape?_four] at hRead
      rw [hChar]
      exact inside?_escape hRead
  | @eight c hChar =>
      have hBounds := Utf8.toNat_bounds c
      have hWidth : c.toNat < 16 ^ 8 := by omega
      have hRead := charEscape?_hex 8 hWidth s
      rw [← escape?_eight] at hRead
      rw [hChar]
      exact inside?_escape hRead

/- Reading a quoted text gives the text back. -/
theorem decode?_encode
    (s : Bytes) :
    decode? (encode s) = some s := by
  have hInside (gs : List Glyph) :
      inside? 0x22 (gs.flatMap (escape 0x22) ++ [0x22]) =
        some (gs.flatMap Glyph.bytes) := by
    induction gs with
    | nil => exact inside?_quote
    | cons g gs ih =>
        rw [List.flatMap_cons, List.append_assoc,
          inside?_escape_append, ih, List.flatMap_cons,
          Option.map_some]
  have hGlyphs := hInside s.glyphs
  rw [Bytes.flatMap_bytes_glyphs] at hGlyphs
  exact hGlyphs

------------------------------------------------------------
-- Soundness
------------------------------------------------------------

/- Digits are ASCII. -/
theorem isSound_hex
    (n width : Nat) :
    Utf8.IsSound (Bytes.hex n width) := by
  have hAll :
      ∀ n < 16,
        0 < Bytes.hexDigit n ∧ Bytes.hexDigit n < 0x80 := by
    decide
  induction width generalizing n with
  | zero => exact Utf8.IsSound.nil
  | succ width ih =>
      have hDigit := hAll (n % 16) (Nat.mod_lt n (by decide))
      exact (ih (n / 16)).append
        (Utf8.IsSound.nil.ascii hDigit.1 hDigit.2)

/- Whatever is written for a glyph is sound. -/
theorem isSound_escape
    (g : Glyph) :
    Utf8.IsSound (escape 0x22 g) := by
  have hDigits (letter : UInt8) (n width : Nat)
      (hPos : 0 < letter) (hLow : letter < 0x80) :
      Utf8.IsSound (0x5c :: letter :: Bytes.hex n width) :=
    ((isSound_hex n width).ascii hPos hLow).ascii
      (by decide) (by decide)
  have hWritten := escapesAs_escape g
  generalize escape 0x22 g = w at *
  cases hWritten with
  | short _ _ hPos hLow =>
      exact (Utf8.IsSound.nil.ascii hPos hLow).ascii
        (by decide) (by decide)
  | @plain c _ _ _ _ hPrintable =>
      have hNe (n : Nat) (hn : isPrintable n = false) :
          c.toNat ≠ n := by
        rintro rfl
        rw [hPrintable] at hn
        cases hn
      have hNul := hNe 0 (by decide)
      have hMark := hNe 0xfeff (by decide +kernel)
      have hSound :=
        Utf8.IsSound.cons hNul hMark Utf8.IsSound.nil
      rw [List.append_nil] at hSound
      exact hSound
  | two => exact hDigits _ _ _ (by decide) (by decide)
  | four => exact hDigits _ _ _ (by decide) (by decide)
  | eight => exact hDigits _ _ _ (by decide) (by decide)

theorem isSound_flatMap_escape
    (gs : List Glyph) :
    Utf8.IsSound (gs.flatMap (escape 0x22)) := by
  induction gs with
  | nil => exact Utf8.IsSound.nil
  | cons g gs ih =>
      rw [List.flatMap_cons]
      exact (isSound_escape g).append ih

theorem isSound_encode
    (s : Bytes) :
    Utf8.IsSound (encode s) := by
  have hQuote : Utf8.IsSound [0x22] :=
    Utf8.IsSound.nil.ascii (by decide) (by decide)
  exact (hQuote.append (isSound_flatMap_escape _)).append hQuote

end Quoted

end Namesake
