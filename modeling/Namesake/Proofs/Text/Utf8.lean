import Mathlib.Algebra.GroupWithZero.Nat
import Mathlib.Data.List.Basic
import Namesake.Text.Utf8

/-
  Splitting a text into glyphs loses nothing, and a
  character is split off in the same way whatever follows
  it.

  Main declarations:
    * `Utf8.Form` and `Utf8.Fits`
    * `Utf8.splitsAs_of_split?`
    * `Utf8.eq_bytes_append_of_split?`
    * `Utf8.split?_utf8EncodeChar_append`
    * `Utf8.split?_append_ascii`
    * `Utf8.IsSound`
    * `Bytes.flatMap_bytes_glyphs`
    * `Utf8.IsSound.glyphs_append`
-/

namespace Namesake

namespace Utf8

------------------------------------------------------------
-- Continuation Bytes
------------------------------------------------------------

/- The code point of a character made from a valid number. -/
theorem val_charOf
    {n : Nat}
    (hValid : n.isValidChar) :
    (charOf n).val.toNat = n := by
  unfold charOf Char.ofNat
  rw [dif_pos hValid]
  rfl

/- Code points of characters are bounded and no surrogates. -/
theorem toNat_bounds
    (c : Char) :
    c.toNat ≤ 0x10ffff ∧
      ¬ (0xd800 ≤ c.toNat ∧ c.toNat < 0xe000) := by
  have hValid : c.toNat.isValidChar := c.valid
  unfold Nat.isValidChar at hValid
  omega

/- The last `count` continuation bytes of a code point. -/
def continuation
    (n : Nat) : (count : Nat) → Bytes
  | 0 => []
  | count + 1 =>
      UInt8.ofNat (n / 64 ^ count % 64 + 0x80) ::
        continuation n count

theorem isTail_iff
    {b : UInt8} :
    isTail b = true ↔ 0x80 ≤ b.toNat ∧ b.toNat < 0xc0 := by
  simp only [isTail, Bool.and_eq_true, decide_eq_true_eq,
    UInt8.le_iff_toNat_le, UInt8.reduceToNat]
  omega

/- What is made of payload bits is a continuation byte for them. -/
theorem toNat_continuation
    (m : Nat) :
    (UInt8.ofNat (m % 64 + 0x80)).toNat = m % 64 + 0x80 := by
  rw [UInt8.toNat_ofNat',
    Nat.mod_eq_of_lt (show m % 64 + 0x80 < 2 ^ 8 by omega)]

theorem length_continuation
    (n count : Nat) :
    (continuation n count).length = count := by
  induction count with
  | zero => rfl
  | succ count ih => rw [continuation, List.length_cons, ih]

theorem isTail_of_mem_continuation
    {n count : Nat}
    {b : UInt8}
    (h : b ∈ continuation n count) :
    isTail b = true := by
  induction count with
  | zero => cases h
  | succ count ih =>
      rcases List.mem_cons.mp h with rfl | hMem
      · rw [isTail_iff, toNat_continuation]
        omega
      · exact ih hMem

/- A code point is what its first bits and the others add up to. -/
theorem value_continuation
    (n count : Nat) :
    value (n / 64 ^ count) (continuation n count) = n := by
  induction count with
  | zero => simp [value, continuation]
  | succ count ih =>
      have hBits (m : Nat) : m / 64 * 64 + m % 64 = m := by
        omega
      have hPayload (m : Nat) :
          payload (UInt8.ofNat (m % 64 + 0x80)) = m % 64 := by
        rw [payload, toNat_continuation]
        omega
      rw [continuation, value, List.foldl_cons, hPayload,
        Nat.pow_succ, ← Nat.div_div_eq_div_mul, hBits]
      exact ih

/- Continuation bytes are those of the code point they add up to. -/
theorem continuation_value
    (bits : Nat)
    {tails : Bytes}
    (hTails : ∀ b ∈ tails, isTail b = true) :
    value bits tails / 64 ^ tails.length = bits ∧
      continuation (value bits tails) tails.length = tails := by
  induction tails generalizing bits with
  | nil => simp [value, continuation]
  | cons b tails ih =>
      rcases List.forall_mem_cons.mp hTails with ⟨hTail, hRest⟩
      rcases ih (bits * 64 + payload b) hRest with
        ⟨hBits, hSame⟩
      have hByte := isTail_iff.mp hTail
      have hPayload : payload b = b.toNat % 64 := rfl
      have hValue :
          value bits (b :: tails) =
            value (bits * 64 + payload b) tails :=
        rfl
      rw [hValue, List.length_cons]
      constructor
      · rw [Nat.pow_succ, ← Nat.div_div_eq_div_mul, hBits]
        omega
      · have hFirst :
            (bits * 64 + payload b) % 64 + 0x80 = b.toNat := by
          omega
        rw [continuation, hBits, hSame, hFirst,
          UInt8.ofNat_toNat]

------------------------------------------------------------
-- Forms of Characters
------------------------------------------------------------

/-
  The forms of longer characters: how many continuation bytes
  they have, their first byte without payload bits, and their
  code points, from the first one to the one behind the last.
-/
inductive Form : (count mark low high : Nat) → Prop where
  | two : Form 1 0xc0 0x80 0x800
  | three : Form 2 0xe0 0x800 0x10000
  | four : Form 3 0xf0 0x10000 0x110000

/- A first byte and continuation bytes with a code point of a form. -/
structure Fits
    (count mark low high : Nat)
    (b : UInt8)
    (tails : Bytes) : Prop where
  length : tails.length = count
  tail : ∀ x ∈ tails, isTail x = true
  first : mark ≤ b.toNat
  least : low ≤ value (b.toNat - mark) tails
  below : value (b.toNat - mark) tails < high
  valid : (value (b.toNat - mark) tails).isValidChar

/- The code points below 128 are one byte. -/
theorem encode_one
    {n : Nat}
    (hn : n < 0x80) :
    String.utf8EncodeChar (charOf n) = [UInt8.ofNat n] := by
  have hVal : (charOf n).val.toNat = n :=
    val_charOf (Or.inl (by omega))
  simp only [String.utf8EncodeChar, hVal]
  rw [if_pos (by omega)]

/- The others are the bits that their continuation bytes leave. -/
theorem encode_of_form
    {count mark low high n : Nat}
    (hForm : Form count mark low high)
    (hLow : low ≤ n)
    (hHigh : n < high)
    (hValid : n.isValidChar) :
    String.utf8EncodeChar (charOf n) =
      UInt8.ofNat (n / 64 ^ count + mark) ::
        continuation n count := by
  have hVal := val_charOf hValid
  simp only [String.utf8EncodeChar, hVal]
  cases hForm with
  | two =>
      rw [if_neg (by omega), if_pos (by omega),
        Nat.mod_eq_of_lt (by omega)]
      simp [continuation]
  | three =>
      rw [if_neg (by omega), if_neg (by omega),
        if_pos (by omega), Nat.mod_eq_of_lt (by omega)]
      simp [continuation]
  | four =>
      rw [if_neg (by omega), if_neg (by omega),
        if_neg (by omega), Nat.mod_eq_of_lt (by omega)]
      simp [continuation]

/- The first byte of a code point has its mark and its first bits. -/
theorem toNat_first
    {count mark low high n : Nat}
    (hForm : Form count mark low high)
    (hHigh : n < high) :
    (UInt8.ofNat (n / 64 ^ count + mark)).toNat =
      n / 64 ^ count + mark := by
  rw [UInt8.toNat_ofNat']
  cases hForm with
  | _ => exact Nat.mod_eq_of_lt (by omega)

/- Bytes that fit a form encode their code point. -/
theorem Fits.encode
    {count mark low high : Nat}
    {b : UInt8}
    {tails : Bytes}
    (hForm : Form count mark low high)
    (h : Fits count mark low high b tails) :
    String.utf8EncodeChar
        (charOf (value (b.toNat - mark) tails)) =
      b :: tails := by
  rcases continuation_value (b.toNat - mark) h.tail with
    ⟨hBits, hTails⟩
  rw [h.length] at hBits hTails
  rw [encode_of_form hForm h.least h.below h.valid, hBits, hTails,
    Nat.sub_add_cancel h.first, UInt8.ofNat_toNat]

/- A code point of a form is encoded in bytes that fit it. -/
theorem fits_of_form
    {count mark low high n : Nat}
    (hForm : Form count mark low high)
    (hLow : low ≤ n)
    (hHigh : n < high)
    (hValid : n.isValidChar) :
    Fits count mark low high
        (UInt8.ofNat (n / 64 ^ count + mark))
        (continuation n count) ∧
      value
          ((UInt8.ofNat (n / 64 ^ count + mark)).toNat - mark)
          (continuation n count) =
        n := by
  have hValue :
      value
          ((UInt8.ofNat (n / 64 ^ count + mark)).toNat - mark)
          (continuation n count) =
        n := by
    rw [toNat_first hForm hHigh, Nat.add_sub_cancel,
      value_continuation]
  refine ⟨⟨length_continuation n count,
    fun x => isTail_of_mem_continuation, ?_, ?_, ?_, ?_⟩, hValue⟩
  · rw [toNat_first hForm hHigh]
    exact Nat.le_add_left _ _
  · rw [hValue]
    exact hLow
  · rw [hValue]
    exact hHigh
  · rw [hValue]
    exact hValid

theorem fits_iff
    {count mark low high : Nat}
    {b : UInt8}
    {tails : Bytes} :
    Fits count mark low high b tails ↔
      tails.length = count ∧
        (∀ x ∈ tails, isTail x = true) ∧
        mark ≤ b.toNat ∧
        low ≤ value (b.toNat - mark) tails ∧
        value (b.toNat - mark) tails < high ∧
        (value (b.toNat - mark) tails).isValidChar :=
  ⟨fun h => ⟨h.length, h.tail, h.first, h.least, h.below, h.valid⟩,
    fun ⟨hCount, hTails, hMark, hLow, hHigh, hValid⟩ =>
      ⟨hCount, hTails, hMark, hLow, hHigh, hValid⟩⟩

theorem isTwo_iff
    {b b₁ : UInt8} :
    isTwo b b₁ = true ↔ Fits 1 0xc0 0x80 0x800 b [b₁] := by
  simp only [isTwo, fits_iff, value, payload, isTail_iff,
    Nat.isValidChar, List.length_cons, List.length_nil,
    List.forall_mem_cons, List.foldl_cons, List.foldl_nil,
    List.not_mem_nil, false_imp_iff, implies_true,
    Bool.and_eq_true, decide_eq_true_eq,
    UInt8.le_iff_toNat_le, UInt8.reduceToNat, and_true, true_and]
  omega

theorem isThree_iff
    {b b₁ b₂ : UInt8} :
    isThree b b₁ b₂ = true ↔
      Fits 2 0xe0 0x800 0x10000 b [b₁, b₂] := by
  simp only [isThree, fits_iff, value, payload, isTail_iff,
    Nat.isValidChar, List.length_cons, List.length_nil,
    List.forall_mem_cons, List.foldl_cons, List.foldl_nil,
    List.not_mem_nil, false_imp_iff, implies_true,
    Bool.and_eq_true, Bool.or_eq_true,
    beq_iff_eq, decide_eq_true_eq, UInt8.le_iff_toNat_le,
    ← UInt8.toNat_inj, UInt8.reduceToNat, and_true, true_and]
  omega

theorem isFour_iff
    {b b₁ b₂ b₃ : UInt8} :
    isFour b b₁ b₂ b₃ = true ↔
      Fits 3 0xf0 0x10000 0x110000 b [b₁, b₂, b₃] := by
  simp only [isFour, fits_iff, value, payload, isTail_iff,
    Nat.isValidChar, List.length_cons, List.length_nil,
    List.forall_mem_cons, List.foldl_cons, List.foldl_nil,
    List.not_mem_nil, false_imp_iff, implies_true,
    Bool.and_eq_true, Bool.or_eq_true,
    beq_iff_eq, decide_eq_true_eq, UInt8.le_iff_toNat_le,
    ← UInt8.toNat_inj, UInt8.reduceToNat, and_true, true_and]
  omega

/- The bytes of a longer character are not among the first 128. -/
theorem Fits.not_lt
    {count mark low high : Nat}
    {b : UInt8}
    {tails : Bytes}
    (hForm : Form count mark low high)
    (h : Fits count mark low high b tails) :
    ∀ x ∈ b :: tails, ¬ x < 0x80 := by
  simp only [UInt8.lt_iff_toNat_lt, UInt8.reduceToNat]
  have hFirst := h.first
  refine List.forall_mem_cons.mpr ⟨?_, ?_⟩
  · cases hForm <;> omega
  · intro x hMem
    have hTail := isTail_iff.mp (h.tail x hMem)
    omega

theorem not_isTwo
    {b b₁ : UInt8}
    (h : 0xe0 ≤ b.toNat) :
    ¬ isTwo b b₁ = true := by
  simp only [isTwo, Bool.and_eq_true, decide_eq_true_eq,
    UInt8.le_iff_toNat_le, UInt8.reduceToNat]
  omega

theorem not_isThree
    {b b₁ b₂ : UInt8}
    (h : 0xf0 ≤ b.toNat) :
    ¬ isThree b b₁ b₂ = true := by
  simp only [isThree, Bool.and_eq_true, Bool.or_eq_true,
    beq_iff_eq, decide_eq_true_eq, UInt8.le_iff_toNat_le,
    ← UInt8.toNat_inj, UInt8.reduceToNat]
  omega

/- Bytes that fit a form are split off, whatever follows them. -/
theorem Fits.split?_append
    {count mark low high : Nat}
    {b : UInt8}
    {tails : Bytes}
    (hForm : Form count mark low high)
    (h : Fits count mark low high b tails)
    (t : Bytes) :
    split? (b :: (tails ++ t)) =
      some
        (.char (charOf (value (b.toNat - mark) tails)), t) := by
  have hHigh : ¬ b < 0x80 := h.not_lt hForm b List.mem_cons_self
  have hFirst := h.first
  -- the tests for shorter forms fail by the first byte
  cases hForm with
  | two =>
      rcases List.length_eq_one_iff.mp h.length with ⟨b₁, rfl⟩
      simp only [List.cons_append, List.nil_append, split?,
        if_neg hHigh, if_pos (isTwo_iff.mpr h)]
  | three =>
      rcases List.length_eq_two.mp h.length with ⟨b₁, b₂, rfl⟩
      have hTwo : ¬ isTwo b b₁ = true := not_isTwo hFirst
      simp only [List.cons_append, List.nil_append, split?,
        if_neg hHigh, if_neg hTwo, if_pos (isThree_iff.mpr h)]
  | four =>
      rcases List.length_eq_three.mp h.length with
        ⟨b₁, b₂, b₃, rfl⟩
      have hTwo : ¬ isTwo b b₁ = true := not_isTwo (by omega)
      have hThree : ¬ isThree b b₁ b₂ = true :=
        not_isThree hFirst
      simp only [List.cons_append, List.nil_append, split?,
        if_neg hHigh, if_neg hTwo, if_neg hThree,
        if_pos (isFour_iff.mpr h)]

/- A code point from 128 on has a form. -/
theorem exists_form
    {n : Nat}
    (hLow : 0x80 ≤ n)
    (hHigh : n < 0x110000) :
    ∃ count mark low high,
      Form count mark low high ∧ low ≤ n ∧ n < high := by
  by_cases hTwo : n < 0x800
  · exact ⟨_, _, _, _, Form.two, hLow, hTwo⟩
  · by_cases hThree : n < 0x10000
    · exact ⟨_, _, _, _, Form.three, by omega, hThree⟩
    · exact ⟨_, _, _, _, Form.four, by omega, hHigh⟩

/- A character is split off whatever follows it. -/
theorem split?_utf8EncodeChar_append
    (c : Char)
    (t : Bytes) :
    split? (String.utf8EncodeChar c ++ t) =
      some (.char c, t) := by
  have hChar : charOf c.toNat = c := Char.ofNat_toNat c
  have hValid : c.toNat.isValidChar := c.valid
  have hTop := (toNat_bounds c).1
  rw [← hChar]
  generalize c.toNat = n at *
  by_cases hOne : n < 0x80
  · have hNat : (UInt8.ofNat n).toNat = n := by
      rw [UInt8.toNat_ofNat', Nat.mod_eq_of_lt (by omega)]
    have hLow : UInt8.ofNat n < 0x80 := by
      rw [UInt8.lt_iff_toNat_lt, hNat]
      exact hOne
    rw [encode_one hOne]
    simp only [List.cons_append, List.nil_append, split?,
      if_pos hLow, hNat]
  · rcases exists_form (by omega) (Nat.lt_succ_of_le hTop) with
      ⟨count, mark, low, high, hForm, hLow, hHigh⟩
    rcases fits_of_form hForm hLow hHigh hValid with
      ⟨hFits, hValue⟩
    have hSplit := hFits.split?_append hForm t
    rw [hValue] at hSplit
    rw [encode_of_form hForm hLow hHigh hValid, List.cons_append]
    exact hSplit

------------------------------------------------------------
-- Ways to Split
------------------------------------------------------------

/-
  The ways in which the first glyph comes off a text: an
  ASCII byte, a longer character, which is recognized from
  its own bytes alone, or a stray byte.
-/
inductive SplitsAs : Bytes → Glyph → Bytes → Prop where
  | ascii
      {b : UInt8}
      {rest : Bytes}
      (hLow : b < 0x80) :
      SplitsAs (b :: rest) (.char (charOf b.toNat)) rest
  | multi
      {c : Char}
      {rest : Bytes}
      (hCode : 0x80 ≤ c.toNat)
      (hHigh : ∀ b ∈ String.utf8EncodeChar c, ¬ b < 0x80)
      (hAlone :
        ∀ t, split? (String.utf8EncodeChar c ++ t) =
          some (.char c, t)) :
      SplitsAs (String.utf8EncodeChar c ++ rest) (.char c) rest
  | stray
      {b : UInt8}
      {rest : Bytes}
      (hHigh : ¬ b < 0x80) :
      SplitsAs (b :: rest) (.stray b) rest

/- Bytes that fit a form are a longer character. -/
theorem Fits.splitsAs
    {count mark low high : Nat}
    {b : UInt8}
    {tails : Bytes}
    (hForm : Form count mark low high)
    (h : Fits count mark low high b tails)
    (rest : Bytes) :
    SplitsAs (b :: (tails ++ rest))
      (.char (charOf (value (b.toNat - mark) tails))) rest := by
  have hBytes := h.encode hForm
  have hLeast := h.least
  have hVal := val_charOf h.valid
  have hCode :
      0x80 ≤
        (charOf (value (b.toNat - mark) tails)).toNat := by
    rw [Char.toNat, hVal]
    cases hForm <;> omega
  have hMulti :
      SplitsAs
        (String.utf8EncodeChar
            (charOf (value (b.toNat - mark) tails)) ++ rest)
        (.char (charOf (value (b.toNat - mark) tails))) rest := by
    refine SplitsAs.multi hCode ?_
      (split?_utf8EncodeChar_append _)
    rw [hBytes]
    exact h.not_lt hForm
  rw [hBytes] at hMulti
  exact hMulti

/- Every split is one of the three. -/
theorem splitsAs_of_split?
    {s : Bytes}
    {g : Glyph}
    {rest : Bytes}
    (h : split? s = some (g, rest)) :
    SplitsAs s g rest := by
  unfold split? at h
  repeat' split at h
  all_goals
    simp only [Option.some.injEq, Prod.mk.injEq, reduceCtorEq] at h
  all_goals
    obtain ⟨rfl, rfl⟩ := h
  · rename_i hLow
    exact SplitsAs.ascii hLow
  · rename_i hTwo
    exact (isTwo_iff.mp hTwo).splitsAs Form.two _
  · rename_i hThree
    exact (isThree_iff.mp hThree).splitsAs Form.three _
  · rename_i hFour
    exact (isFour_iff.mp hFour).splitsAs Form.four _
  all_goals
    apply SplitsAs.stray
    assumption

/- Splitting loses nothing. -/
theorem eq_bytes_append_of_split?
    {s : Bytes}
    {g : Glyph}
    {rest : Bytes}
    (h : split? s = some (g, rest)) :
    s = g.bytes ++ rest := by
  cases splitsAs_of_split? h with
  | ascii hLow =>
      rename_i b
      have hNat : b.toNat < 0x80 := UInt8.lt_iff_toNat_lt.mp hLow
      simp [Glyph.bytes, encode_one hNat]
  | multi => rfl
  | stray => rfl

/- A code point below 128 is a byte of its own. -/
theorem eq_cons_of_code_lt
    {s rest : Bytes}
    {g : Glyph}
    (h : split? s = some (g, rest))
    (hCode : g.code < 0x80) :
    ∃ b : UInt8,
      b.toNat = g.code ∧
        g = .char (charOf b.toNat) ∧
        s = b :: rest := by
  cases splitsAs_of_split? h with
  | ascii hLow =>
      rename_i b
      have hNat : b.toNat < 0x80 := UInt8.lt_iff_toNat_lt.mp hLow
      have hVal := val_charOf (n := b.toNat) (Or.inl (by omega))
      exact ⟨b, hVal.symm, rfl, rfl⟩
  | multi hHigh => exact absurd hHigh (Nat.not_le.mpr hCode)
  | stray => simp [Glyph.code] at hCode

/- An ASCII byte occurs only as the glyph that it is. -/
theorem code_eq_of_mem_bytes
    {s rest : Bytes}
    {g : Glyph}
    {b : UInt8}
    (h : split? s = some (g, rest))
    (hMem : b ∈ g.bytes)
    (hLow : b < 0x80) :
    g.code = b.toNat := by
  cases splitsAs_of_split? h with
  | ascii hByte =>
      rename_i b'
      have hNat : b'.toNat < 0x80 :=
        UInt8.lt_iff_toNat_lt.mp hByte
      have hVal := val_charOf (n := b'.toNat) (Or.inl (by omega))
      have hEq : b = b' := by
        simpa [Glyph.bytes, encode_one hNat] using hMem
      rw [hEq]
      exact hVal
  | multi _ hHigh => exact absurd hLow (hHigh b hMem)
  | stray hHigh =>
      rename_i b'
      have hEq : b = b' := by simpa [Glyph.bytes] using hMem
      exact absurd (hEq ▸ hLow) hHigh

/- An ASCII byte is no part of a glyph that starts before it. -/
theorem split?_append_ascii
    {s : Bytes}
    {b : UInt8}
    (h : s ≠ [])
    (hLow : b < 0x80)
    (q : Bytes) :
    split? (s ++ b :: q) =
      (split? s).map fun r => (r.1, r.2 ++ b :: q) := by
  have hBelow (n : UInt8) (hn : (0x80 : UInt8) ≤ n) :
      n ≤ b ↔ False := by
    rw [iff_false, UInt8.not_le]
    exact UInt8.lt_of_lt_of_le hLow hn
  have hTail : isTail b = false := by
    simp [isTail, hBelow 0x80 (by decide)]
  have hTwo (x : UInt8) : isTwo x b = false := by
    simp [isTwo, hTail]
  have hThree (x y : UInt8) :
      isThree x b y = false ∧ isThree x y b = false := by
    simp [isThree, hTail, hBelow 0xa0 (by decide),
      hBelow 0x80 (by decide)]
  have hFour (x y z : UInt8) :
      isFour x b y z = false ∧ isFour x y b z = false ∧
        isFour x y z b = false := by
    simp [isFour, hTail, hBelow 0x90 (by decide),
      hBelow 0x80 (by decide)]
  rcases s with _ | ⟨b₀, _ | ⟨b₁, _ | ⟨b₂, _ | ⟨b₃, s⟩⟩⟩⟩
  · exact absurd rfl h
  all_goals
    rcases q with _ | ⟨c, _ | ⟨d, q⟩⟩
  all_goals
    simp only [List.cons_append, List.nil_append, split?, hTwo,
      hThree, hFour, Bool.false_eq_true, if_false,
      apply_ite (Option.map _), Option.map_some]

------------------------------------------------------------
-- Sound Texts
------------------------------------------------------------

/-
  A text of characters other than NUL and the byte order
  mark, with no stray byte.
-/
inductive IsSound : Bytes → Prop where
  | nil : IsSound []
  | cons
      {c : Char}
      {rest : Bytes}
      (hNul : c.toNat ≠ 0)
      (hMark : c.toNat ≠ 0xfeff)
      (hRest : IsSound rest) :
      IsSound (String.utf8EncodeChar c ++ rest)

namespace IsSound

theorem append
    {s t : Bytes}
    (hs : IsSound s)
    (ht : IsSound t) :
    IsSound (s ++ t) := by
  induction hs with
  | nil => exact ht
  | cons hNul hMark _ ih =>
      rw [List.append_assoc]
      exact cons hNul hMark ih

/- An ASCII byte other than NUL is a character. -/
theorem ascii
    {b : UInt8}
    {rest : Bytes}
    (hPos : 0 < b)
    (hLow : b < 0x80)
    (hRest : IsSound rest) :
    IsSound (b :: rest) := by
  have hNat : b.toNat < 0x80 := UInt8.lt_iff_toNat_lt.mp hLow
  have hNul : 0 < b.toNat := UInt8.lt_iff_toNat_lt.mp hPos
  have hVal : (charOf b.toNat).toNat = b.toNat :=
    val_charOf (Or.inl (by omega))
  have hBytes :
      b :: rest =
        String.utf8EncodeChar (charOf b.toNat) ++ rest := by
    simp [encode_one hNat]
  rw [hBytes]
  exact cons (by omega) (by omega) hRest

/- What comes off a sound text is such a character. -/
theorem of_split?
    {s rest : Bytes}
    {g : Glyph}
    (h : IsSound s)
    (hSplit : split? s = some (g, rest)) :
    ∃ c,
      g = .char c ∧ c.toNat ≠ 0 ∧ c.toNat ≠ 0xfeff ∧
        IsSound rest := by
  cases h with
  | nil => simp [split?] at hSplit
  | cons hNul hMark hRest =>
      rename_i c rest'
      rw [split?_utf8EncodeChar_append] at hSplit
      cases hSplit
      exact ⟨c, rfl, hNul, hMark, hRest⟩

end IsSound

end Utf8

------------------------------------------------------------
-- Glyphs of Texts
------------------------------------------------------------

namespace Bytes

theorem glyphs_of_split?
    {s rest : Bytes}
    {g : Glyph}
    (h : Utf8.split? s = some (g, rest)) :
    s.glyphs = g :: glyphs rest := by
  rw [glyphs]
  split
  · rename_i hNone
    rw [h] at hNone
    cases hNone
  · rename_i hSome
    rw [h] at hSome
    cases hSome
    rfl

/- A text is made of the bytes of its glyphs. -/
theorem flatMap_bytes_glyphs
    (s : Bytes) :
    s.glyphs.flatMap Glyph.bytes = s := by
  fun_induction glyphs s with
  | case1 s hNone =>
      unfold Utf8.split? at hNone
      repeat' split at hNone
      all_goals simp_all
  | case2 s g rest hSplit ih =>
      rw [List.flatMap_cons, ih]
      exact (Utf8.eq_bytes_append_of_split? hSplit).symm

/- Which texts are sound can be read off their glyphs. -/
theorem isSound_of_forall_mem_glyphs
    {s : Bytes}
    (h :
      ∀ g ∈ s.glyphs,
        ∃ c, g = .char c ∧ c.toNat ≠ 0 ∧ c.toNat ≠ 0xfeff) :
    Utf8.IsSound s := by
  rw [← flatMap_bytes_glyphs s]
  generalize s.glyphs = gs at h ⊢
  induction gs with
  | nil => exact Utf8.IsSound.nil
  | cons g gs ih =>
      rcases h g (by simp) with ⟨c, rfl, hNul, hMark⟩
      rw [List.flatMap_cons]
      exact Utf8.IsSound.cons hNul hMark
        (ih fun g hg => h g (by simp [hg]))

end Bytes

/- The glyphs of a sound text are the same whatever follows. -/
theorem Utf8.IsSound.glyphs_append
    {s : Bytes}
    (h : Utf8.IsSound s)
    (t : Bytes) :
    (s ++ t).glyphs = s.glyphs ++ t.glyphs := by
  induction h with
  | nil =>
      have hNil : Bytes.glyphs [] = [] := by
        rw [Bytes.glyphs]
        rfl
      rw [hNil, List.nil_append, List.nil_append]
  | @cons c rest _ _ _ ih =>
      have hAlone := Utf8.split?_utf8EncodeChar_append c rest
      have hBefore :=
        Utf8.split?_utf8EncodeChar_append c (rest ++ t)
      rw [← List.append_assoc] at hBefore
      rw [Bytes.glyphs_of_split? hBefore,
        Bytes.glyphs_of_split? hAlone, ih, List.cons_append]

/- The first glyph of a sound text comes off whatever follows. -/
theorem Utf8.IsSound.exists_split?_of_glyphs
    {s : Bytes}
    {g : Glyph}
    {gs : List Glyph}
    (h : Utf8.IsSound s)
    (hGlyphs : s.glyphs = g :: gs)
    (t : Bytes) :
    ∃ rest, Utf8.split? (s ++ t) = some (g, rest) := by
  cases h with
  | nil =>
      rw [Bytes.glyphs] at hGlyphs
      simp [Utf8.split?] at hGlyphs
  | @cons c rest _ _ _ =>
      have hSplit := Utf8.split?_utf8EncodeChar_append c rest
      rw [Bytes.glyphs_of_split? hSplit] at hGlyphs
      rcases List.cons.inj hGlyphs with ⟨rfl, _⟩
      refine ⟨rest ++ t, ?_⟩
      rw [List.append_assoc]
      exact Utf8.split?_utf8EncodeChar_append c _

end Namesake
