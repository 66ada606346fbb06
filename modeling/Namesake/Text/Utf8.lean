import Namesake.Text.Bytes

/-
  This file defines how a text splits into characters.  A
  byte that starts no well-formed character is kept apart as
  a stray byte, so that splitting loses nothing.

  Key definitions include:
    * `Glyph`
    * `Utf8.split?`
    * `Utf8.encode`
    * `Bytes.glyphs`
    * `Bytes.isUtf8`
    * `Bytes.toString?`
-/

namespace Namesake

------------------------------------------------------------
-- Glyphs
------------------------------------------------------------

/- A character, or a byte that starts no character. -/
inductive Glyph where
  | char (c : Char)
  | stray (b : UInt8)
deriving DecidableEq, Repr

namespace Glyph

/- The code point; a stray byte counts as the replacement character. -/
def code : Glyph → Nat
  | .char c => c.toNat
  | .stray _ => 0xfffd

/- The bytes that the glyph was read from. -/
def bytes : Glyph → Bytes
  | .char c => String.utf8EncodeChar c
  | .stray b => [b]

/- The number of bytes of the glyph. -/
def width
    (g : Glyph) : Nat :=
  g.bytes.length

/- Is this a character, rather than a stray byte? -/
def isChar : Glyph → Bool
  | .char _ => true
  | .stray _ => false

end Glyph

------------------------------------------------------------
-- Decoding
------------------------------------------------------------

namespace Utf8

/- The value of the payload bits of a continuation byte. -/
def payload
    (b : UInt8) : Nat :=
  b.toNat % 64

/- Is this a continuation byte? -/
def isTail
    (b : UInt8) : Bool :=
  0x80 ≤ b && b ≤ 0xbf

/-
  The character of a code point that the caller found to be
  encoded in its shortest form.
-/
def charOf
    (n : Nat) : Char :=
  Char.ofNat n

/- Do two bytes encode a character? -/
def isTwo
    (b b₁ : UInt8) : Bool :=
  0xc2 ≤ b && b ≤ 0xdf && isTail b₁

/- Do three bytes encode a character? -/
def isThree
    (b b₁ b₂ : UInt8) : Bool :=
  ((b == 0xe0 && 0xa0 ≤ b₁ && b₁ ≤ 0xbf) ||
    (0xe1 ≤ b && b ≤ 0xec && isTail b₁) ||
    (b == 0xed && 0x80 ≤ b₁ && b₁ ≤ 0x9f) ||
    (0xee ≤ b && b ≤ 0xef && isTail b₁)) &&
  isTail b₂

/- Do four bytes encode a character? -/
def isFour
    (b b₁ b₂ b₃ : UInt8) : Bool :=
  ((b == 0xf0 && 0x90 ≤ b₁ && b₁ ≤ 0xbf) ||
    (0xf1 ≤ b && b ≤ 0xf3 && isTail b₁) ||
    (b == 0xf4 && 0x80 ≤ b₁ && b₁ ≤ 0x8f)) &&
  isTail b₂ && isTail b₃

/-
  The code point with the given first bits and continuation
  bytes.
-/
def value
    (bits : Nat)
    (tails : Bytes) : Nat :=
  tails.foldl (fun n b => n * 64 + payload b) bits

/-
  Split the first glyph off a text.  Overlong forms,
  surrogates and values above U+10FFFF are not characters:
  their first byte is stray.
-/
def split? : Bytes → Option (Glyph × Bytes)
  | [] => none
  | b :: rest =>
      if b < 0x80 then
        some (.char (charOf b.toNat), rest)
      else
        match rest with
        | b₁ :: rest₁ =>
            if isTwo b b₁ then
              some
                (.char (charOf (value (b.toNat - 0xc0) [b₁])),
                  rest₁)
            else
              match rest₁ with
              | b₂ :: rest₂ =>
                  if isThree b b₁ b₂ then
                    some
                      (.char
                        (charOf (value (b.toNat - 0xe0) [b₁, b₂])),
                        rest₂)
                  else
                    match rest₂ with
                    | b₃ :: rest₃ =>
                        if isFour b b₁ b₂ b₃ then
                          some
                            (.char
                              (charOf
                                (value (b.toNat - 0xf0)
                                  [b₁, b₂, b₃])),
                              rest₃)
                        else
                          some (.stray b, rest)
                    | [] => some (.stray b, rest)
              | [] => some (.stray b, rest)
        | [] => some (.stray b, [])

/- Splitting leaves a shorter text. -/
theorem length_of_split?
    {s : Bytes}
    {g : Glyph}
    {rest : Bytes}
    (h : split? s = some (g, rest)) :
    rest.length < s.length := by
  unfold split? at h
  repeat' split at h
  all_goals
    simp only [Option.some.injEq, Prod.mk.injEq, reduceCtorEq] at h
  all_goals
    obtain ⟨-, rfl⟩ := h
    simp only [List.length_cons, List.length_nil]
    omega

/- The UTF-8 encoding of a code point. -/
def encode
    (n : Nat) : Bytes :=
  String.utf8EncodeChar (Char.ofNat n)

end Utf8

------------------------------------------------------------
-- Whole Texts
------------------------------------------------------------

namespace Bytes

/- The glyphs of a text, in order. -/
def glyphs
    (s : Bytes) : List Glyph :=
  match _h : Utf8.split? s with
  | none => []
  | some (g, rest) => g :: glyphs rest
termination_by s.length
decreasing_by exact Utf8.length_of_split? _h

/- The code point at the start of a text, if there is one. -/
def firstCode?
    (s : Bytes) : Option Nat :=
  (Utf8.split? s).map fun r => r.1.code

/- Is every glyph of the text a character? -/
def isUtf8
    (s : Bytes) : Bool :=
  s.glyphs.all Glyph.isChar

/- The string that a text encodes, if it is valid UTF-8. -/
def toString?
    (s : Bytes) : Option String :=
  if s.isUtf8 then
    some (String.ofList (s.glyphs.map fun g => Char.ofNat g.code))
  else
    none

end Bytes

end Namesake
