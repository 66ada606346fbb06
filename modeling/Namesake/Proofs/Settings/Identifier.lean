import Namesake.Proofs.Scanner.Lexemes
import Namesake.Settings.Basic

/-
  Identifiers are texts of letters, digits and underscores.
  An identifier that goes on behind another one does so with
  such a character, so that the shorter of the two does not
  end where a name ends.

  Main declarations:
    * `Settings.isNamePart_of_isIdentifier`
    * `Settings.isSound_of_isIdentifier`
    * `Settings.eq_of_endsName`
-/

namespace Namesake

open Scanner

/- A name part is a character that is sound. -/
theorem Scanner.exists_char_of_isNamePart
    {g : Glyph}
    (h : isNamePart g.code = true) :
    ∃ c, g = .char c ∧ c.toNat ≠ 0 ∧ c.toNat ≠ 0xfeff := by
  have hNe (n : Nat) (hn : isNamePart n = false) :
      g.code ≠ n := by
    rintro rfl
    rw [h] at hn
    cases hn
  cases g with
  | stray b => exact absurd rfl (hNe 0xfffd (by decide +kernel))
  | char c =>
      exact ⟨c, rfl, hNe 0 (by decide),
        hNe 0xfeff (by decide +kernel)⟩

namespace Settings

/- Every character of an identifier can continue a name. -/
theorem isNamePart_of_isIdentifier
    {name : Bytes}
    (hName : isIdentifier name = true) :
    ∀ g ∈ name.glyphs, isNamePart g.code = true := by
  unfold isIdentifier at hName
  rw [Bool.and_eq_true] at hName
  intro g hMem
  cases hGlyphs : name.glyphs with
  | nil =>
      rw [hGlyphs] at hMem
      cases hMem
  | cons first rest =>
      rw [hGlyphs] at hName hMem
      simp only [Bool.and_eq_true, List.all_eq_true] at hName
      rcases List.mem_cons.mp hMem with rfl | hLater
      · simp [isNamePart, hName.2.1]
      · exact hName.2.2 g hLater

theorem isSound_of_isIdentifier
    {name : Bytes}
    (hName : isIdentifier name = true) :
    Utf8.IsSound name := by
  apply Bytes.isSound_of_forall_mem_glyphs
  intro g hMem
  apply exists_char_of_isNamePart
  exact isNamePart_of_isIdentifier hName g hMem

/- What continues an identifier starts with a name part. -/
theorem eq_nil_of_endsName
    {name more rest : Bytes}
    (hName : isIdentifier name = true)
    (hLonger : isIdentifier (name ++ more) = true)
    (hEnd : EndsName (more ++ rest)) :
    more = [] := by
  have hGlyphs :=
    (isSound_of_isIdentifier hName).glyphs_append more
  have hParts : ∀ g ∈ more.glyphs, isNamePart g.code = true := by
    intro g hMem
    apply isNamePart_of_isIdentifier hLonger
    rw [hGlyphs]
    exact List.mem_append_right name.glyphs hMem
  cases hMore : more.glyphs with
  | nil =>
      rw [← Bytes.flatMap_bytes_glyphs more, hMore,
        List.flatMap_nil]
  | cons g gs =>
      -- the first character of `more` is also that of `more ++ rest`
      exfalso
      have hSound : Utf8.IsSound more := by
        apply Bytes.isSound_of_forall_mem_glyphs
        intro g hMem
        exact exists_char_of_isNamePart (hParts g hMem)
      rcases hSound.exists_split?_of_glyphs hMore rest with
        ⟨behind, hSplit⟩
      have hFirst : (more ++ rest).firstCode? = some g.code := by
        rw [Bytes.firstCode?, hSplit]
        rfl
      have hPart : isNamePart g.code = true := by
        apply hParts
        rw [hMore]
        exact List.mem_cons_self
      rw [hEnd g.code hFirst] at hPart
      cases hPart

/- A text goes on with one identifier up to the end of a name. -/
theorem eq_of_endsName
    {name other rest rest' : Bytes}
    (hName : isIdentifier name = true)
    (hOther : isIdentifier other = true)
    (hEnd : EndsName rest)
    (hEnd' : EndsName rest')
    (hText : name ++ rest = other ++ rest') :
    name = other := by
  rcases List.append_eq_append_iff.mp hText with
    ⟨more, rfl, rfl⟩ | ⟨more, rfl, rfl⟩
  · rw [eq_nil_of_endsName hName hOther hEnd, List.append_nil]
  · rw [eq_nil_of_endsName hOther hName hEnd', List.append_nil]

end Settings

end Namesake
