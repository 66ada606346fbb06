import Namesake.Generate.Render

/-
  When the text of an expanded file can be made, and what it
  is then: both kinds of output lay out a draft, of which a
  companion is tidied behind its header and a file in place is
  formatted.

  Main declarations:
    * `Generate.renderCompanion_eq_ok_iff`
    * `Generate.renderInPlace_eq_ok_iff`
    * `Generate.path_of_render`
-/

namespace Namesake

namespace Generate

open Settings (companionPath)

variable {s : Settings} {r : FileResult} {o : Output}

/- A companion holds a draft of its declarations. -/
theorem renderCompanion_eq_ok_iff
    [Imports.Tidier] :
    renderCompanion s r = .ok o ↔
      o.path = companionPath r.file.path s.suffix ∧
        ∃ body,
          Layout.relaxed
              (draft (utf8 "package " ++ r.file.package)
                (companionDecls r)) =
            .ok body ∧
          Imports.Tidier.tidy o.path (header r.file ++ body) =
            .ok o.content := by
  unfold renderCompanion
  simp only
  constructor
  · intro h
    split at h
    · cases h
    · rename_i body hBody
      split at h
      · cases h
      · rename_i content hTidy
        cases h
        exact ⟨rfl, body, hBody, hTidy⟩
  · rintro ⟨hPath, body, hBody, hTidy⟩
    simp only [hBody, ← hPath, hTidy]

/- A file in place holds a draft of its declarations. -/
theorem renderInPlace_eq_ok_iff :
    renderInPlace r = .ok o ↔
      o.path = r.file.path ∧
        ∃ text,
          Layout.relaxed
              (draft r.file.preamble (inPlaceDecls r)) =
            .ok text ∧
          Layout.format text = .ok o.content := by
  unfold renderInPlace
  simp only
  constructor
  · intro h
    split at h
    · cases h
    · rename_i text hText
      split at h
      · cases h
      · rename_i content hFormat
        cases h
        exact ⟨rfl, text, hText, hFormat⟩
  · rintro ⟨hPath, text, hText, hFormat⟩
    simp only [hText, ← hPath, hFormat]

/- An output has the path of its mode. -/
theorem path_of_render
    [Imports.Tidier]
    (h : render s r = .ok o) :
    o.path =
      if s.mode == Settings.inPlace then
        r.file.path
      else
        companionPath r.file.path s.suffix := by
  unfold render at h
  split at h
  · rename_i hMode
    rw [if_pos hMode]
    exact (renderInPlace_eq_ok_iff.mp h).1
  · rename_i hMode
    rw [if_neg hMode]
    exact (renderCompanion_eq_ok_iff.mp h).1

end Generate

end Namesake
