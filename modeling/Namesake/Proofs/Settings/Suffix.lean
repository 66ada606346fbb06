import Mathlib.Data.List.Basic
import Namesake.Proofs.Generate.Companions
import Namesake.Proofs.Path

/-
  The suffix of companions.  A valid suffix puts companions
  beside their sources, as sources under other names, and no
  two sources share a companion.  It does not keep companions
  from being tests: a valid suffix may be the end of the
  ending of tests whose beginning is the end of a stem.

  Main declarations:
    * `Bytes.endsWith_append_iff`
    * `Settings.isBeside_companionPath`
    * `Settings.eq_of_companionPath_eq`
    * `Settings.companion_is_test_iff`
-/

namespace Namesake

------------------------------------------------------------
-- Endings of Joined Texts
------------------------------------------------------------

/-
  Two texts together end like the second one, or with an
  ending of which the second one is the last part.
-/
theorem Bytes.endsWith_append_iff
    {s t ending : Bytes} :
    (s ++ t).endsWith ending = true ↔
      t.endsWith ending = true ∨
        ∃ front,
          front ≠ [] ∧ ending = front ++ t ∧
            s.endsWith front = true := by
  simp only [List.isSuffixOf_iff_suffix]
  constructor
  · rintro ⟨rest, hBoth⟩
    rcases List.append_eq_append_iff.mp hBoth with
      ⟨front, hFirst, hEnding⟩ | ⟨middle, _, hLast⟩
    · by_cases hNone : front = []
      · left
        rw [hNone, List.nil_append] at hEnding
        exact ⟨[], hEnding⟩
      · exact Or.inr ⟨front, hNone, hEnding, rest, hFirst.symm⟩
    · exact Or.inl ⟨middle, hLast.symm⟩
  · rintro (⟨rest, rfl⟩ | ⟨front, _, rfl, rest, rfl⟩)
    · exact ⟨s ++ rest, List.append_assoc _ _ _⟩
    · exact ⟨rest, (List.append_assoc _ _ _).symm⟩

namespace Settings

------------------------------------------------------------
-- Companions and Sources
------------------------------------------------------------

/- The ending of tests. -/
def testEnding : Bytes :=
  utf8 "_test.go"

theorem isSuffix_eq_true_iff
    {suffix : Bytes} :
    isSuffix suffix = true ↔
      suffix.endsWith sourceEnding = true ∧
        suffix ≠ sourceEnding ∧
        suffix.endsWith testEnding = false ∧
        Path.separator ∉ suffix := by
  simp [isSuffix, sourceEnding, testEnding, Path.separator,
    and_assoc]

/- The companion is another source in the same directory. -/
structure IsBeside
    (source companion : Bytes) : Prop where
  other : companion ≠ source
  named : companion.endsWith sourceEnding = true
  folder : Path.upToSlash companion = Path.upToSlash source

theorem isBeside_companionPath
    {path suffix : Bytes}
    (hSuffix : isSuffix suffix = true)
    (hSource : path.endsWith sourceEnding = true) :
    IsBeside path (companionPath path suffix) := by
  rcases isSuffix_eq_true_iff.mp hSuffix with
    ⟨hNamed, hOther, _, hSlash⟩
  have hSourceSlash : Path.separator ∉ sourceEnding := by
    decide
  rcases List.isSuffixOf_iff_suffix.mp hSource with ⟨stem, rfl⟩
  rw [companionPath_append]
  refine ⟨?_, ?_, ?_⟩
  · intro hSame
    exact hOther (List.append_cancel_left hSame)
  · exact Bytes.endsWith_append_iff.mpr (Or.inl hNamed)
  · rw [Path.upToSlash_append _ hSlash,
      Path.upToSlash_append _ hSourceSlash]

/- Sources with one companion are one source. -/
theorem eq_of_companionPath_eq
    {p q suffix : Bytes}
    (hFirst : p.endsWith sourceEnding = true)
    (hSecond : q.endsWith sourceEnding = true)
    (h : companionPath p suffix = companionPath q suffix) :
    p = q := by
  rcases List.isSuffixOf_iff_suffix.mp hFirst with ⟨stem, rfl⟩
  rcases List.isSuffixOf_iff_suffix.mp hSecond with ⟨other, rfl⟩
  rw [companionPath_append, companionPath_append] at h
  rw [List.append_cancel_right h]

------------------------------------------------------------
-- Companions and Tests
------------------------------------------------------------

/- A valid suffix has more than the ending of sources. -/
theorem length_of_isSuffix
    {suffix : Bytes}
    (h : isSuffix suffix = true) :
    sourceEnding.length < suffix.length := by
  rcases isSuffix_eq_true_iff.mp h with ⟨hNamed, hOther, _⟩
  rcases List.isSuffixOf_iff_suffix.mp hNamed with ⟨front, rfl⟩
  cases front with
  | nil => exact absurd rfl hOther
  | cons b front =>
      simp only [List.cons_append, List.length_cons,
        List.length_append]
      omega

/-
  The companion of a source is a test exactly if the last one
  to four bytes of the stem are the beginning of the ending of
  tests and the suffix is the rest of it.
-/
theorem companion_is_test_iff
    {s : Settings}
    {path : Bytes}
    (hValid : s.validate = .ok ())
    (hSource : path.endsWith sourceEnding = true) :
    (companionPath path s.suffix).endsWith testEnding = true ↔
      ∃ n,
        0 < n ∧ n ≤ 4 ∧ s.suffix = testEnding.drop n ∧
          path.endsWith (testEnding.take n ++ sourceEnding) =
            true := by
  have hSuffix := isSuffix_of_validate hValid
  rcases List.isSuffixOf_iff_suffix.mp hSource with ⟨stem, rfl⟩
  rw [companionPath_append, Bytes.endsWith_append_iff]
  constructor
  · rintro (hTest | ⟨front, hFront, hEnding, hStem⟩)
    · -- validation has seen a suffix with the whole ending
      rw [(isSuffix_eq_true_iff.mp hSuffix).2.2.1] at hTest
      cases hTest
    · have hLong := length_of_isSuffix hSuffix
      have hBoth := congrArg List.length hEnding
      have hTest : testEnding.length = 8 := rfl
      have hGo : sourceEnding.length = 3 := rfl
      rw [List.length_append] at hBoth
      refine ⟨front.length, List.length_pos_iff.mpr hFront,
        by omega, ?_, ?_⟩
      · rw [hEnding, List.drop_left]
      · rcases List.isSuffixOf_iff_suffix.mp hStem with ⟨rest, rfl⟩
        rw [hEnding, List.take_left]
        exact List.isSuffixOf_iff_suffix.mpr
          ⟨rest, (List.append_assoc _ _ _).symm⟩
  · rintro ⟨n, hPos, hSmall, hRest, hPath⟩
    refine Or.inr ⟨testEnding.take n, ?_, ?_, ?_⟩
    · intro hNil
      have hLength := congrArg List.length hNil
      have hTest : testEnding.length = 8 := rfl
      rw [List.length_take, hTest, List.length_nil] at hLength
      omega
    · rw [hRest, List.take_append_drop]
    · rcases List.isSuffixOf_iff_suffix.mp hPath with ⟨rest, hSame⟩
      rw [← List.append_assoc] at hSame
      exact List.isSuffixOf_iff_suffix.mpr
        ⟨rest, List.append_cancel_right hSame⟩

/- The settings with another suffix. -/
def withSuffix
    (suffix : String) : Settings :=
  { standard with suffix := utf8 suffix }

/- A source that is no test, a valid suffix, and a test. -/
theorem companion_completes_test_ending :
    (withSuffix "test.go").validate = .ok () ∧
      (utf8 "a_.go").endsWith sourceEnding = true ∧
      (utf8 "a_.go").endsWith testEnding = false ∧
      companionPath (utf8 "a_.go") (withSuffix "test.go").suffix =
        utf8 "a_test.go" ∧
      (utf8 "a_test.go").endsWith testEnding = true := by
  decide +kernel

theorem companion_of_split_ending_is_test :
    (withSuffix "t.go").validate = .ok () ∧
      (utf8 "p/unit_tes.go").endsWith sourceEnding = true ∧
      (companionPath (utf8 "p/unit_tes.go")
        (withSuffix "t.go").suffix).endsWith testEnding =
          true := by
  have hValid : (withSuffix "t.go").validate = .ok () := by
    decide +kernel
  have hSource :
      (utf8 "p/unit_tes.go").endsWith sourceEnding = true := by
    decide +kernel
  refine ⟨hValid, hSource, ?_⟩
  refine (companion_is_test_iff hValid hSource).mpr
    ⟨4, by decide, by decide, by decide +kernel, ?_⟩
  decide +kernel

end Settings

end Namesake
