import Mathlib.Data.List.TakeWhile
import Namesake.Proofs.Text.Bytes
import Namesake.Version

/-
  The grammar of versions.  A version is one, two or three
  numbers between dots, behind a `v` or not; three numbers may
  have a pre-release and a build behind them.  Exactly these
  texts are recognized.

  Main declarations:
    * `Version.IsNumber`
    * `Version.IsDotted`
    * `Version.IsPlain`
    * `Version.number?_eq_some_iff`
    * `Version.all_splitOn_iff`
    * `Version.isVersion_iff_isPlain`
-/

namespace Namesake

namespace Version

------------------------------------------------------------
-- Grammar
------------------------------------------------------------

/- The digits from 0 to 9. -/
def IsDigit
    (b : UInt8) : Prop :=
  0x30 ≤ b ∧ b ≤ 0x39

instance : DecidablePred IsDigit :=
  fun _ => inferInstanceAs (Decidable (_ ∧ _))

/- The letters from A to Z and from a to z. -/
def IsLetter
    (b : UInt8) : Prop :=
  (0x41 ≤ b ∧ b ≤ 0x5a) ∨ (0x61 ≤ b ∧ b ≤ 0x7a)

/- A decimal number that has no superfluous leading zero. -/
inductive IsNumber : Bytes → Prop where
  | zero : IsNumber [0x30]
  | positive
      {b : UInt8}
      {digits : Bytes}
      (hFirst : IsDigit b)
      (hPositive : b ≠ 0x30)
      (hDigits : ∀ b ∈ digits, IsDigit b) :
      IsNumber (b :: digits)

/- An identifier of a build. -/
structure IsBuildPart
    (s : Bytes) : Prop where
  nonempty : s ≠ []
  bytes : ∀ b ∈ s, IsLetter b ∨ IsDigit b ∨ b = 0x2d

/- An identifier of a pre-release, a number if it has digits only. -/
structure IsPreReleasePart
    (s : Bytes) : Prop extends IsBuildPart s where
  number : (∀ b ∈ s, IsDigit b) → IsNumber s

/- One part, or several of them with dots between them. -/
inductive IsDotted
    (Part : Bytes → Prop) : Bytes → Prop where
  | single
      {part : Bytes}
      (hPart : Part part) :
      IsDotted Part part
  | cons
      {part rest : Bytes}
      (hPart : Part part)
      (hRest : IsDotted Part rest) :
      IsDotted Part (part ++ 0x2e :: rest)

/- Nothing, or parts behind a sign. -/
inductive IsSigned
    (sign : UInt8)
    (Part : Bytes → Prop) : Bytes → Prop where
  | nothing : IsSigned sign Part []
  | parts
      {s : Bytes}
      (hParts : IsDotted Part s) :
      IsSigned sign Part (sign :: s)

/- The versions without the letter in front. -/
inductive IsPlain : Bytes → Prop where
  | major
      {major : Bytes}
      (hMajor : IsNumber major) :
      IsPlain major
  | minor
      {major minor : Bytes}
      (hMajor : IsNumber major)
      (hMinor : IsNumber minor) :
      IsPlain (major ++ 0x2e :: minor)
  | patch
      {major minor patch preRelease build : Bytes}
      (hMajor : IsNumber major)
      (hMinor : IsNumber minor)
      (hPatch : IsNumber patch)
      (hPreRelease : IsSigned 0x2d IsPreReleasePart preRelease)
      (hBuild : IsSigned 0x2b IsBuildPart build) :
      IsPlain
        (major ++ 0x2e ::
          (minor ++ 0x2e :: (patch ++ (preRelease ++ build))))

------------------------------------------------------------
-- Bytes
------------------------------------------------------------

theorem isNumeral_iff
    {b : UInt8} :
    isNumeral b = true ↔ IsDigit b := by
  simp [isNumeral, isAsciiDigit, IsDigit,
    UInt8.le_iff_toNat_le]

theorem isIdentifierByte_iff
    {b : UInt8} :
    isIdentifierByte b = true ↔
      IsLetter b ∨ IsDigit b ∨ b = 0x2d := by
  unfold isIdentifierByte
  rw [Bool.or_eq_true, Bool.or_eq_true, isNumeral_iff,
    or_assoc]
  simp [isAsciiLetter, IsLetter, UInt8.le_iff_toNat_le]

------------------------------------------------------------
-- Numbers
------------------------------------------------------------

theorem IsNumber.isDigit
    {s : Bytes}
    (h : IsNumber s) :
    ∀ b ∈ s, IsDigit b := by
  cases h with
  | zero => simp [IsDigit]
  | positive hFirst _ hDigits =>
      intro b hMem
      rcases List.mem_cons.mp hMem with rfl | hMem
      · exact hFirst
      · exact hDigits b hMem

theorem IsNumber.ne_nil
    {s : Bytes}
    (h : IsNumber s) :
    s ≠ [] := by
  cases h <;> simp

/- Digits are a number if they have no superfluous zero. -/
theorem isNumber_iff
    {s : Bytes}
    (hDigits : ∀ b ∈ s, IsDigit b) :
    IsNumber s ↔ s ≠ [] ∧ hasLeadingZero s = false := by
  cases s with
  | nil =>
      constructor
      · intro h
        exact absurd rfl h.ne_nil
      · rintro ⟨hNil, _⟩
        exact absurd rfl hNil
  | cons b s =>
      rw [List.forall_mem_cons] at hDigits
      constructor
      · intro h
        refine ⟨List.cons_ne_nil b s, ?_⟩
        cases h with
        | zero => rfl
        | positive _ hPositive _ =>
            simp [hasLeadingZero, hPositive]
      · rintro ⟨_, hZero⟩
        by_cases hFirst : b = 0x30
        · subst hFirst
          cases s with
          | nil => exact .zero
          | cons b' s => simp [hasLeadingZero] at hZero
        · exact .positive hDigits.1 hFirst hDigits.2

/- What does not go on with a digit. -/
def EndsNumber
    (rest : Bytes) : Prop :=
  ∀ b ∈ rest.head?, ¬ IsDigit b

/- A number is taken as long as digits follow. -/
theorem number?_eq_some_iff
    {s rest : Bytes} :
    number? s = some rest ↔
      ∃ number,
        s = number ++ rest ∧
          IsNumber number ∧ EndsNumber rest := by
  unfold number?
  simp only
  constructor
  · intro h
    split at h
    · cases h
    · rename_i hNumber
      rw [Bool.or_eq_true, not_or, Bool.not_eq_true,
        Bool.not_eq_true, List.isEmpty_eq_false_iff]
        at hNumber
      have hDigits :
          ∀ b ∈ s.takeWhile isNumeral, IsDigit b := by
        intro b hMem
        exact isNumeral_iff.mp (List.mem_takeWhile_imp hMem)
      refine ⟨s.takeWhile isNumeral, ?_,
        (isNumber_iff hDigits).mpr hNumber, ?_⟩
      · rw [← Option.some.inj h]
        exact List.takeWhile_append_dropWhile.symm
      · intro b hHead hDigit
        have hStop := List.head?_dropWhile_not isNumeral s
        rw [Option.some.inj h, hHead] at hStop
        simp only [isNumeral_iff.mpr hDigit] at hStop
        cases hStop
  · rintro ⟨number, rfl, hNumber, hEnd⟩
    have hNumerals : ∀ b ∈ number, isNumeral b = true := by
      intro b hMem
      exact isNumeral_iff.mpr (hNumber.isDigit b hMem)
    have hDigits :=
      (isNumber_iff hNumber.isDigit).mp hNumber
    have hTake : rest.takeWhile isNumeral = [] := by
      cases rest with
      | nil => rfl
      | cons b rest =>
          apply List.takeWhile_cons_of_neg
          rw [isNumeral_iff]
          exact hEnd b rfl
    have hDrop : rest.dropWhile isNumeral = rest := by
      cases rest with
      | nil => rfl
      | cons b rest =>
          apply List.dropWhile_cons_of_neg
          rw [isNumeral_iff]
          exact hEnd b rfl
    rw [List.takeWhile_append_of_pos hNumerals,
      List.dropWhile_append_of_pos hNumerals, hTake, hDrop,
      List.append_nil, if_neg]
    simp [hDigits]

------------------------------------------------------------
-- Parts
------------------------------------------------------------

theorem isIdentifier_iff
    {s : Bytes} :
    isIdentifier s = true ↔ IsBuildPart s := by
  unfold isIdentifier
  rw [Bool.and_eq_true, List.all_eq_true]
  simp only [isIdentifierByte_iff, Bool.not_eq_true',
    List.isEmpty_eq_false_iff]
  constructor
  · rintro ⟨hNonempty, hBytes⟩
    exact ⟨hNonempty, hBytes⟩
  · intro h
    exact ⟨h.nonempty, h.bytes⟩

/- A part of a pre-release as it is checked. -/
theorem isPreReleasePart_iff
    {s : Bytes} :
    (isIdentifier s &&
        !(s.all isNumeral && hasLeadingZero s)) = true ↔
      IsPreReleasePart s := by
  rw [Bool.and_eq_true, isIdentifier_iff, Bool.not_eq_true',
    Bool.and_eq_false_imp, List.all_eq_true]
  simp only [isNumeral_iff]
  constructor
  · rintro ⟨hPart, hZero⟩
    refine ⟨hPart, ?_⟩
    intro hDigits
    exact (isNumber_iff hDigits).mpr
      ⟨hPart.nonempty, hZero hDigits⟩
  · intro h
    refine ⟨h.toIsBuildPart, ?_⟩
    intro hDigits
    exact ((isNumber_iff hDigits).mp (h.number hDigits)).2

theorem IsBuildPart.not_mem
    {s : Bytes}
    (h : IsBuildPart s)
    {b : UInt8}
    (hByte : isIdentifierByte b = false) :
    b ∉ s := by
  intro hMem
  rw [isIdentifierByte_iff.mpr (h.bytes b hMem)] at hByte
  cases hByte

/- The pieces between dots are the parts of a dotted text. -/
theorem all_splitOn_iff
    {p : Bytes → Bool}
    {Part : Bytes → Prop}
    (hPart : ∀ s, p s = true ↔ Part s)
    (hDot : ∀ s, Part s → 0x2e ∉ s)
    (s : Bytes) :
    (s.splitOn 0x2e).all p = true ↔ IsDotted Part s := by
  constructor
  · intro h
    induction hLength : s.length using Nat.strong_induction_on
        generalizing s with
    | _ n ih =>
        by_cases hMem : 0x2e ∈ s
        · rcases List.eq_append_cons_of_mem hMem with
            ⟨part, rest, rfl, hNot⟩
          rw [List.splitOn_append_cons_self,
            List.splitOn_eq_singleton hNot, List.all_append,
            Bool.and_eq_true] at h
          rw [List.length_append, List.length_cons] at hLength
          have hOne : Part part := by
            simpa [hPart] using h.1
          exact .cons hOne
            (ih rest.length (by omega) rest h.2 rfl)
        · rw [List.splitOn_eq_singleton hMem] at h
          apply IsDotted.single
          simpa [hPart] using h
  · intro h
    induction h with
    | single hOne =>
        rw [List.splitOn_eq_singleton (hDot _ hOne)]
        simpa [hPart] using hOne
    | cons hOne _ ih =>
        rw [List.splitOn_append_cons_self,
          List.splitOn_eq_singleton (hDot _ hOne),
          List.all_append, ih]
        simpa [hPart] using hOne

theorem isBuild_iff
    {s : Bytes} :
    isBuild s = true ↔ IsDotted IsBuildPart s := by
  apply all_splitOn_iff
  · intro part
    exact isIdentifier_iff
  · intro part hPart
    exact hPart.not_mem rfl

theorem isPreRelease_iff
    {s : Bytes} :
    isPreRelease s = true ↔ IsDotted IsPreReleasePart s := by
  apply all_splitOn_iff
  · intro part
    exact isPreReleasePart_iff
  · intro part hPart
    exact hPart.toIsBuildPart.not_mem rfl

/- A byte that no part has, other than the dot, is in none. -/
theorem IsDotted.not_mem
    {Part : Bytes → Prop}
    {s : Bytes}
    {b : UInt8}
    (h : IsDotted Part s)
    (hDot : b ≠ 0x2e)
    (hPart : ∀ part, Part part → b ∉ part) :
    b ∉ s := by
  induction h with
  | single hOne => exact hPart _ hOne
  | cons hOne _ ih =>
      rw [List.mem_append, List.mem_cons, not_or, not_or]
      exact ⟨hPart _ hOne, hDot, ih⟩

------------------------------------------------------------
-- Suffixes
------------------------------------------------------------

theorem ne_of_not_mem
    {b : UInt8}
    {s : Bytes}
    (h : b ∉ s) :
    ∀ c ∈ s, decide (c ≠ b) = true := by
  intro c hMem
  rw [decide_eq_true_iff]
  rintro rfl
  exact h hMem

/- A pre-release that no build follows. -/
theorem isSuffix_preRelease
    {preRelease : Bytes}
    (hPlus : 0x2b ∉ preRelease) :
    isSuffix (0x2d :: preRelease) = isPreRelease preRelease := by
  have hKeep := ne_of_not_mem hPlus
  have hTake := List.takeWhile_eq_self_iff.mpr hKeep
  have hDrop := List.dropWhile_eq_nil_iff.mpr hKeep
  simp only [isSuffix, hTake, hDrop]

/- A pre-release goes on to the sign of the build. -/
theorem isSuffix_preRelease_build
    {preRelease : Bytes}
    (hPlus : 0x2b ∉ preRelease)
    (build : Bytes) :
    isSuffix (0x2d :: (preRelease ++ 0x2b :: build)) =
      (isPreRelease preRelease && isBuild build) := by
  have hKeep := ne_of_not_mem hPlus
  have hTake :
      (preRelease ++ 0x2b :: build).takeWhile (· ≠ 0x2b) =
        preRelease := by
    rw [List.takeWhile_append_of_pos hKeep,
      List.takeWhile_cons_of_neg (by decide), List.append_nil]
  have hDrop :
      (preRelease ++ 0x2b :: build).dropWhile (· ≠ 0x2b) =
        0x2b :: build := by
    rw [List.dropWhile_append_of_pos hKeep,
      List.dropWhile_cons_of_neg (by decide)]
  simp only [isSuffix, hTake, hDrop]

/- Behind the numbers stand a pre-release and a build. -/
theorem isSuffix_iff
    {s : Bytes} :
    isSuffix s = true ↔
      ∃ preRelease build,
        s = preRelease ++ build ∧
          IsSigned 0x2d IsPreReleasePart preRelease ∧
          IsSigned 0x2b IsBuildPart build := by
  constructor
  · intro h
    unfold isSuffix at h
    split at h
    · exact ⟨[], [], rfl, .nothing, .nothing⟩
    · rename_i build
      exact ⟨[], 0x2b :: build, rfl, .nothing,
        .parts (isBuild_iff.mp h)⟩
    · rename_i rest
      change isSuffix (0x2d :: rest) = true at h
      by_cases hPlus : 0x2b ∈ rest
      · rcases List.eq_append_cons_of_mem hPlus with
          ⟨preRelease, build, rfl, hNot⟩
        rw [isSuffix_preRelease_build hNot, Bool.and_eq_true]
          at h
        exact ⟨0x2d :: preRelease, 0x2b :: build, rfl,
          .parts (isPreRelease_iff.mp h.1),
          .parts (isBuild_iff.mp h.2)⟩
      · rw [isSuffix_preRelease hPlus] at h
        refine ⟨0x2d :: rest, [], ?_,
          .parts (isPreRelease_iff.mp h), .nothing⟩
        rw [List.append_nil]
    · cases h
  · rintro ⟨preRelease, build, rfl, hPreRelease, hBuild⟩
    have hPlus
        {s : Bytes}
        (hParts : IsDotted IsPreReleasePart s) :
        0x2b ∉ s := by
      apply hParts.not_mem (by decide)
      intro part hPart
      exact hPart.toIsBuildPart.not_mem rfl
    cases hPreRelease with
    | nothing =>
        cases hBuild with
        | nothing => rfl
        | parts hBuildParts => exact isBuild_iff.mpr hBuildParts
    | parts hParts =>
        cases hBuild with
        | nothing =>
            rw [List.append_nil,
              isSuffix_preRelease (hPlus hParts)]
            exact isPreRelease_iff.mpr hParts
        | parts hBuildParts =>
            rw [List.cons_append,
              isSuffix_preRelease_build (hPlus hParts),
              Bool.and_eq_true]
            exact ⟨isPreRelease_iff.mpr hParts,
              isBuild_iff.mpr hBuildParts⟩

------------------------------------------------------------
-- Versions
------------------------------------------------------------

/- No suffix goes on with a digit. -/
theorem endsNumber_of_isSuffix
    {s : Bytes}
    (h : isSuffix s = true) :
    EndsNumber s := by
  intro b hHead hDigit
  unfold isSuffix at h
  split at h
  · cases hHead
  · cases hHead
    exact absurd hDigit (by decide)
  · cases hHead
    exact absurd hDigit (by decide)
  · cases h

/- What follows a number does not go on with a digit. -/
theorem endsNumber_of_isTail
    {more : Nat}
    {s : Bytes}
    (h : isTail more s = true) :
    EndsNumber s := by
  cases more with
  | zero => exact endsNumber_of_isSuffix h
  | succ more =>
      cases s with
      | nil =>
          intro b hHead
          cases hHead
      | cons b s =>
          intro c hHead hDigit
          cases hHead
          by_cases hDot : b = 0x2e
          · subst hDot
            exact absurd hDigit (by decide)
          · rw [isTail, if_neg hDot] at h
            cases h

/- A number with a tail behind it. -/
theorem exists_number?_iff
    {more : Nat}
    {s : Bytes} :
    (∃ rest, number? s = some rest ∧ isTail more rest = true) ↔
      ∃ number tail,
        s = number ++ tail ∧
          IsNumber number ∧ isTail more tail = true := by
  constructor
  · rintro ⟨rest, hNumber, hTail⟩
    rcases number?_eq_some_iff.mp hNumber with
      ⟨number, hSplit, hIsNumber, _⟩
    exact ⟨number, rest, hSplit, hIsNumber, hTail⟩
  · rintro ⟨number, tail, hSplit, hNumber, hTail⟩
    refine ⟨tail, number?_eq_some_iff.mpr ?_, hTail⟩
    exact ⟨number, hSplit, hNumber, endsNumber_of_isTail hTail⟩

/- A tail is empty, or a dot, a number and another tail. -/
theorem isTail_succ_iff
    {more : Nat}
    {s : Bytes} :
    isTail (more + 1) s = true ↔
      s = [] ∨
        ∃ number tail,
          s = 0x2e :: (number ++ tail) ∧
            IsNumber number ∧ isTail more tail = true := by
  cases s with
  | nil => simp [isTail]
  | cons b s =>
      by_cases hDot : b = 0x2e
      · subst hDot
        have hNumber :
            isTail (more + 1) (0x2e :: s) = true ↔
              ∃ rest,
                number? s = some rest ∧
                  isTail more rest = true := by
          rw [isTail, if_pos rfl]
          cases number? s <;> simp
        rw [hNumber, exists_number?_iff]
        simp
      · simp [isTail, hDot]

/- The versions of the grammar by their numbers. -/
theorem isPlain_iff
    {s : Bytes} :
    IsPlain s ↔
      ∃ number tail,
        s = number ++ tail ∧
          IsNumber number ∧ isTail 2 tail = true := by
  constructor
  · intro h
    cases h with
    | major hMajor =>
        refine ⟨s, [], by simp, hMajor, ?_⟩
        exact isTail_succ_iff.mpr (Or.inl rfl)
    | @minor major minor hMajor hMinor =>
        refine ⟨major, 0x2e :: minor, rfl, hMajor, ?_⟩
        rw [isTail_succ_iff]
        right
        refine ⟨minor, [], by simp, hMinor, ?_⟩
        exact isTail_succ_iff.mpr (Or.inl rfl)
    | @patch major minor patch preRelease build
        hMajor hMinor hPatch hPreRelease hBuild =>
        refine ⟨major, _, rfl, hMajor, ?_⟩
        rw [isTail_succ_iff]
        right
        refine ⟨minor, _, rfl, hMinor, ?_⟩
        rw [isTail_succ_iff]
        right
        refine ⟨patch, preRelease ++ build, rfl, hPatch, ?_⟩
        exact isSuffix_iff.mpr
          ⟨preRelease, build, rfl, hPreRelease, hBuild⟩
  · rintro ⟨major, tail, rfl, hMajor, hTail⟩
    rcases isTail_succ_iff.mp hTail with
      rfl | ⟨minor, tail, rfl, hMinor, hTail⟩
    · rw [List.append_nil]
      exact .major hMajor
    · rcases isTail_succ_iff.mp hTail with
        rfl | ⟨patch, tail, rfl, hPatch, hTail⟩
      · rw [List.append_nil]
        exact .minor hMajor hMinor
      · rcases isSuffix_iff.mp hTail with
          ⟨preRelease, build, rfl, hPreRelease, hBuild⟩
        exact .patch hMajor hMinor hPatch hPreRelease hBuild

/- A version of the grammar starts with a digit. -/
theorem IsPlain.not_letter
    {s : Bytes} :
    ¬ IsPlain (0x76 :: s) := by
  intro h
  rcases isPlain_iff.mp h with ⟨number, tail, hSplit, hNumber, _⟩
  cases number with
  | nil => exact absurd rfl hNumber.ne_nil
  | cons b number =>
      have hDigit := hNumber.isDigit b List.mem_cons_self
      rw [← (List.cons.inj hSplit).1] at hDigit
      exact absurd hDigit (by decide)

/- Without a letter in front. -/
theorem isVersion_eq_true_iff
    {s : Bytes} :
    isVersion s = true ↔
      IsPlain ((List.isPrefixOf? [0x76] s).getD s) := by
  rw [isPlain_iff, ← exists_number?_iff]
  unfold isVersion
  simp only
  cases number? ((List.isPrefixOf? [0x76] s).getD s) <;> simp

/-
  A text is recognized exactly if it, or what follows a `v` at
  its beginning, is a version of the grammar.
-/
theorem isVersion_iff_isPlain
    (s : Bytes) :
    isVersion s = true ↔
      IsPlain s ∨ ∃ plain, s = 0x76 :: plain ∧ IsPlain plain := by
  rw [isVersion_eq_true_iff]
  cases hDrop : List.isPrefixOf? [0x76] s with
  | none =>
      rw [Option.getD_none]
      constructor
      · exact Or.inl
      · rintro (hPlain | ⟨plain, rfl, _⟩)
        · exact hPlain
        · cases hDrop
  | some plain =>
      have hStart : s = 0x76 :: plain :=
        (List.append_eq_of_isPrefixOf?_eq_some hDrop).symm
      subst hStart
      rw [Option.getD_some]
      constructor
      · intro hPlain
        exact Or.inr ⟨plain, rfl, hPlain⟩
      · rintro (hPlain | ⟨other, hSame, hPlain⟩)
        · exact absurd hPlain IsPlain.not_letter
        · rw [(List.cons.inj hSame).2]
          exact hPlain

end Version

end Namesake
