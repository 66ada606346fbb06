import Mathlib.Data.List.Basic
import Mathlib.Data.List.TakeWhile
import Namesake.Generate.Run
import Namesake.Proofs.Source.Docs
import Namesake.Proofs.Text.Bytes

/-
  Build constraints in companions.  The header of a companion
  takes over the constraint lines of its file that are written
  with single spaces, in their order.  The syntax also allows
  tabs and, around the word `+build`, other numbers of blanks;
  such a line is lost, so that a companion has all constraints
  of its file exactly if none is written that way.

  Main declarations:
    * `Constraint.IsLine`
    * `Constraint.IsPlainLine`
    * `Constraint.readsLine_iff`
    * `Generate.headerWith_injective_of_sublist`
    * `Generate.header_inherits_iff`
-/

namespace Namesake

------------------------------------------------------------
-- Constraint Lines
------------------------------------------------------------

namespace Constraint

/- A blank inside of a constraint line. -/
def isBlank
    (b : UInt8) : Bool :=
  b == 0x20 || b == 0x09

/-
  The lines of the constraint syntax: a blank is required
  behind the word, and `+build` may have blanks before it.
-/
inductive IsLine : Bytes → Prop where
  | goBuild
      {blank : UInt8}
      (rest : Bytes)
      (hBlank : isBlank blank = true) :
      IsLine (utf8 "//go:build" ++ blank :: rest)
  | plusBuild
      {blanks : Bytes}
      {blank : UInt8}
      (rest : Bytes)
      (hBlanks : ∀ b ∈ blanks, isBlank b = true)
      (hBlank : isBlank blank = true) :
      IsLine
        (utf8 "//" ++ (blanks ++ (utf8 "+build" ++ blank :: rest)))

/- The lines that are written with single spaces. -/
inductive IsPlainLine : Bytes → Prop where
  | goBuild
      (rest : Bytes) :
      IsPlainLine (utf8 "//go:build " ++ rest)
  | plusBuild
      (rest : Bytes) :
      IsPlainLine (utf8 "// +build " ++ rest)

theorem IsPlainLine.isLine
    {line : Bytes}
    (h : IsPlainLine line) :
    IsLine line := by
  cases h with
  | goBuild rest => exact @IsLine.goBuild 0x20 rest rfl
  | plusBuild rest =>
      have hBlanks : ∀ b ∈ [0x20], isBlank b = true :=
        List.forall_mem_singleton.mpr rfl
      exact @IsLine.plusBuild [0x20] 0x20 rest hBlanks rfl

/- Does a text start with a word that a blank ends? -/
def wordEnds
    (word s : Bytes) : Bool :=
  match word.isPrefixOf? s with
  | some (b :: _) => isBlank b
  | _ => false

theorem wordEnds_iff
    {word s : Bytes} :
    wordEnds word s = true ↔
      ∃ blank rest,
        isBlank blank = true ∧ s = word ++ blank :: rest := by
  unfold wordEnds
  constructor
  · intro h
    split at h
    · rename_i b rest hDrop
      exact ⟨b, rest, h,
        (List.append_eq_of_isPrefixOf?_eq_some hDrop).symm⟩
    · cases h
  · rintro ⟨blank, rest, hBlank, rfl⟩
    rw [List.isPrefixOf?_eq_some_iff_append_eq.mpr rfl]
    exact hBlank

/- Is a line one of the constraint syntax? -/
def readsLine
    (line : Bytes) : Bool :=
  wordEnds (utf8 "//go:build") line ||
    match (utf8 "//").isPrefixOf? line with
    | some rest =>
        wordEnds (utf8 "+build") (rest.dropWhile isBlank)
    | none => false

theorem readsLine_iff
    {line : Bytes} :
    readsLine line = true ↔ IsLine line := by
  unfold readsLine
  rw [Bool.or_eq_true, wordEnds_iff]
  constructor
  · rintro (⟨blank, rest, hBlank, rfl⟩ | h)
    · exact .goBuild rest hBlank
    · split at h
      · rename_i rest hDrop
        rcases wordEnds_iff.mp h with
          ⟨blank, behind, hBlank, hBehind⟩
        rw [← List.append_eq_of_isPrefixOf?_eq_some hDrop,
          ← List.takeWhile_append_dropWhile (p := isBlank)
            (l := rest),
          hBehind]
        exact .plusBuild behind
          (fun b hMem => List.mem_takeWhile_imp hMem) hBlank
      · cases h
  · intro h
    cases h with
    | @goBuild blank rest hBlank =>
        exact Or.inl ⟨blank, rest, hBlank, rfl⟩
    | @plusBuild blanks blank rest hBlanks hBlank =>
        right
        rw [List.isPrefixOf?_eq_some_iff_append_eq.mpr rfl]
        simp only
        rw [List.dropWhile_append_of_pos hBlanks, wordEnds_iff]
        exact ⟨blank, rest, hBlank, rfl⟩

instance : DecidablePred IsLine :=
  fun _ => decidable_of_iff _ readsLine_iff

end Constraint

------------------------------------------------------------
-- Headers
------------------------------------------------------------

namespace Generate

open Constraint (IsLine IsPlainLine)

theorem isBuildLine_iff
    {line : Bytes} :
    isBuildLine line = true ↔ IsPlainLine line := by
  unfold isBuildLine
  rw [Bool.or_eq_true, List.isPrefixOf_iff_prefix,
    List.isPrefixOf_iff_prefix]
  constructor
  · rintro (⟨rest, rfl⟩ | ⟨rest, rfl⟩)
    · exact .goBuild rest
    · exact .plusBuild rest
  · intro h
    cases h with
    | goBuild rest => exact Or.inl ⟨rest, rfl⟩
    | plusBuild rest => exact Or.inr ⟨rest, rfl⟩

instance : DecidablePred IsPlainLine :=
  fun _ => decidable_of_iff _ isBuildLine_iff

/-
  The text above the package clause of a companion with given
  constraints: the generated line and the constraints, each of
  them followed by a blank line if there is any.
-/
def headerWith
    (constraints : List Bytes) : Bytes :=
  generatedLine ++ utf8 "\n\n" ++
    if constraints.isEmpty then
      []
    else
      Bytes.join (utf8 "\n") constraints ++ utf8 "\n\n"

/- A header has the lines with single spaces. -/
theorem header_eq
    (file : Source.File) :
    header file =
      headerWith (file.header.filter (IsPlainLine ·)) := by
  have hFilter :
      file.header.filter isBuildLine =
        file.header.filter (IsPlainLine ·) := by
    apply List.filter_congr
    intro line _
    rw [Bool.eq_iff_iff, isBuildLine_iff, decide_eq_true_iff]
  rw [← hFilter]
  rfl

/- In a header every constraint ends its line. -/
theorem headerWith_of_ne_nil
    {constraints : List Bytes}
    (h : constraints ≠ []) :
    headerWith constraints =
      headerWith [] ++
        (constraints.flatMap (· ++ utf8 "\n") ++ utf8 "\n") := by
  have hEmpty : constraints.isEmpty = false :=
    List.isEmpty_eq_false_iff.mpr h
  have hBlank : utf8 "\n\n" = utf8 "\n" ++ utf8 "\n" := rfl
  rw [← Bytes.join_append_sep (utf8 "\n") h]
  simp only [headerWith, hEmpty, List.isEmpty_nil, if_true,
    Bool.false_eq_true, if_false, List.append_nil, hBlank,
    List.append_assoc]

/- A header tells whether a constraint has been left out. -/
theorem headerWith_injective_of_sublist
    {some all : List Bytes}
    (hSublist : some.Sublist all)
    (h : headerWith some = headerWith all) :
    some = all := by
  rcases hSublist.exists_perm_append with ⟨left, hPerm⟩
  cases left with
  | nil =>
      rw [List.append_nil] at hPerm
      exact hSublist.eq_of_length hPerm.length_eq.symm
  | cons line left =>
      -- the line that is left out makes the second header longer
      exfalso
      have hFeed : (utf8 "\n").length = 1 := rfl
      have hAll : all ≠ [] := by
        rintro rfl
        simpa using hPerm.length_eq
      rw [headerWith_of_ne_nil hAll] at h
      have hLines :=
        (hPerm.flatMap_right (· ++ utf8 "\n")).length_eq
      rw [List.flatMap_append, List.flatMap_cons] at hLines
      simp only [List.length_append] at hLines
      by_cases hSome : some = []
      · have hLength := congrArg List.length h
        simp only [hSome, List.length_append] at hLength
        omega
      · rw [headerWith_of_ne_nil hSome] at h
        have hLength :=
          congrArg List.length (List.append_cancel_left h)
        simp only [List.length_append] at hLength
        omega

/-
  The header of a companion has the constraint lines of its
  file that are written with single spaces.  It has all of
  them exactly if there are no others.
-/
theorem header_inherits_iff
    (file : Source.File) :
    header file =
        headerWith (file.header.filter (IsPlainLine ·)) ∧
      (header file =
          headerWith (file.header.filter (IsLine ·)) ↔
        ∀ line ∈ file.header,
          IsLine line → IsPlainLine line) := by
  have hHeader := header_eq file
  refine ⟨hHeader, ?_, ?_⟩
  · intro hInherits line hMem hLine
    have hSublist :
        (file.header.filter (IsPlainLine ·)).Sublist
          (file.header.filter (IsLine ·)) := by
      apply List.monotone_filter_right
      intro line hPlain
      exact decide_eq_true
        (IsPlainLine.isLine (of_decide_eq_true hPlain))
    have hSame :=
      headerWith_injective_of_sublist hSublist
        (hHeader.symm.trans hInherits)
    have hKept : line ∈ file.header.filter (IsLine ·) :=
      List.mem_filter.mpr ⟨hMem, decide_eq_true hLine⟩
    rw [← hSame] at hKept
    exact of_decide_eq_true (List.mem_filter.mp hKept).2
  · intro hPlain
    rw [hHeader]
    refine congrArg headerWith (List.filter_congr ?_)
    intro line hMem
    rw [decide_eq_decide]
    exact ⟨IsPlainLine.isLine, hPlain line hMem⟩

/- A file with a tab in its constraint. -/
def tabbedText : Bytes :=
  utf8
    "//go:build\tlinux\n\npackage p\n\n// @alias(B)\nfunc F() \x7b\x7d\n"

/- The companion of a file with that text. -/
def tabbedCompanion : Output :=
  { path := utf8 "a_alias.go"
    content :=
      generatedLine ++
        utf8 "\n\npackage p\n\nfunc B() \x7b\x7d\n" }

/-
  The file is built for one system alone, and its companion
  for all: the line is read as a constraint, but not taken
  over.
-/
theorem header_misses_tabbed_constraint :
    ∃ f,
      Source.File.parse (utf8 "a.go") tabbedText = .ok f ∧
        (run Settings.standard .info false [f]).files =
          [tabbedCompanion] ∧
        utf8 "//go:build\tlinux" ∈ f.header ∧
        IsLine (utf8 "//go:build\tlinux") ∧
        Constraint.parse? (utf8 "//go:build\tlinux") =
          some (.tag (utf8 "linux")) ∧
        header f ≠
          headerWith (f.header.filter (IsLine ·)) := by
  have hRun :
      (Source.File.parse (utf8 "a.go") tabbedText).map
          (fun f =>
            ((run Settings.standard .info false [f]).files,
              f.header, header f)) =
        .ok
          ([tabbedCompanion],
            [utf8 "//go:build\tlinux", [0x0a]],
            generatedLine ++ utf8 "\n\n") := by
    decide +kernel
  rcases Source.File.exists_of_map_parse hRun with
    ⟨f, hParse, hSame⟩
  simp only [Prod.mk.injEq] at hSame
  rcases hSame with ⟨hFiles, hLines, hHeader⟩
  refine ⟨f, hParse, hFiles, ?_, ?_, ?_, ?_⟩
  · rw [hLines]
    exact List.mem_cons_self
  · exact @IsLine.goBuild 0x09 (utf8 "linux") rfl
  · decide +kernel
  · rw [hHeader, hLines]
    decide

end Generate

end Namesake
