import Mathlib.Data.List.Basic
import Namesake.Proofs.Generate.Independence
import Namesake.Proofs.Generate.Rendering
import Namesake.Proofs.Text.Bytes

/-
  The paths of companions.  A companion never has the path of
  the file it belongs to, but it has that of another file if
  the other file is named like a companion; nothing keeps a
  run from replacing such a file.

  Main declarations:
    * `Settings.companionPath_append`
    * `Settings.isSuffix_of_validate`
    * `Generate.mem_files_iff`
    * `Generate.path_of_mem_outputOf`
    * `Generate.companion_replaces_source_iff`
-/

namespace Namesake

------------------------------------------------------------
-- Suffixes
------------------------------------------------------------

namespace Settings

/- The ending of source files. -/
def sourceEnding : Bytes :=
  utf8 ".go"

/- The suffix takes the place of the ending of sources. -/
theorem companionPath_append
    (stem suffix : Bytes) :
    companionPath (stem ++ sourceEnding) suffix =
      stem ++ suffix := by
  rw [companionPath, sourceEnding, Bytes.trimEnding_append]

/- Valid settings have a suffix of the required form. -/
theorem isSuffix_of_validate
    {s : Settings}
    (h : s.validate = .ok ()) :
    isSuffix s.suffix = true := by
  unfold validate at h
  split at h
  · cases h
  · split at h
    · cases h
    · split at h
      · cases h
      · rename_i hSuffix
        simpa using hSuffix

/- The bare ending is refused, as it names the source itself. -/
theorem ne_sourceEnding_of_isSuffix
    {suffix : Bytes}
    (h : isSuffix suffix = true) :
    suffix ≠ sourceEnding := by
  simp only [isSuffix, Bool.and_eq_true, bne_iff_ne] at h
  exact h.1.1.2

end Settings

namespace Generate

open Settings (companionPath sourceEnding)

section

variable [Imports.Tidier]

------------------------------------------------------------
-- Outputs
------------------------------------------------------------

/- The outputs of a run in which no text fails are those of its files. -/
theorem mem_files_iff
    {s : Settings}
    (shared : Log.Level)
    {files : List Source.File}
    {o : Output} :
    o ∈ (run s shared false files).files ↔
      (∀ file ∈ files, ∀ cause, ¬ Breaks s file cause) ∧
        ∃ file ∈ files, o ∈ outputOf s file := by
  by_cases hBreaks :
      ∃ file ∈ files, ∃ cause, Breaks s file cause
  · have hNone : (run s shared false files).files = [] := by
      rcases exists_first_breaks hBreaks with
        ⟨before, bad, after, cause, rfl, hBefore, hBad⟩
      have hRun := run_of_breaks shared after hBefore hBad
      simp [Outcome.files, hRun.1]
    constructor
    · intro hMem
      rw [hNone] at hMem
      cases hMem
    · rintro ⟨hRenders, _⟩
      rcases hBreaks with ⟨file, hMem, cause, hBad⟩
      exact absurd hBad (hRenders file hMem cause)
  · have hRenders :
        ∀ file ∈ files, ∀ cause, ¬ Breaks s file cause := by
      intro file hMem cause hBad
      exact hBreaks ⟨file, hMem, cause, hBad⟩
    have hFiles := (run_of_not_breaks shared hRenders).2.1
    rw [hFiles, List.mem_flatMap]
    exact ⟨fun h => ⟨hRenders, h⟩, fun h => h.2⟩

/- Only printed files have an output, which is their text. -/
theorem mem_outputOf_iff
    {s : Settings}
    {file : Source.File}
    {o : Output} :
    o ∈ outputOf s file ↔
      IsPrinted s file ∧
        render s (expandFile s file) = .ok o := by
  by_cases hPrinted : IsPrinted s file
  · rw [outputOf_of_printed hPrinted]
    cases render s (expandFile s file) with
    | error cause => simp [Except.toOption]
    | ok output =>
        simp [Except.toOption, hPrinted, eq_comm]
  · rw [outputOf_of_not_printed hPrinted]
    simp [hPrinted]

theorem path_of_mem_outputOf
    {s : Settings}
    {file : Source.File}
    {o : Output}
    (hMode : s.mode = Settings.companion)
    (h : o ∈ outputOf s file) :
    o.path = companionPath file.path s.suffix := by
  have hRender := (mem_outputOf_iff.mp h).2
  have hOther : (s.mode == Settings.inPlace) = false := by
    rw [hMode]
    decide
  have hPath := path_of_render hRender
  rw [hOther, if_neg Bool.false_ne_true] at hPath
  exact hPath

------------------------------------------------------------
-- Replaced Sources
------------------------------------------------------------

/-
  A run that writes companions replaces one of its sources
  exactly if no text fails, and a file that has an output and
  a second file share a stem, to which the second one adds the
  suffix of companions.
-/
theorem companion_replaces_source_iff
    {s : Settings}
    (shared : Log.Level)
    {files : List Source.File}
    (hValid : s.validate = .ok ())
    (hMode : s.mode = Settings.companion)
    (hSources :
      ∀ f ∈ files, f.path.endsWith sourceEnding = true) :
    (∃ o ∈ (run s shared false files).files,
        ∃ g ∈ files, o.path = g.path) ↔
      (∀ f ∈ files, ∀ cause, ¬ Breaks s f cause) ∧
        ∃ f ∈ files,
          IsPrinted s f ∧
            ∃ g ∈ files,
              g ≠ f ∧
                ∃ stem,
                  f.path = stem ++ sourceEnding ∧
                    g.path = stem ++ s.suffix := by
  have hSuffix :=
    Settings.ne_sourceEnding_of_isSuffix
      (Settings.isSuffix_of_validate hValid)
  constructor
  · rintro ⟨o, hOutput, g, hNeighbour, hSame⟩
    rcases (mem_files_iff shared).mp hOutput with
      ⟨hRenders, f, hFile, hMem⟩
    have hPrinted := (mem_outputOf_iff.mp hMem).1
    have hPath := path_of_mem_outputOf hMode hMem
    rcases List.isSuffixOf_iff_suffix.mp (hSources f hFile) with
      ⟨stem, hStem⟩
    have hCompanion : g.path = stem ++ s.suffix := by
      rw [← hSame, hPath, ← hStem,
        Settings.companionPath_append]
    refine ⟨hRenders, f, hFile, hPrinted, g, hNeighbour, ?_,
      stem, hStem.symm, hCompanion⟩
    -- a file is not its own companion
    rintro rfl
    rw [← hStem] at hCompanion
    exact hSuffix (List.append_cancel_left hCompanion).symm
  · rintro ⟨hRenders, f, hFile, hPrinted, g, hNeighbour, _,
      stem, hStem, hCompanion⟩
    rcases exists_output_of_not_breaks hPrinted
        (hRenders f hFile) with
      ⟨o, _, hOutput⟩
    have hMem : o ∈ outputOf s f := by
      rw [hOutput]
      exact List.mem_singleton_self o
    refine ⟨o, ?_, g, hNeighbour, ?_⟩
    · exact (mem_files_iff shared).mpr
        ⟨hRenders, f, hFile, hMem⟩
    · rw [path_of_mem_outputOf hMode hMem, hStem,
        Settings.companionPath_append, hCompanion]

end

/- The path and the text of a file with one directive. -/
def annotatedPath : Bytes :=
  utf8 "a.go"

def annotatedText : Bytes :=
  utf8 "package p\n\n// @alias(A)\nfunc F() \x7b\x7d\n"

/- A file written by hand that is named like its companion. -/
def neighbourPath : Bytes :=
  utf8 "a_alias.go"

def neighbourText : Bytes :=
  utf8 "package p\n\nfunc G() \x7b\x7d\n"

/- What a run on the two files gives. -/
theorem exists_run_of_neighbours :
    ∃ annotated neighbour,
      Source.File.parse annotatedPath annotatedText =
          .ok annotated ∧
        Source.File.parse neighbourPath neighbourText =
          .ok neighbour ∧
        annotated.path = annotatedPath ∧
        neighbour.path = neighbourPath ∧
        annotated.generated = false ∧
        neighbour.generated = false ∧
        (run Settings.standard .info false
          [annotated, neighbour]).files.map Output.path =
            [neighbourPath] := by
  have hRun :
      ((Source.File.parse annotatedPath annotatedText).bind
          fun f =>
            (Source.File.parse neighbourPath neighbourText).map
              fun g =>
                (f.path, g.path, f.generated, g.generated,
                  (run Settings.standard .info false
                    [f, g]).files.map Output.path)) =
        .ok
          (annotatedPath, neighbourPath, false, false,
            [neighbourPath]) := by
    decide +kernel
  cases hFirst :
      Source.File.parse annotatedPath annotatedText with
  | error e =>
      rw [hFirst] at hRun
      cases hRun
  | ok annotated =>
      cases hSecond :
          Source.File.parse neighbourPath neighbourText with
      | error e =>
          rw [hFirst, hSecond] at hRun
          cases hRun
      | ok neighbour =>
          rw [hFirst, hSecond] at hRun
          simp only [Except.bind, Except.map,
            Except.ok.injEq, Prod.mk.injEq] at hRun
          exact ⟨annotated, neighbour, rfl, rfl, hRun⟩

/- Two sources, of which the first one's companion is the second. -/
theorem companion_replaces_neighbour :
    ∃ annotated neighbour output,
      Source.File.parse annotatedPath annotatedText =
          .ok annotated ∧
        Source.File.parse neighbourPath neighbourText =
          .ok neighbour ∧
        annotated.path ≠ neighbour.path ∧
        annotated.generated = false ∧
        neighbour.generated = false ∧
        Settings.standard.validate = .ok () ∧
        Settings.standard.mode = Settings.companion ∧
        output ∈
          (run Settings.standard .info false
            [annotated, neighbour]).files ∧
        output.path = neighbour.path := by
  rcases exists_run_of_neighbours with
    ⟨annotated, neighbour, hFirst, hSecond, hPath, hOther,
      hWritten, hByHand, hPaths⟩
  have hMem :
      neighbourPath ∈
        (run Settings.standard .info false
          [annotated, neighbour]).files.map Output.path := by
    rw [hPaths]
    exact List.mem_singleton_self _
  rcases List.mem_map.mp hMem with ⟨output, hOutput, hSame⟩
  refine ⟨annotated, neighbour, output, hFirst, hSecond, ?_,
    hWritten, hByHand, by decide +kernel, rfl, hOutput, ?_⟩
  · rw [hPath, hOther]
    decide
  · rw [hOther]
    exact hSame

theorem companion_replaces_source_with_stem :
    ∃ files : List Source.File,
      (∀ f ∈ files, f.path.endsWith sourceEnding = true) ∧
        Settings.standard.validate = .ok () ∧
        Settings.standard.mode = Settings.companion ∧
        ∃ f ∈ files,
          IsPrinted Settings.standard f ∧
            ∃ g ∈ files,
              g ≠ f ∧
                ∃ stem,
                  f.path = stem ++ sourceEnding ∧
                    g.path = stem ++ Settings.standard.suffix := by
  rcases exists_run_of_neighbours with
    ⟨annotated, neighbour, _, _, hPath, hOther, _, _, hPaths⟩
  have hValid : Settings.standard.validate = .ok () := by
    decide +kernel
  have hMode : Settings.standard.mode = Settings.companion :=
    rfl
  have hSources :
      ∀ f ∈ [annotated, neighbour],
        f.path.endsWith sourceEnding = true := by
    intro f hMem
    rcases List.mem_cons.mp hMem with rfl | hLast
    · rw [hPath]
      decide
    · rw [List.mem_singleton.mp hLast, hOther]
      decide
  have hMem :
      neighbourPath ∈
        (run Settings.standard .info false
          [annotated, neighbour]).files.map Output.path := by
    rw [hPaths]
    exact List.mem_singleton_self _
  rcases List.mem_map.mp hMem with ⟨output, hOutput, hSame⟩
  have hReplaced :=
    (companion_replaces_source_iff .info hValid hMode
      hSources).mp
      ⟨output, hOutput, neighbour, by simp,
        hSame.trans hOther.symm⟩
  exact ⟨[annotated, neighbour], hSources, hValid, hMode,
    hReplaced.2⟩

end Generate

end Namesake
