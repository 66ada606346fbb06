import Namesake.Generate.Run
import Namesake.Proofs.Diagnostics

/-
  How the outcome of a list of files is made of the outcomes
  of its files.  Files do not influence each other, except
  that a text which cannot be made stops everything.

  Main declarations:
    * `Generate.IsPrinted` and `Generate.Breaks`
    * `Generate.step_cases`
    * `Generate.run_of_not_breaks`
    * `Generate.run_of_breaks`
    * `Generate.run_treats_files_independently`
-/

namespace Namesake

namespace Generate

------------------------------------------------------------
-- Reports
------------------------------------------------------------

/- The diagnostics of files, merged in order. -/
def reported
    (s : Settings)
    (files : List Source.File) : Diagnostics :=
  files.foldr
    (fun file ds => (expandFile s file).diagnostics.merge ds)
    {}

theorem reported_append
    (s : Settings)
    (fs gs : List Source.File) :
    reported s (fs ++ gs) =
      (reported s fs).merge (reported s gs) := by
  induction fs with
  | nil => rfl
  | cons file fs ih =>
      have hCons (files : List Source.File) :
          reported s (file :: files) =
            (expandFile s file).diagnostics.merge
              (reported s files) :=
        rfl
      rw [List.cons_append, hCons, hCons, ih,
        Diagnostics.merge_assoc]

theorem reported_singleton
    (s : Settings)
    (file : Source.File) :
    reported s [file] = (expandFile s file).diagnostics :=
  Diagnostics.merge_empty _

------------------------------------------------------------
-- One File
------------------------------------------------------------

/- A file is printed if it has expansions and no errors. -/
def IsPrinted
    (s : Settings)
    (file : Source.File) : Prop :=
  (expandFile s file).diagnostics.hasErrors = false ∧
    (expandFile s file).expansions ≠ []

section

-- nothing depends on how imports are tidied
variable [Imports.Tidier]

/- The text of a printed file cannot be made. -/
def Breaks
    (s : Settings)
    (file : Source.File)
    (cause : RenderError) : Prop :=
  IsPrinted s file ∧
    render s (expandFile s file) = .error cause

/- The output of a file, if it is printed and has a text. -/
def outputOf
    (s : Settings)
    (file : Source.File) : List Output :=
  let r := expandFile s file
  if r.diagnostics.hasErrors || r.expansions.isEmpty then
    []
  else
    (render s r).toOption.toList

theorem outputOf_of_not_printed
    {s : Settings}
    {file : Source.File}
    (h : ¬ IsPrinted s file) :
    outputOf s file = [] := by
  unfold outputOf
  simp only
  split
  · rfl
  · rename_i hSkip
    simp only [Bool.or_eq_true, not_or,
      Bool.not_eq_true] at hSkip
    exact absurd
      ⟨hSkip.1, List.isEmpty_eq_false_iff.mp hSkip.2⟩ h

theorem outputOf_of_printed
    {s : Settings}
    {file : Source.File}
    (h : IsPrinted s file) :
    outputOf s file =
      (render s (expandFile s file)).toOption.toList := by
  simp [outputOf, h.1, h.2]

/- A printed file whose text can be made has one output. -/
theorem exists_output_of_not_breaks
    {s : Settings}
    {file : Source.File}
    (hPrinted : IsPrinted s file)
    (hRenders : ∀ cause, ¬ Breaks s file cause) :
    ∃ output,
      render s (expandFile s file) = .ok output ∧
        outputOf s file = [output] := by
  have hOutput := outputOf_of_printed hPrinted
  cases hRender : render s (expandFile s file) with
  | ok output =>
      rw [hRender] at hOutput
      exact ⟨output, rfl, hOutput⟩
  | error cause =>
      exact absurd ⟨hPrinted, hRender⟩ (hRenders cause)

/-
  A file adds its diagnostics in any case.  It adds its
  output, if it has one, unless it breaks and stops the run.
-/
theorem step_cases
    (s : Settings)
    (shared : Log.Level)
    {o : Outcome}
    (file : Source.File)
    (hRunning : o.error = none) :
    (step s shared o file).diagnostics =
        o.diagnostics.merge (expandFile s file).diagnostics ∧
      (((∀ cause, ¬ Breaks s file cause) ∧
          (step s shared o file).outputs =
            o.outputs ++ outputOf s file ∧
          (step s shared o file).error = none) ∨
        ∃ cause,
          Breaks s file cause ∧
            (step s shared o file).error =
              some (.rendering file.path cause)) := by
  by_cases hPrinted : IsPrinted s file
  · have hOutput := outputOf_of_printed hPrinted
    have hErrors := hPrinted.1
    have hEmpty :=
      List.isEmpty_eq_false_iff.mpr hPrinted.2
    cases hRender : render s (expandFile s file) with
    | ok output =>
        rw [hRender] at hOutput
        refine ⟨?_, Or.inl ⟨?_, ?_, ?_⟩⟩
        · simp [step, hErrors, hEmpty, hRender]
        · intro cause hBreaks
          rw [hBreaks.2] at hRender
          cases hRender
        · simp [step, hErrors, hEmpty, hRender, hOutput,
            Except.toOption]
        · simp [step, hErrors, hEmpty, hRender, hRunning]
    | error cause =>
        refine ⟨?_, Or.inr ⟨cause, ⟨hPrinted, hRender⟩, ?_⟩⟩
        · simp [step, hErrors, hEmpty, hRender]
        · simp [step, hErrors, hEmpty, hRender]
  · have hOutput := outputOf_of_not_printed hPrinted
    have hStep :
        (step s shared o file).diagnostics =
            o.diagnostics.merge
              (expandFile s file).diagnostics ∧
          (step s shared o file).outputs = o.outputs ∧
          (step s shared o file).error = none := by
      unfold step
      simp only
      split
      · exact ⟨rfl, rfl, hRunning⟩
      · rename_i hErrors
        split
        · exact ⟨rfl, rfl, hRunning⟩
        · rename_i hEmpty
          simp only [Bool.not_eq_true] at hErrors hEmpty
          exact absurd
            ⟨hErrors, List.isEmpty_eq_false_iff.mp hEmpty⟩
            hPrinted
    refine ⟨hStep.1, Or.inl ⟨?_, ?_, hStep.2.2⟩⟩
    · intro cause hBreaks
      exact hPrinted hBreaks.1
    · rw [hOutput, List.append_nil]
      exact hStep.2.1

------------------------------------------------------------
-- Lists of Files
------------------------------------------------------------

/- Files none of which breaks are all taken. -/
theorem runFrom_of_not_breaks
    {s : Settings}
    (shared : Log.Level)
    {o : Outcome}
    {files : List Source.File}
    (rest : List Source.File)
    (hRunning : o.error = none)
    (hRenders :
      ∀ file ∈ files, ∀ cause, ¬ Breaks s file cause) :
    ∃ o' : Outcome,
      runFrom s shared o (files ++ rest) =
          runFrom s shared o' rest ∧
        o'.error = none ∧
        o'.outputs = o.outputs ++ files.flatMap (outputOf s) ∧
        o'.diagnostics =
          o.diagnostics.merge (reported s files) := by
  induction files generalizing o with
  | nil =>
      refine ⟨o, rfl, hRunning, ?_, ?_⟩
      · simp
      · exact (Diagnostics.merge_empty _).symm
  | cons file files ih =>
      rcases step_cases s shared file hRunning with
        ⟨hDiags, ⟨_, hOutputs, hError⟩ | ⟨cause, hBreaks, _⟩⟩
      · rcases ih hError fun other hOther =>
            hRenders other (by simp [hOther]) with
          ⟨o', hRun, hError', hOutputs', hDiags'⟩
        refine ⟨o', ?_, hError', ?_, ?_⟩
        · simp only [List.cons_append, runFrom, hError,
            Option.isSome_none, Bool.false_eq_true, if_false]
          exact hRun
        · rw [hOutputs', hOutputs, List.append_assoc,
            List.flatMap_cons]
        · rw [hDiags', hDiags, Diagnostics.merge_assoc]
          rfl
      · exact absurd hBreaks (hRenders file (by simp) cause)

/- The outcome of files none of which breaks. -/
theorem run_of_not_breaks
    {s : Settings}
    (shared : Log.Level)
    {files : List Source.File}
    (hRenders :
      ∀ file ∈ files, ∀ cause, ¬ Breaks s file cause) :
    (run s shared false files).error = none ∧
      (run s shared false files).files =
        files.flatMap (outputOf s) ∧
      (run s shared false files).diagnostics =
        reported s files := by
  rcases runFrom_of_not_breaks shared (o := {}) [] rfl
      hRenders with
    ⟨o', hRun, hError, hOutputs, hDiags⟩
  have hOutcome : run s shared false files = o' := by
    rw [List.append_nil] at hRun
    exact hRun
  rw [hOutcome]
  refine ⟨hError, ?_, hDiags⟩
  rw [Outcome.files, hError]
  exact hOutputs

/- The outcome of files of which the first one that breaks is `bad`. -/
theorem run_of_breaks
    {s : Settings}
    (shared : Log.Level)
    {before : List Source.File}
    {bad : Source.File}
    {cause : RenderError}
    (after : List Source.File)
    (hRenders :
      ∀ file ∈ before, ∀ cause, ¬ Breaks s file cause)
    (hBreaks : Breaks s bad cause) :
    (run s shared false (before ++ bad :: after)).error =
        some (.rendering bad.path cause) ∧
      (run s shared false (before ++ bad :: after)).diagnostics =
        reported s (before ++ [bad]) := by
  rcases runFrom_of_not_breaks shared (o := {})
      (bad :: after) rfl hRenders with
    ⟨o', hRun, hError, _, hDiags⟩
  rcases step_cases s shared bad hError with
    ⟨hStep, ⟨hRenders', _⟩ | ⟨cause', hBreaks', hStop⟩⟩
  · exact absurd hBreaks (hRenders' cause)
  · have hCause : cause' = cause := by
      have hSame := hBreaks'.2.symm.trans hBreaks.2
      exact Except.error.inj hSame
    subst hCause
    have hOutcome :
        run s shared false (before ++ bad :: after) =
          step s shared o' bad := by
      unfold run
      rw [Bool.false_and, if_neg Bool.false_ne_true, hRun]
      simp only [runFrom, hStop, Option.isSome_some, if_true]
    rw [hOutcome]
    refine ⟨hStop, ?_⟩
    rw [hStep, hDiags, reported_append, reported_singleton,
      Diagnostics.empty_merge]

/- If some file breaks, one of them is the first. -/
theorem exists_first_breaks
    {s : Settings}
    {files : List Source.File}
    (h : ∃ file ∈ files, ∃ cause, Breaks s file cause) :
    ∃ before bad after cause,
      files = before ++ bad :: after ∧
        (∀ file ∈ before, ∀ cause, ¬ Breaks s file cause) ∧
        Breaks s bad cause := by
  induction files with
  | nil =>
      rcases h with ⟨_, hMem, _⟩
      cases hMem
  | cons file files ih =>
      by_cases hHere : ∃ cause, Breaks s file cause
      · rcases hHere with ⟨cause, hBreaks⟩
        exact ⟨[], file, files, cause, rfl, by simp, hBreaks⟩
      · have hLater :
            ∃ other ∈ files, ∃ cause, Breaks s other cause := by
          rcases h with ⟨other, hMem, hBreaks⟩
          rcases List.mem_cons.mp hMem with rfl | hTail
          · exact absurd hBreaks hHere
          · exact ⟨other, hTail, hBreaks⟩
        rcases ih hLater with
          ⟨before, bad, after, cause, rfl, hBefore, hBad⟩
        refine ⟨file :: before, bad, after, cause, rfl,
          ?_, hBad⟩
        intro other hOther cause' hBreaks
        rcases List.mem_cons.mp hOther with rfl | hTail
        · exact hHere ⟨cause', hBreaks⟩
        · exact hBefore other hTail cause' hBreaks

------------------------------------------------------------
-- Independence
------------------------------------------------------------

/-
  As long as no file breaks, the outcome of two lists of
  files is that of the first followed by that of the second.
  A single file has one output exactly if it is printed, and
  its diagnostics are always reported.  If a file breaks,
  there is no output, and the diagnostics are those of the
  files up to the first one that breaks.
-/
theorem run_treats_files_independently
    (s : Settings)
    (shared : Log.Level) :
    (∀ fs gs : List Source.File,
        (∀ file ∈ fs ++ gs, ∀ cause,
          ¬ Breaks s file cause) →
        (run s shared false (fs ++ gs)).error = none ∧
          (run s shared false (fs ++ gs)).files =
            (run s shared false fs).files ++
              (run s shared false gs).files ∧
          (run s shared false (fs ++ gs)).diagnostics =
            (run s shared false fs).diagnostics.merge
              (run s shared false gs).diagnostics) ∧
      (∀ file : Source.File,
        (run s shared false [file]).diagnostics =
            (expandFile s file).diagnostics ∧
          (IsPrinted s file →
            (∀ cause, ¬ Breaks s file cause) →
            ∃ output,
              render s (expandFile s file) = .ok output ∧
                (run s shared false [file]).files =
                  [output]) ∧
          (¬ IsPrinted s file →
            (run s shared false [file]).files = [])) ∧
      ∀ files : List Source.File,
        (∃ file ∈ files, ∃ cause, Breaks s file cause) →
        ∃ before bad after cause,
          files = before ++ bad :: after ∧
            (∀ file ∈ before, ∀ cause,
              ¬ Breaks s file cause) ∧
            Breaks s bad cause ∧
            (run s shared false files).error =
              some (.rendering bad.path cause) ∧
            (run s shared false files).files = [] ∧
            (run s shared false files).diagnostics =
              reported s (before ++ [bad]) := by
  refine ⟨?_, ?_, ?_⟩
  · intro fs gs hRenders
    have hLeft := run_of_not_breaks shared fun file hMem =>
      hRenders file (List.mem_append_left gs hMem)
    have hRight := run_of_not_breaks shared fun file hMem =>
      hRenders file (List.mem_append_right fs hMem)
    rcases run_of_not_breaks shared hRenders with
      ⟨hError, hFiles, hDiags⟩
    refine ⟨hError, ?_, ?_⟩
    · rw [hFiles, hLeft.2.1, hRight.2.1, List.flatMap_append]
    · rw [hDiags, hLeft.2.2, hRight.2.2, reported_append]
  · intro file
    have hSingle
        (hRenders : ∀ cause, ¬ Breaks s file cause) :=
      run_of_not_breaks shared
        (show ∀ f ∈ [file], ∀ cause, ¬ Breaks s f cause by
          simpa using hRenders)
    refine ⟨?_, ?_, ?_⟩
    · by_cases hBreaks : ∃ cause, Breaks s file cause
      · rcases hBreaks with ⟨cause, hBreaks⟩
        have hNone :
            ∀ f ∈ ([] : List Source.File), ∀ cause,
              ¬ Breaks s f cause := by
          simp
        have hRun := run_of_breaks shared [] hNone hBreaks
        exact hRun.2.trans (reported_singleton s file)
      · have hRun := hSingle (not_exists.mp hBreaks)
        exact hRun.2.2.trans (reported_singleton s file)
    · intro hPrinted hRenders
      rcases exists_output_of_not_breaks hPrinted hRenders
        with ⟨output, hRender, hOutput⟩
      refine ⟨output, hRender, ?_⟩
      rw [(hSingle hRenders).2.1, List.flatMap_singleton,
        hOutput]
    · intro hSkip
      have hRun := hSingle fun cause hBreaks =>
        hSkip hBreaks.1
      rw [hRun.2.1, List.flatMap_singleton,
        outputOf_of_not_printed hSkip]
  · intro files hSome
    rcases exists_first_breaks hSome with
      ⟨before, bad, after, cause, rfl, hBefore, hBad⟩
    rcases run_of_breaks shared after hBefore hBad with
      ⟨hError, hDiags⟩
    refine ⟨before, bad, after, cause, rfl, hBefore, hBad,
      hError, ?_, hDiags⟩
    simp [Outcome.files, hError]

end

/- A file of one function with one comment line. -/
def functionFile
    (line : String) : Source.File :=
  { path := utf8 "a.go"
    header := []
    preamble := utf8 "package p"
    package := utf8 "p"
    generated := false
    items :=
      [{ decl :=
           { body := .func (utf8 "F") none
             start := [utf8 line]
             before := .emptyLine
             written :=
               { head := utf8 "func "
                 tail := some (utf8 "() \x7b\x7d") } }
         doc := [{ text := utf8 line }]
         locate := .unknown }] }

/- The standard settings, with outputs in place. -/
def inPlaceSettings : Settings :=
  { Settings.standard with mode := Settings.inPlace }

/- A NUL in a note makes a comment that no text may have. -/
def nulNote : String :=
  "// @alias(deprecated(B, note=\"\\x00\"))"

theorem run_skips_faulty_and_stops_at_nul :
    (∃ output,
        (run inPlaceSettings .info false
          ([functionFile "// @alias(A)"] ++
            [functionFile "// @alias()"])).files =
          [output]) ∧
      (run inPlaceSettings .info false
        [functionFile "// @alias(A)",
          functionFile nulNote]).files = [] := by
  have hGood :
      (render inPlaceSettings
        (expandFile inPlaceSettings
          (functionFile "// @alias(A)"))).isOk = true := by
    decide +kernel
  have hFaulty :
      (expandFile inPlaceSettings
        (functionFile "// @alias()")).diagnostics.hasErrors =
        true := by
    decide +kernel
  have hNul :
      (expandFile inPlaceSettings
            (functionFile nulNote)).diagnostics.hasErrors =
          false ∧
        (expandFile inPlaceSettings
            (functionFile nulNote)).expansions.isEmpty =
          false ∧
        (render inPlaceSettings
          (expandFile inPlaceSettings
            (functionFile nulNote))).isOk = false := by
    decide +kernel
  have hGoodPrinted :
      IsPrinted inPlaceSettings
        (functionFile "// @alias(A)") :=
    ⟨by decide +kernel,
      List.isEmpty_eq_false_iff.mp (by decide +kernel)⟩
  have hGoodRenders :
      ∀ cause,
        ¬ Breaks inPlaceSettings
          (functionFile "// @alias(A)") cause := by
    intro cause hBreaks
    rw [hBreaks.2] at hGood
    cases hGood
  have hFaultySkip :
      ¬ IsPrinted inPlaceSettings
        (functionFile "// @alias()") := by
    intro hPrinted
    rw [hPrinted.1] at hFaulty
    cases hFaulty
  have hNulBreaks :
      ∃ cause,
        Breaks inPlaceSettings (functionFile nulNote)
          cause := by
    cases hRender :
        render inPlaceSettings
          (expandFile inPlaceSettings
            (functionFile nulNote)) with
    | ok output =>
        rw [hRender] at hNul
        cases hNul.2.2
    | error cause =>
        exact ⟨cause,
          ⟨hNul.1, List.isEmpty_eq_false_iff.mp hNul.2.1⟩,
          hRender⟩
  rcases run_treats_files_independently inPlaceSettings .info
    with ⟨hAppend, hSingle, hBroken⟩
  refine ⟨?_, ?_⟩
  · rcases (hSingle (functionFile "// @alias(A)")).2.1
        hGoodPrinted hGoodRenders with
      ⟨output, _, hFiles⟩
    have hBoth :=
      hAppend [functionFile "// @alias(A)"]
        [functionFile "// @alias()"] (by
          intro file hMem cause hBreaks
          simp only [List.cons_append, List.nil_append,
            List.mem_cons, List.not_mem_nil, or_false]
            at hMem
          rcases hMem with rfl | rfl
          · exact hGoodRenders cause hBreaks
          · exact hFaultySkip hBreaks.1)
    refine ⟨output, ?_⟩
    rw [hBoth.2.1, hFiles,
      (hSingle (functionFile "// @alias()")).2.2 hFaultySkip]
    rfl
  · rcases hBroken
        [functionFile "// @alias(A)", functionFile nulNote]
        ⟨functionFile nulNote, by simp, hNulBreaks⟩ with
      ⟨_, _, _, _, _, _, _, _, hFiles, _⟩
    exact hFiles

end Generate

end Namesake
