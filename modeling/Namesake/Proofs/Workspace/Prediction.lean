import Mathlib.Data.List.Basic
import Namesake.Proofs.Workspace.Tasks

/-
  Checking tells what a run will report.  Both tasks prepare
  in the same way, both merge the diagnostics of the files in
  order, and both fail exactly if there is an error among them.

  Main declarations:
    * `Generate.hasErrors_reported_eq_false_iff`
    * `Workspace.check_predicts_run`
-/

namespace Namesake

------------------------------------------------------------
-- Errors of Files
------------------------------------------------------------

theorem Generate.hasErrors_reported_eq_false_iff
    (s : Settings)
    (files : List Source.File) :
    (reported s files).hasErrors = false ↔
      ∀ f ∈ files,
        (expandFile s f).diagnostics.hasErrors = false := by
  simp only [Diagnostics.hasErrors_eq_false_iff]
  induction files with
  | nil => simp [reported]
  | cons file files ih =>
      have hCons :
          (reported s (file :: files)).errors =
            (expandFile s file).diagnostics.errors ++
              (reported s files).errors :=
        rfl
      rw [hCons, List.append_eq_nil_iff, ih,
        List.forall_mem_cons]

namespace Workspace

------------------------------------------------------------
-- Agreement
------------------------------------------------------------

/- A failed preparation ends both tasks. -/
theorem tasks_of_prepare_error
    [Packages.Loader]
    [Imports.Tidier]
    {o : Options}
    (stop : Option Nat)
    {w w' : Workspace}
    {e : Error}
    (h : prepare o w = .error e w') :
    runUntil o stop w = .error e w' ∧
      checkUntil o stop w = .error e w' :=
  ⟨bind_of_error _ h, bind_of_error _ h⟩

/- What a run gives if every text can be made. -/
theorem run_of_not_breaks
    [Packages.Loader]
    [Imports.Tidier]
    {o : Options}
    {w w' : Workspace}
    {s : Settings}
    {files : List Source.File}
    (hPrepare : prepare o w = .ok (s, files) w')
    (hRenders :
      ∀ f ∈ files, ∀ cause, ¬ Generate.Breaks s f cause) :
    run o false w =
      let r := Generate.run s w'.level false files
      let ds := Generate.reported s files
      let w₁ := w'.withErrorText (r.log ++ reportText ds)
      if ds.hasErrors then
        .error (.diagnostics ds.errors.length) w₁
      else
        deliver o r.outputs w₁ := by
  rcases Generate.run_of_not_breaks w'.level hRenders with
    ⟨hError, _, hDiags⟩
  have hDraft :
      (Generate.run s w'.level false files).unformatted? =
        none := by
    simp [Generate.Outcome.unformatted?, hError]
  have hRun :=
    runUntil_of_prepare none hPrepare (Or.inr hDraft)
  have hNone :
      Generate.runUntil s w'.level none files =
        Generate.run s w'.level false files :=
    rfl
  simp only [hNone, hError, hDiags] at hRun
  exact hRun

/-
  Checking predicts a run, dry or not, in which every text can
  be made.  If settings or sources cannot be had, both fail
  with the same error.  Otherwise both write the same report,
  each behind its own log; both return diagnostics, with the
  number of errors reported, exactly if there are any, and the
  check succeeds exactly if no file has an error.
-/
theorem check_predicts_run
    [Packages.Loader]
    [Imports.Tidier]
    (o : Options)
    (dry : Bool)
    (w : Workspace)
    (hRenders :
      ∀ s files w',
        prepare o w = .ok (s, files) w' →
          ∀ f ∈ files, ∀ cause, ¬ Generate.Breaks s f cause) :
    (∀ e w',
        prepare o w = .error e w' →
          run { o with dryRun := dry } false w = .error e w' ∧
            check o false w = .error e w') ∧
      ∀ s files w',
        prepare o w = .ok (s, files) w' →
          let ds := Generate.reported s files
          let r := Generate.run s w'.level false files
          (after (check o false) w).stderr =
              w'.stderr ++ expandedLog s w'.level files ++
                reportText ds ++
                (if ds.hasErrors then []
                  else checkedLine s w'.level files) ∧
            (∃ tail,
              (after (run { o with dryRun := dry } false)
                  w).stderr =
                  w'.stderr ++ r.log ++ reportText ds ++ tail ∧
                (tail = [] ∨
                  tail = writtenLines w'.level r.outputs)) ∧
            (∀ n,
              (outcome (check o false) w =
                    .error (.diagnostics n) ↔
                  outcome (run { o with dryRun := dry } false) w =
                    .error (.diagnostics n)) ∧
                (outcome (check o false) w =
                    .error (.diagnostics n) ↔
                  ds.hasErrors = true ∧ n = ds.errors.length)) ∧
            (outcome (check o false) w = .ok () ↔
              ∀ f ∈ files,
                (Generate.expandFile s f).diagnostics.hasErrors =
                  false) := by
  refine ⟨fun e w' hPrepare => ?_, fun s files w' hPrepare => ?_⟩
  · have hRun :=
      tasks_of_prepare_error (o := { o with dryRun := dry }) none
        hPrepare
    have hCheck := tasks_of_prepare_error none hPrepare
    exact ⟨hRun.1, hCheck.2⟩
  · have hRun :=
      run_of_not_breaks (o := { o with dryRun := dry }) hPrepare
        (hRenders s files w' hPrepare)
    have hCheck : check o false w = _ :=
      checkUntil_of_prepare none hPrepare
    have hFiles :=
      Generate.hasErrors_reported_eq_false_iff s files
    simp only [Option.filter_none] at hRun hCheck ⊢
    cases hErrors : (Generate.reported s files).hasErrors with
    | true =>
        rw [hErrors, if_pos rfl] at hRun hCheck
        rw [hErrors] at hFiles
        rw [after_of_error hCheck, after_of_error hRun,
          outcome_of_error hCheck, outcome_of_error hRun]
        refine ⟨?_, ⟨[], ?_, Or.inl rfl⟩, ?_, ?_⟩
        · simp [withErrorText, examined]
        · simp [withErrorText]
        · intro n
          simp [eq_comm]
        · rw [← hFiles]
          simp
    | false =>
        rw [hErrors, if_neg Bool.false_ne_true] at hRun hCheck
        rw [hErrors] at hFiles
        rcases deliver_cases { o with dryRun := dry }
            (Generate.run s w'.level false files).outputs
            (w'.withErrorText
              ((Generate.run s w'.level false files).log ++
                reportText (Generate.reported s files))) with
          ⟨hOutcome, tail, hTail, hText⟩
        rw [after_of_ok hCheck, after_of_eq hRun,
          outcome_of_ok hCheck, outcome_of_eq hRun]
        refine ⟨?_, ⟨tail, ?_, hText⟩, ?_, ?_⟩
        · simp [withErrorText, examined]
        · rw [hTail]
          simp [withErrorText]
        · intro n
          rcases hOutcome with hOk | ⟨e, hError, hWriting⟩
          · rw [hOk]
            simp
          · rw [hError]
            refine ⟨⟨by simp, ?_⟩, by simp⟩
            rintro ⟨⟩
            cases hWriting
        · rw [← hFiles]
          simp

/- Two files; the directive of the second one names no alias. -/
def faultyWorkspace : Workspace :=
  { tree :=
      { files :=
          [([utf8 "a.go"],
              utf8 "package p\n\n// @alias(A)\nfunc F() \x7b\x7d\n"),
            ([utf8 "b.go"],
              utf8 "package p\n\n// @alias()\nfunc G() \x7b\x7d\n")] } }

def bothFiles : Options :=
  { patterns := [utf8 "a.go", utf8 "b.go"] }

theorem check_predicts_faulty_run :
    outcome (check bothFiles false) faultyWorkspace =
        .error (.diagnostics 1) ∧
      outcome (run { bothFiles with dryRun := true } false)
          faultyWorkspace =
        .error (.diagnostics 1) := by
  have hTexts :
      (match prepare bothFiles faultyWorkspace with
        | .ok (s, files) _ =>
            files.all fun f =>
              (Generate.expandFile s f).diagnostics.hasErrors ||
                (Generate.render s
                  (Generate.expandFile s f)).isOk
        | .error _ _ => false) = true := by
    decide +kernel
  have hCheck :
      outcome (check bothFiles false) faultyWorkspace =
        .error (.diagnostics 1) := by
    decide +kernel
  cases hPrepare : prepare bothFiles faultyWorkspace with
  | error e w' =>
      rw [hPrepare] at hTexts
      cases hTexts
  | ok result w' =>
      rcases result with ⟨s, files⟩
      rw [hPrepare] at hTexts
      have hRenders :
          ∀ s' files' w'',
            prepare bothFiles faultyWorkspace =
                .ok (s', files') w'' →
              ∀ f ∈ files', ∀ cause,
                ¬ Generate.Breaks s' f cause := by
        intro s' files' w'' hSame f hMem cause hBreaks
        rw [hPrepare] at hSame
        cases hSame
        have hText := List.all_eq_true.mp hTexts f hMem
        rw [hBreaks.1.1, hBreaks.2] at hText
        cases hText
      have hAgree :=
        (check_predicts_run bothFiles true faultyWorkspace
          hRenders).2 s files w' hPrepare
      exact ⟨hCheck, (hAgree.2.2.1 1).1.mp hCheck⟩

end Workspace

end Namesake
