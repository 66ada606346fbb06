import Namesake.Proofs.Generate.Accounting
import Namesake.Proofs.Generate.Independence

/-
  What the lint and output settings can change.  Two runs with
  the same directive name are compared stage by stage: they
  expand and reject the same, and only their warnings differ.

  Main declarations:
    * `Diagnostics.quiet`
    * `Generate.expandSite_agree`
    * `Generate.expandFile_agree`
    * `Generate.lintWarnings`
    * `Generate.runFrom_agree`
    * `Generate.lint_and_output_keep_expansions`
-/

namespace Namesake

------------------------------------------------------------
-- Diagnostics without Warnings
------------------------------------------------------------

namespace Diagnostics

/- A collection without its warnings. -/
def quiet
    (ds : Diagnostics) : Diagnostics :=
  { ds with warnings := [] }

@[simp] theorem quiet_merge
    (ds other : Diagnostics) :
    (ds.merge other).quiet = ds.quiet.merge other.quiet :=
  rfl

@[simp] theorem errors_quiet
    (ds : Diagnostics) :
    ds.quiet.errors = ds.errors :=
  rfl

@[simp] theorem hasErrors_quiet
    (ds : Diagnostics) :
    ds.quiet.hasErrors = ds.hasErrors :=
  rfl

/- Where a diagnostic is filed does not depend on the warnings. -/
theorem quiet_add
    (ds : Diagnostics)
    (d : Diagnostic) :
    (ds.add d).quiet = (ds.quiet.add d).quiet := by
  unfold add
  split
  · rfl
  · rfl
  · rfl

/- Filing warnings adds nothing else. -/
theorem quiet_foldl_add
    (ds : Diagnostics)
    {warnings : List Diagnostic}
    (h : ∀ d ∈ warnings, d.severity = .warning) :
    (warnings.foldl add ds).quiet = ds.quiet := by
  induction warnings generalizing ds with
  | nil => rfl
  | cons d warnings ih =>
      rw [List.forall_mem_cons] at h
      rw [List.foldl_cons, ih (ds.add d) h.2]
      simp [add, h.1, quiet]

@[simp] theorem warnings_merge
    (ds other : Diagnostics) :
    (ds.merge other).warnings =
      ds.warnings ++ other.warnings :=
  rfl

theorem warnings_add_of_error
    (ds : Diagnostics)
    {d : Diagnostic}
    (h : d.severity = .error) :
    (ds.add d).warnings = ds.warnings := by
  simp [add, h]

/- Warnings are filed in order. -/
theorem warnings_foldl_add
    (ds : Diagnostics)
    {warnings : List Diagnostic}
    (h : ∀ d ∈ warnings, d.severity = .warning) :
    (warnings.foldl add ds).warnings =
      ds.warnings ++ warnings := by
  induction warnings generalizing ds with
  | nil => simp
  | cons d warnings ih =>
      rw [List.forall_mem_cons] at h
      rw [List.foldl_cons, ih (ds.add d) h.2]
      simp [add, h.1]

end Diagnostics

namespace Generate

variable {s s' : Settings}

------------------------------------------------------------
-- One File
------------------------------------------------------------

/- The settings decide on nothing but the warnings of a site. -/
theorem expandSite_agree
    (s s' : Settings)
    (site : Source.Site) :
    (expandSite s site).1 = (expandSite s' site).1 ∧
      (expandSite s site).2.quiet =
        (expandSite s' site).2.quiet := by
  have hQuiet
      (options : Lint.Options)
      (aliases : List Alias) :
      ((Lint.check options aliases).foldl
          Diagnostics.add {}).quiet = {} :=
    Diagnostics.quiet_foldl_add {} fun _ =>
      Lint.severity_of_mem_check
  have hReport
      (options : Lint.Options)
      (aliases : List Alias)
      (d : Diagnostic) :
      (((Lint.check options aliases).foldl
          Diagnostics.add {}).add d).quiet =
        (({} : Diagnostics).add d).quiet := by
    rw [Diagnostics.quiet_add, hQuiet]
  unfold expandSite
  cases site.directive.aliases with
  | error d => exact ⟨rfl, rfl⟩
  | ok aliases =>
      simp only
      split
      · rename_i e hExpand
        refine ⟨rfl, ?_⟩
        cases e with
        | noAliases => exact (hReport ..).trans (hReport ..).symm
        | rejected d => exact (hReport ..).trans (hReport ..).symm
      · refine ⟨rfl, ?_⟩
        simp only
        rw [hQuiet, hQuiet]

theorem expandSites_agree
    (s s' : Settings)
    (sites : List Source.Site) :
    (expandSites s sites).1 = (expandSites s' sites).1 ∧
      (expandSites s sites).2.quiet =
        (expandSites s' sites).2.quiet := by
  induction sites with
  | nil => exact ⟨rfl, rfl⟩
  | cons site sites ih =>
      have hSite := expandSite_agree s s' site
      simp only [expandSites, Diagnostics.quiet_merge]
      rw [hSite.1, hSite.2, ih.1, ih.2]
      exact ⟨rfl, rfl⟩

/- Only the name of the directive matters for a file. -/
theorem expandFile_agree
    (hDirective : s.directive = s'.directive)
    (file : Source.File) :
    (expandFile s file).expansions =
        (expandFile s' file).expansions ∧
      (expandFile s file).diagnostics.quiet =
        (expandFile s' file).diagnostics.quiet := by
  have hSites :=
    expandSites_agree s s' (file.sites s.directive).1
  unfold expandFile
  rw [← hDirective]
  simp only [Diagnostics.quiet_merge]
  rw [hSites.1, hSites.2]
  exact ⟨rfl, rfl⟩

------------------------------------------------------------
-- Where Warnings Come From
------------------------------------------------------------

/- What the lint options find in the arguments of a site. -/
def lintWarnings
    (options : Lint.Options)
    (site : Source.Site) : List Diagnostic :=
  match site.directive.aliases with
  | .error _ => []
  | .ok aliases => Lint.check options aliases

theorem warnings_expandSite
    (s : Settings)
    (site : Source.Site) :
    (expandSite s site).2.warnings =
      lintWarnings s.lint site := by
  unfold expandSite lintWarnings
  cases hAliases : site.directive.aliases with
  | error d =>
      exact Diagnostics.warnings_add_of_error {}
        (Directive.isCodedError_of_aliases hAliases).severity
  | ok aliases =>
      have hFiled :
          ((Lint.check s.lint aliases).foldl
              Diagnostics.add {}).warnings =
            Lint.check s.lint aliases :=
        Diagnostics.warnings_foldl_add {} fun _ =>
          Lint.severity_of_mem_check
      simp only
      split
      · rename_i e hExpand
        cases e with
        | noAliases =>
            exact
              (Diagnostics.warnings_add_of_error _ rfl).trans
                hFiled
        | rejected d =>
            have hKind :
                site.item.decl.classify site.item.locate =
                  .error d := by
              unfold Expand.expand at hExpand
              split at hExpand
              · cases hExpand
              · split at hExpand
                · rename_i hKind
                  cases hExpand
                  exact hKind
                · cases hExpand
            have hSeverity :=
              (Decl.isCodedError_of_classify hKind).severity
            exact
              (Diagnostics.warnings_add_of_error _
                hSeverity).trans hFiled
      · exact hFiled

/- The search for directives warns of nothing. -/
theorem warnings_sitesFrom
    (name : Bytes)
    (index : Nat)
    (items : List Source.Item) :
    (Source.File.sitesFrom name index items).2.warnings =
      [] := by
  induction items generalizing index with
  | nil => rfl
  | cons item items ih =>
      have hRest := ih (index + 1)
      simp only [Source.File.sitesFrom]
      cases hFind : Directive.find name item.doc with
      | error d =>
          have hSeverity :=
            (Directive.isCodedError_of_find hFind).severity
          simp only [Diagnostics.warnings_merge, hRest]
          rw [Diagnostics.warnings_add_of_error {} hSeverity]
          rfl
      | ok found =>
          cases found with
          | none => exact hRest
          | some d => exact hRest

/- The warnings of a file are those of the lint options. -/
theorem warnings_expandFile
    (s : Settings)
    (file : Source.File) :
    (expandFile s file).diagnostics.warnings =
      (file.sites s.directive).1.flatMap
        (lintWarnings s.lint) := by
  have hFound :
      (file.sites s.directive).2.warnings = [] :=
    warnings_sitesFrom s.directive 0 file.items
  have hSites (sites : List Source.Site) :
      (expandSites s sites).2.warnings =
        sites.flatMap (lintWarnings s.lint) := by
    induction sites with
    | nil => rfl
    | cons site sites ih =>
        simp only [expandSites, Diagnostics.warnings_merge]
        rw [warnings_expandSite, ih, List.flatMap_cons]
  simp only [expandFile, Diagnostics.warnings_merge]
  rw [hFound, hSites, List.nil_append]

------------------------------------------------------------
-- Lists of Files
------------------------------------------------------------

/- An outcome without its warnings. -/
def Outcome.quiet
    (o : Outcome) : Outcome :=
  { o with diagnostics := o.diagnostics.quiet }

section

variable [Imports.Tidier]

/- A text is made of the mode, the suffix and the expansions. -/
theorem render_congr
    {r r' : FileResult}
    (hMode : s.mode = s'.mode)
    (hSuffix : s.suffix = s'.suffix)
    (hFile : r.file = r'.file)
    (hExpansions : r.expansions = r'.expansions) :
    render s r = render s' r' := by
  simp only [render, renderInPlace, renderCompanion,
    inPlaceDecls, companionDecls, hMode, hSuffix, hFile,
    hExpansions]

/- One more file leads to the same, warnings apart. -/
theorem step_agree
    (hDirective : s.directive = s'.directive)
    (hMode : s.mode = s'.mode)
    (hSuffix : s.suffix = s'.suffix)
    (shared : Log.Level)
    {o o' : Outcome}
    (hOutcome : o.quiet = o'.quiet)
    (file : Source.File) :
    (step s shared o file).quiet =
      (step s' shared o' file).quiet := by
  rcases expandFile_agree hDirective file with
    ⟨hExpansions, hDiags⟩
  have hFile :
      (expandFile s file).file = (expandFile s' file).file :=
    rfl
  have hErrors :=
    congrArg Diagnostics.errors hDiags
  have hSome := congrArg Diagnostics.hasErrors hDiags
  have hText :=
    render_congr hMode hSuffix hFile hExpansions
  have hLog :
      (expandFile s file).log shared =
        (expandFile s' file).log shared := by
    simp only [FileResult.log, hFile, hExpansions]
  have hSkipped :
      skipped shared (expandFile s file) =
        skipped shared (expandFile s' file) := by
    simp only [Diagnostics.errors_quiet] at hErrors
    simp only [skipped, hFile, hErrors]
  have hOutputs := congrArg Outcome.outputs hOutcome
  have hMerged := congrArg Outcome.diagnostics hOutcome
  have hWritten := congrArg Outcome.log hOutcome
  have hError := congrArg Outcome.error hOutcome
  simp only [Outcome.quiet] at hOutputs hMerged hWritten hError
  simp only [Diagnostics.hasErrors_quiet] at hSome
  unfold step
  simp only [hSome, hExpansions, hText, hLog, hSkipped]
  split
  · simp only [Outcome.quiet, Diagnostics.quiet_merge, hDiags,
      hOutputs, hMerged, hWritten, hError]
  · split
    · simp only [Outcome.quiet, Diagnostics.quiet_merge,
        hDiags, hOutputs, hMerged, hWritten, hError]
    · split
      · simp only [Outcome.quiet, Diagnostics.quiet_merge,
          hDiags, hOutputs, hMerged, hWritten, hError]
      · simp only [Outcome.quiet, Diagnostics.quiet_merge,
          hDiags, hOutputs, hMerged, hWritten]

theorem runFrom_agree
    (hDirective : s.directive = s'.directive)
    (hMode : s.mode = s'.mode)
    (hSuffix : s.suffix = s'.suffix)
    (shared : Log.Level)
    {o o' : Outcome}
    (hOutcome : o.quiet = o'.quiet)
    (files : List Source.File) :
    (runFrom s shared o files).quiet =
      (runFrom s' shared o' files).quiet := by
  induction files generalizing o o' with
  | nil => exact hOutcome
  | cons file files ih =>
      have hStep := step_agree hDirective hMode hSuffix shared
        hOutcome file
      have hError := congrArg Outcome.error hStep
      simp only [Outcome.quiet] at hError
      simp only [runFrom, hError]
      split
      · exact hStep
      · exact ih hStep

/- A run that may be cancelled between two files. -/
theorem runUntil_agree
    (hDirective : s.directive = s'.directive)
    (hMode : s.mode = s'.mode)
    (hSuffix : s.suffix = s'.suffix)
    (shared : Log.Level)
    (stop : Option Nat)
    (files : List Source.File) :
    (runUntil s shared stop files).quiet =
      (runUntil s' shared stop files).quiet := by
  have hFrom (files : List Source.File) :=
    runFrom_agree hDirective hMode hSuffix shared
      (rfl : ({} : Outcome).quiet = ({} : Outcome).quiet) files
  unfold runUntil
  split
  · exact hFrom files
  · rename_i n _
    have hTaken := hFrom (files.take n)
    have hOutputs := congrArg Outcome.outputs hTaken
    have hMerged := congrArg Outcome.diagnostics hTaken
    have hWritten := congrArg Outcome.log hTaken
    have hError := congrArg Outcome.error hTaken
    simp only [Outcome.quiet] at hOutputs hMerged hWritten hError
    simp only [hError]
    split
    · exact hTaken
    · simp only [Outcome.quiet, hOutputs, hMerged, hWritten]

/- A run that is cancelled before its first file, or never. -/
theorem run_agree
    (hDirective : s.directive = s'.directive)
    (hMode : s.mode = s'.mode)
    (hSuffix : s.suffix = s'.suffix)
    (shared : Log.Level)
    (cancelled : Bool)
    (files : List Source.File) :
    (run s shared cancelled files).quiet =
      (run s' shared cancelled files).quiet := by
  unfold run
  split
  · rfl
  · exact runFrom_agree hDirective hMode hSuffix shared rfl files

end

/- Files and error are no matter of warnings. -/
theorem Outcome.eq_of_quiet_eq
    {o o' : Outcome}
    (h : o.quiet = o'.quiet) :
    o.files = o'.files ∧ o.error = o'.error := by
  have hOutputs := congrArg Outcome.outputs h
  have hError := congrArg Outcome.error h
  simp only [Outcome.quiet] at hOutputs hError
  refine ⟨?_, hError⟩
  simp only [Outcome.files, hOutputs, hError]

/-
  Settings with the same directive name expand the same
  declarations of a file and reject them for the same errors.
  The warnings are what the lint options find in the sites,
  and all of it is of that severity.  If mode and suffix are
  the same, too, so are the output files of any list of files,
  whenever the run is cancelled.
-/
theorem lint_and_output_keep_expansions
    [Imports.Tidier]
    (hDirective : s.directive = s'.directive) :
    (∀ file : Source.File,
        (expandFile s file).expansions =
            (expandFile s' file).expansions ∧
          (expandFile s file).diagnostics.errors =
            (expandFile s' file).diagnostics.errors ∧
          (expandFile s file).diagnostics.infos =
            (expandFile s' file).diagnostics.infos ∧
          (expandFile s file).diagnostics.warnings =
            (file.sites s.directive).1.flatMap
              (lintWarnings s.lint)) ∧
      (∀ (site : Source.Site) (d : Diagnostic),
        d ∈ lintWarnings s.lint site →
          d.severity = .warning) ∧
      (s.mode = s'.mode →
        s.suffix = s'.suffix →
          ∀ (shared : Log.Level) (files : List Source.File),
            (∀ cancelled : Bool,
                (run s shared cancelled files).files =
                    (run s' shared cancelled files).files ∧
                  (run s shared cancelled files).error =
                    (run s' shared cancelled files).error) ∧
              ∀ stop : Option Nat,
                (runUntil s shared stop files).files =
                    (runUntil s' shared stop files).files ∧
                  (runUntil s shared stop files).error =
                    (runUntil s' shared stop files).error) := by
  refine ⟨?_, ?_, ?_⟩
  · intro file
    rcases expandFile_agree hDirective file with
      ⟨hExpansions, hDiags⟩
    have hErrors := congrArg Diagnostics.errors hDiags
    have hInfos := congrArg Diagnostics.infos hDiags
    exact ⟨hExpansions, hErrors, hInfos,
      warnings_expandFile s file⟩
  · intro site d hMem
    unfold lintWarnings at hMem
    split at hMem
    · cases hMem
    · exact Lint.severity_of_mem_check hMem
  · intro hMode hSuffix shared files
    refine ⟨?_, ?_⟩
    · intro cancelled
      exact Outcome.eq_of_quiet_eq (run_agree hDirective hMode
        hSuffix shared cancelled files)
    · intro stop
      exact Outcome.eq_of_quiet_eq (runUntil_agree hDirective
        hMode hSuffix shared stop files)

/- A repeated name whose first mention has no proper version. -/
def doubtedFile : Source.File :=
  functionFile "// @alias(deprecated(A, since = \"x\"), A)"

/- The standard settings without any lint option. -/
def unlinted : Settings :=
  { Settings.standard with lint := ⟨false, false⟩ }

/- Two warnings more or less leave the output as it is. -/
theorem unlinted_keeps_output :
    (expandFile Settings.standard
          doubtedFile).diagnostics.warnings.length = 2 ∧
      (expandFile unlinted
          doubtedFile).diagnostics.warnings = [] ∧
      (run Settings.standard .info false
          [doubtedFile]).files.length = 1 ∧
      (expandFile Settings.standard doubtedFile).expansions =
        (expandFile unlinted doubtedFile).expansions ∧
      (run Settings.standard .info false [doubtedFile]).files =
        (run unlinted .info false [doubtedFile]).files := by
  have hDirective :
      Settings.standard.directive = unlinted.directive := rfl
  rcases lint_and_output_keep_expansions hDirective with
    ⟨hFile, _, hFiles⟩
  refine ⟨by decide +kernel, by decide +kernel,
    by decide +kernel, (hFile doubtedFile).1, ?_⟩
  exact ((hFiles rfl rfl .info [doubtedFile]).1 false).1

end Generate

end Namesake
