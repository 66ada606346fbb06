import Mathlib.Data.List.Basic
import Namesake.Proofs.FileTree
import Namesake.Proofs.Generate.Naming
import Namesake.Proofs.Workspace.Sources

/-
  What tasks do to the files.  A check changes none.  A run
  that fails before it writes changes none, and a run that
  succeeds changes those at the places of its outputs, each of
  which then has the content of its output: two outputs at one
  place come from one source, which may be given twice under
  different paths, and have the same content.

  Main declarations:
    * `Workspace.file?_of_writeFiles`
    * `Workspace.sameSpot_of_place?_eq`
    * `Workspace.TidiesByPlace`
    * `Workspace.content_eq_of_place?_eq`
    * `Workspace.run_writes_outputs_or_nothing`
-/

namespace Namesake

open Settings (sourceEnding)

namespace Workspace

------------------------------------------------------------
-- Writing
------------------------------------------------------------

/- The outputs that are written to a place. -/
def outputsAt
    (t : FileTree)
    (here : Place)
    (outputs : List Generate.Output)
    (p : Place) : List Generate.Output :=
  outputs.filter fun o => t.place? here o.path == some p

theorem outputsAt_of_dirs
    {t t' : FileTree}
    (hDirs : t'.dirs = t.dirs)
    (here : Place)
    (outputs : List Generate.Output)
    (p : Place) :
    outputsAt t' here outputs p = outputsAt t here outputs p := by
  simp only [outputsAt, FileTree.place?_of_dirs hDirs]

/- An output is written behind the making of directories. -/
theorem exists_place_of_writeFiles_cons
    {output : Generate.Output}
    {outputs : List Generate.Output}
    {w w' : Workspace}
    (h : writeFiles (output :: outputs) w = .ok () w') :
    ∃ t p,
      w.tree.makeDirs w.here (Path.dir output.path) = .ok t ∧
        t.place? w.here output.path = some p ∧
        writeFiles outputs
            { w with tree := t.put p output.content } =
          .ok () w' := by
  rcases exists_of_bind_ok h with ⟨_, w₁, hDirs, hRest⟩
  rcases exists_of_bind_ok hRest with ⟨_, w₂, hFile, hEnd⟩
  rw [makeDirs_eq] at hDirs
  cases hMade :
      w.tree.makeDirs w.here (Path.dir output.path) with
  | error e =>
      simp only [hMade] at hDirs
      cases hDirs
  | ok t =>
      simp only [hMade] at hDirs
      cases hDirs
      rw [writeFile_eq] at hFile
      simp only at hFile
      split at hFile
      · rename_i tree hWrite
        cases hFile
        rcases FileTree.write_eq_ok_iff.mp hWrite with
          ⟨p, hPlace, rfl⟩
        exact ⟨t, p, rfl, hPlace, hEnd⟩
      · cases hFile

/- Writing to a directory that exists is one change to a file. -/
theorem exists_of_writeFiles_cons
    {output : Generate.Output}
    {outputs : List Generate.Output}
    {w w' : Workspace}
    (hFolder :
      ∃ d,
        w.tree.spot w.here (Path.dir output.path) =
          .ok (.dir d))
    (h : writeFiles (output :: outputs) w = .ok () w') :
    ∃ p,
      w.tree.place? w.here output.path = some p ∧
        writeFiles outputs
            { w with tree := w.tree.put p output.content } =
          .ok () w' := by
  rcases hFolder with ⟨d, hDir⟩
  rcases exists_place_of_writeFiles_cons h with
    ⟨t, p, hMade, hPlace, hRest⟩
  rw [FileTree.makeDirs_of_dir hDir] at hMade
  cases hMade
  exact ⟨p, hPlace, hRest⟩

/- Outputs are written to their places, and the last one stays. -/
theorem file?_of_writeFiles
    {outputs : List Generate.Output}
    {w w' : Workspace}
    (hFolders :
      ∀ output ∈ outputs,
        ∃ d,
          w.tree.spot w.here (Path.dir output.path) =
            .ok (.dir d))
    (h : writeFiles outputs w = .ok () w') :
    w'.tree.dirs = w.tree.dirs ∧
      (∀ output ∈ outputs,
        ∃ p, w.tree.place? w.here output.path = some p) ∧
      ∀ p,
        w'.tree.file? p =
          (((outputsAt w.tree w.here outputs p).getLast?.map
            Generate.Output.content).or (w.tree.file? p)) := by
  induction outputs generalizing w with
  | nil =>
      cases h
      exact ⟨rfl, List.forall_mem_nil _, fun p => rfl⟩
  | cons output outputs ih =>
      rcases exists_of_writeFiles_cons
          (hFolders output List.mem_cons_self) h with
        ⟨place, hPlace, hRest⟩
      have hDirs :
          (w.tree.put place output.content).dirs =
            w.tree.dirs :=
        rfl
      rcases ih (fun o hMem =>
          (hFolders o (List.mem_cons_of_mem _ hMem)).imp
            fun d => FileTree.spot_dir_of_dirs hDirs) hRest with
        ⟨hSame, hPlaces, hFiles⟩
      simp only [FileTree.place?_of_dirs hDirs] at hPlaces
      refine ⟨hSame, ?_, ?_⟩
      · exact List.forall_mem_cons.mpr
          ⟨⟨place, hPlace⟩, hPlaces⟩
      · intro p
        rw [hFiles p, outputsAt_of_dirs hDirs,
          FileTree.file?_put]
        unfold outputsAt
        rw [List.filter_cons, hPlace]
        by_cases hHere : p = place
        · rw [if_pos hHere, hHere, beq_self_eq_true, if_pos rfl,
            List.getLast?_cons]
          cases List.getLast? _ <;> rfl
        · have hOther : (some place == some p) = false := by
            simpa using Ne.symm hHere
          rw [if_neg hHere, hOther, if_neg Bool.false_ne_true]

------------------------------------------------------------
-- Places of Outputs
------------------------------------------------------------

/- A run that generates everything is not cancelled. -/
theorem runUntil_of_no_error
    [Imports.Tidier]
    {s : Settings}
    {shared : Log.Level}
    {stop : Option Nat}
    {files : List Source.File}
    (h : (Generate.runUntil s shared stop files).error = none) :
    Generate.runUntil s shared stop files =
      Generate.run s shared false files := by
  unfold Generate.runUntil at h ⊢
  cases hStop : stop.filter (· < files.length) with
  | none => rfl
  | some n =>
      rw [hStop] at h
      simp only at h
      split at h
      · rename_i hSome
        rw [h] at hSome
        cases hSome
      · cases h

/- The ending of the paths of outputs. -/
def outputEnding
    (s : Settings) : Bytes :=
  if s.mode == Settings.inPlace then sourceEnding else s.suffix

theorem separator_not_mem_outputEnding
    {s : Settings}
    (h : s.validate = .ok ()) :
    Path.separator ∉ outputEnding s := by
  have hSuffix := Settings.isSuffix_of_validate h
  unfold outputEnding
  split
  · decide
  · simp only [Settings.isSuffix, Bool.and_eq_true,
      Bool.not_eq_eq_eq_not, Bool.not_true,
      List.contains_eq_mem, decide_eq_false_iff_not] at hSuffix
    exact hSuffix.2

/- An output stands beside its source, or in its place. -/
theorem exists_stem_of_mem_outputOf
    [Imports.Tidier]
    {s : Settings}
    {f : Source.File}
    {output : Generate.Output}
    (hNamed : f.path.endsWith sourceEnding = true)
    (h : output ∈ Generate.outputOf s f) :
    ∃ stem,
      f.path = stem ++ sourceEnding ∧
        output.path = stem ++ outputEnding s := by
  rcases List.isSuffixOf_iff_suffix.mp hNamed with ⟨stem, hStem⟩
  have hPath :=
    Generate.path_of_render (Generate.mem_outputOf_iff.mp h).2
  have hFile : (Generate.expandFile s f).file = f :=
    rfl
  refine ⟨stem, hStem.symm, ?_⟩
  rw [hPath, hFile, ← hStem, Settings.companionPath_append,
    outputEnding]
  split <;> rfl

/- An output is in the directory of its source. -/
theorem exists_name_of_mem_outputOf
    [Imports.Tidier]
    {s : Settings}
    {f : Source.File}
    {output : Generate.Output}
    (hValid : s.validate = .ok ())
    (hNamed : f.path.endsWith sourceEnding = true)
    (h : output ∈ Generate.outputOf s f) :
    Path.dir output.path = Path.dir f.path ∧
      ∃ name,
        Path.base f.path = name ++ sourceEnding ∧
          Path.base output.path = name ++ outputEnding s := by
  have hEnding := separator_not_mem_outputEnding hValid
  have hSource : Path.separator ∉ sourceEnding := by
    decide
  rcases exists_stem_of_mem_outputOf hNamed h with
    ⟨stem, hFile, hOutput⟩
  rw [hFile, hOutput]
  refine ⟨?_, Path.base stem, Path.base_append _ hSource,
    Path.base_append _ hEnding⟩
  rw [Path.dir, Path.dir, Path.upToSlash_append _ hEnding,
    Path.upToSlash_append _ hSource]

/- Two paths lead to one name in one directory. -/
def SameSpot
    (w : Workspace)
    (path path' : Bytes) : Prop :=
  (∃ d,
      w.tree.spot w.here (Path.dir path) = .ok (.dir d) ∧
        w.tree.spot w.here (Path.dir path') = .ok (.dir d)) ∧
    Path.base path = Path.base path'

/- Outputs at one place have sources at one place. -/
theorem sameSpot_of_place?_eq
    [Imports.Tidier]
    {w : Workspace}
    {s : Settings}
    {f g : Source.File}
    {output other : Generate.Output}
    {p : Place}
    (hValid : s.validate = .ok ())
    (hFile : f.path.endsWith sourceEnding = true)
    (hOutput : output ∈ Generate.outputOf s f)
    (hPlace : w.tree.place? w.here output.path = some p)
    (hFile' : g.path.endsWith sourceEnding = true)
    (hOther : other ∈ Generate.outputOf s g)
    (hPlace' : w.tree.place? w.here other.path = some p) :
    w.SameSpot f.path g.path := by
  rcases exists_name_of_mem_outputOf hValid hFile hOutput with
    ⟨hDir, name, hSource, hBase⟩
  rcases exists_name_of_mem_outputOf hValid hFile' hOther with
    ⟨hDir', name', hSource', hBase'⟩
  rcases FileTree.exists_folder_of_place? hPlace with
    ⟨d, hFolder, rfl⟩
  rcases FileTree.exists_folder_of_place? hPlace' with
    ⟨d', hFolder', hSame⟩
  rcases List.append_inj' hSame rfl with ⟨rfl, hNames⟩
  have hName := (List.cons.inj hNames).1
  rw [hBase, hBase'] at hName
  rw [hDir] at hFolder
  rw [hDir'] at hFolder'
  refine ⟨⟨d, hFolder, hFolder'⟩, ?_⟩
  rw [hSource, hSource', List.append_cancel_right hName]

/- A source is a file in the directory of its path. -/
theorem Holds.exists_folder
    {w : Workspace}
    {f : Source.File}
    (h : w.Holds f) :
    ∃ d src,
      w.tree.spot w.here (Path.dir f.path) = .ok (.dir d) ∧
        w.tree.file? (d ++ [Path.base f.path]) = some src ∧
        Source.File.parse f.path src = .ok f := by
  rcases h.parsed with ⟨src, hRead, hParse⟩
  rcases FileTree.read_eq_ok_iff.mp hRead with
    ⟨p, hPlace, hContent⟩
  rcases FileTree.exists_folder_of_place? hPlace with
    ⟨d, hFolder, rfl⟩
  exact ⟨d, src, hFolder, hContent, hParse⟩

/- Sources that are read from one file have one text. -/
theorem unplaced_eq_of_sameSpot
    {w : Workspace}
    {f g : Source.File}
    (hFile : w.Holds f)
    (hFile' : w.Holds g)
    (h : w.SameSpot f.path g.path) :
    f.unplaced = g.unplaced := by
  rcases hFile.exists_folder with
    ⟨d, src, hFolder, hContent, hParse⟩
  rcases hFile'.exists_folder with
    ⟨d', src', hFolder', hContent', hParse'⟩
  rcases h with ⟨⟨dir, hDir, hDir'⟩, hName⟩
  rw [hFolder] at hDir
  rw [hFolder'] at hDir'
  cases hDir
  cases hDir'
  rw [hName, hContent'] at hContent
  cases hContent
  exact Source.File.unplaced_eq_of_parse hParse hParse'

/-
  What is relied on when a companion is tidied: paths that lead
  to one place are names of one file, and under each of them a
  text is tidied in the same way.
-/
def TidiesByPlace
    [Imports.Tidier]
    (w : Workspace) : Prop :=
  ∀ {path path' : Bytes} {p : Place},
    w.tree.place? w.here path = some p →
      w.tree.place? w.here path' = some p →
        ∀ src,
          (Imports.Tidier.tidy path src).toOption =
            (Imports.Tidier.tidy path' src).toOption

/- Tidying here looks at no path but to name it in an error. -/
theorem tidiesByPlace_tidy
    (w : Workspace) :
    w.TidiesByPlace :=
  fun _ _ => Generate.tidy_toOption _ _

/- Outputs at one place have one source, and one content. -/
theorem content_eq_of_place?_eq
    [Imports.Tidier]
    {w : Workspace}
    {s : Settings}
    {f g : Source.File}
    {output other : Generate.Output}
    {p : Place}
    (hTidy : w.TidiesByPlace)
    (hValid : s.validate = .ok ())
    (hFile : w.Holds f)
    (hOutput : output ∈ Generate.outputOf s f)
    (hPlace : w.tree.place? w.here output.path = some p)
    (hFile' : w.Holds g)
    (hOther : other ∈ Generate.outputOf s g)
    (hPlace' : w.tree.place? w.here other.path = some p) :
    output.content = other.content := by
  have hSame :=
    sameSpot_of_place?_eq hValid hFile.named hOutput hPlace
      hFile'.named hOther hPlace'
  exact Generate.content_eq_of_unplaced_eq
    (unplaced_eq_of_sameSpot hFile hFile' hSame)
    (hTidy hPlace hPlace') (Generate.mem_outputOf_iff.mp hOutput).2
    (Generate.mem_outputOf_iff.mp hOther).2

------------------------------------------------------------
-- Tasks
------------------------------------------------------------

/- A check leaves the disk alone. -/
theorem keeps_checkUntil
    [Packages.Loader]
    (o : Options)
    (stop : Option Nat) :
    Keeps disk (checkUntil o stop) := by
  intro w
  have hPrepare := keeps_prepare o w
  cases hResult : prepare o w with
  | error e w' =>
      rw [after_of_error hResult] at hPrepare
      have hCheck : checkUntil o stop w = .error e w' :=
        bind_of_error _ hResult
      rw [after_of_error hCheck, hPrepare]
  | ok result w' =>
      rcases result with ⟨s, files⟩
      rw [after_of_ok hResult] at hPrepare
      have hCheck := checkUntil_of_prepare stop hResult
      cases hStop : stop.filter (· < files.length) with
      | some n =>
          rw [hStop] at hCheck
          rw [after_of_error hCheck]
          exact hPrepare
      | none =>
          rw [hStop] at hCheck
          simp only at hCheck
          split at hCheck
          · rw [after_of_error hCheck]
            exact hPrepare
          · rw [after_of_ok hCheck]
            exact hPrepare

/- How a run ends that does not keep texts it cannot format. -/
theorem runUntil_cases
    [Packages.Loader]
    [Imports.Tidier]
    (o : Options)
    (stop : Option Nat)
    {w : Workspace}
    (hKeep : w.keepUnformatted = false) :
    (∃ e w',
        runUntil o stop w = .error e w' ∧ disk w' = disk w) ∨
      ∃ s files w' w₁,
        prepare o w = .ok (s, files) w' ∧ disk w₁ = disk w ∧
          (Generate.runUntil s w'.level stop files).error =
            none ∧
          runUntil o stop w =
            deliver o
              (Generate.runUntil s w'.level stop files).outputs
              w₁ := by
  have hPrepare := keeps_prepare o w
  cases hResult : prepare o w with
  | error e w' =>
      rw [after_of_error hResult] at hPrepare
      exact Or.inl ⟨e, w', bind_of_error _ hResult, hPrepare⟩
  | ok result w' =>
      rcases result with ⟨s, files⟩
      rw [after_of_ok hResult] at hPrepare
      have hSame : w'.keepUnformatted = false := by
        rw [← hKeep]
        exact congrArg (fun d => d.2.2) hPrepare
      have hRun :=
        runUntil_of_prepare stop hResult (Or.inl hSame)
      simp only at hRun
      cases hError :
          (Generate.runUntil s w'.level stop files).error with
      | some e =>
          simp only [hError] at hRun
          exact Or.inl ⟨_, _, hRun, hPrepare⟩
      | none =>
          simp only [hError] at hRun
          split at hRun
          · exact Or.inl ⟨_, _, hRun, hPrepare⟩
          · refine Or.inr
              ⟨s, files, w', _, rfl, ?_, hError, hRun⟩
            exact hPrepare

theorem tree_of_dry_deliver
    {o : Options}
    (outputs : List Generate.Output)
    (w : Workspace)
    (hDry : o.dryRun = true) :
    (after (deliver o outputs) w).tree = w.tree := by
  unfold deliver
  rw [if_pos hDry]
  rfl

/- A run that is not dry succeeds only if it writes all outputs. -/
theorem exists_of_deliver
    {o : Options}
    {outputs : List Generate.Output}
    {w : Workspace}
    (hWet : o.dryRun = false)
    (h : outcome (deliver o outputs) w = .ok ()) :
    ∃ w',
      writeFiles outputs w = .ok () w' ∧
        (after (deliver o outputs) w).tree = w'.tree := by
  unfold deliver at h ⊢
  simp only [hWet, Bool.false_eq_true, if_false] at h ⊢
  cases hWrite : writeFiles outputs w with
  | error e w' =>
      rw [outcome_of_error (bind_of_error _ hWrite)] at h
      cases h
  | ok a w' =>
      have hResult :=
        (bind_of_ok (fun _ => announce outputs) hWrite).trans
          (announce_eq outputs w')
      refine ⟨w', rfl, ?_⟩
      rw [after_of_ok hResult]
      rfl

/- Written outputs are read back, and nothing else is changed. -/
theorem tree_of_writeFiles
    [Imports.Tidier]
    {w w₁ w₂ : Workspace}
    {s : Settings}
    {files : List Source.File}
    {outputs : List Generate.Output}
    (hTidy : w.TidiesByPlace)
    (hDisk : disk w₁ = disk w)
    (hValid : s.validate = .ok ())
    (hHolds : ∀ f ∈ files, w.Holds f)
    (hOutputs :
      ∀ output ∈ outputs,
        ∃ f ∈ files, output ∈ Generate.outputOf s f)
    (h : writeFiles outputs w₁ = .ok () w₂) :
    w₂.tree.dirs = w.tree.dirs ∧
      (∀ p,
        w₂.tree.file? p ≠ w.tree.file? p →
          ∃ output ∈ outputs,
            w.tree.place? w.here output.path = some p) ∧
      ∀ output ∈ outputs,
        w₂.tree.read w.here output.path =
          .ok output.content := by
  simp only [disk, Prod.mk.injEq] at hDisk
  have hFolders :
      ∀ output ∈ outputs,
        ∃ d,
          w₁.tree.spot w₁.here (Path.dir output.path) =
            .ok (.dir d) := by
    intro output hMem
    rcases hOutputs output hMem with ⟨f, hFile, hOutput⟩
    rcases (hHolds f hFile).exists_folder with
      ⟨d, _, hFolder, _⟩
    have hDir :=
      (exists_name_of_mem_outputOf hValid (hHolds f hFile).named
        hOutput).1
    rw [hDisk.1, hDisk.2.1, hDir]
    exact ⟨d, hFolder⟩
  rcases file?_of_writeFiles hFolders h with
    ⟨hDirs, hPlaces, hFiles⟩
  rw [hDisk.1, hDisk.2.1] at hPlaces
  rw [hDisk.1] at hDirs
  simp only [hDisk.1, hDisk.2.1] at hFiles
  refine ⟨hDirs, ?_, ?_⟩
  · intro p hChanged
    rw [hFiles p] at hChanged
    cases hLast :
        (outputsAt w.tree w.here outputs p).getLast? with
    | none =>
        rw [hLast] at hChanged
        exact absurd rfl hChanged
    | some output =>
        rcases List.mem_filter.mp
            (List.mem_of_getLast? hLast) with ⟨hMem, hPlace⟩
        exact ⟨output, hMem, beq_iff_eq.mp hPlace⟩
  · intro output hMem
    rcases hPlaces output hMem with ⟨p, hPlace⟩
    refine FileTree.read_eq_ok_iff.mpr ⟨p, ?_, ?_⟩
    · rw [FileTree.place?_of_dirs hDirs]
      exact hPlace
    · have hHere :
          output ∈ outputsAt w.tree w.here outputs p :=
        List.mem_filter.mpr ⟨hMem, beq_iff_eq.mpr hPlace⟩
      rw [hFiles p]
      cases hLast :
          (outputsAt w.tree w.here outputs p).getLast? with
      | none =>
          rw [List.getLast?_eq_none_iff.mp hLast] at hHere
          cases hHere
      | some last =>
          rcases List.mem_filter.mp
              (List.mem_of_getLast? hLast) with
            ⟨hLastMem, hLastPlace⟩
          rcases hOutputs output hMem with ⟨f, hFile, hOutput⟩
          rcases hOutputs last hLastMem with ⟨g, hFile', hOther⟩
          exact congrArg some
            (content_eq_of_place?_eq hTidy hValid
              (hHolds g hFile') hOther
              (beq_iff_eq.mp hLastPlace)
              (hHolds f hFile) hOutput hPlace)

/-
  A run without the setting that keeps unformatted texts.  It
  changes no file if it is dry, or if it fails in anything but
  the writing of an output.  If it succeeds and is not dry, it
  makes no directory, every file that is changed is at the
  place of an output, and what is read at the path of an
  output is its content.  A check never changes a file.

  The tools that find packages and tidy imports are any; only
  for a run that succeeds is it relied on that packages have
  sources alone and that one file is tidied in one way.  States
  with symbolic or hard links are outside, as a file tree has
  none: through a link an output would change another file.
-/
theorem run_writes_outputs_or_nothing
    [Packages.Loader]
    [Imports.Tidier]
    (o : Options)
    (stop : Option Nat)
    (w : Workspace)
    (hKeep : w.keepUnformatted = false) :
    (∀ e,
        outcome (runUntil o stop) w = .error e →
          e.isWriting = false →
          (after (runUntil o stop) w).tree = w.tree) ∧
      (o.dryRun = true →
        (after (runUntil o stop) w).tree = w.tree) ∧
      (Packages.FindsSources →
        w.TidiesByPlace →
        outcome (runUntil o stop) w = .ok () →
        o.dryRun = false →
        ∃ s files w',
          prepare o w = .ok (s, files) w' ∧
            let outputs :=
              (Generate.runUntil s w'.level stop files).files
            let t := (after (runUntil o stop) w).tree
            t.dirs = w.tree.dirs ∧
              (∀ p,
                t.file? p ≠ w.tree.file? p →
                  ∃ output ∈ outputs,
                    w.tree.place? w.here output.path =
                      some p) ∧
              ∀ output ∈ outputs,
                t.read w.here output.path =
                  .ok output.content) ∧
      (after (checkUntil o stop) w).tree = w.tree := by
  have hCheck :=
    congrArg Prod.fst (keeps_checkUntil o stop w)
  rcases runUntil_cases o stop hKeep with
    ⟨e, w', hRun, hDisk⟩ |
      ⟨s, files, w', w₁, hPrepare, hDisk, hError, hRun⟩
  · have hTree : w'.tree = w.tree :=
      congrArg Prod.fst hDisk
    rw [after_of_error hRun, outcome_of_error hRun]
    refine ⟨fun _ _ _ => hTree, fun _ => hTree, ?_, hCheck⟩
    intro _ _ hOk
    cases hOk
  · have hTree : w₁.tree = w.tree :=
      congrArg Prod.fst hDisk
    have hOutputs :
        (Generate.runUntil s w'.level stop files).files =
          (Generate.runUntil s w'.level stop files).outputs := by
      simp [Generate.Outcome.files, hError]
    rw [after_of_eq hRun, outcome_of_eq hRun]
    refine ⟨?_, ?_, ?_, hCheck⟩
    · intro e hFailed hNot
      rcases (deliver_cases o
          (Generate.runUntil s w'.level stop files).outputs
          w₁).1 with hOk | ⟨e', hSame, hWriting⟩
      · rw [hOk] at hFailed
        cases hFailed
      · rw [hSame] at hFailed
        cases hFailed
        rw [hNot] at hWriting
        cases hWriting
    · intro hDry
      rw [tree_of_dry_deliver _ _ hDry, hTree]
    · intro hLoader hTidy hOk hWet
      rcases exists_of_deliver hWet hOk with
        ⟨w₂, hWrite, hAfter⟩
      rcases holds_of_prepare hLoader hPrepare with ⟨hValid, hHolds⟩
      refine ⟨s, files, w', hPrepare, ?_⟩
      simp only
      rw [hAfter, hOutputs]
      refine tree_of_writeFiles hTidy hDisk hValid hHolds ?_
        hWrite
      intro output hMem
      rw [← hOutputs, runUntil_of_no_error hError] at hMem
      exact ((Generate.mem_files_iff w'.level).mp hMem).2

/- One source in a directory. -/
def lonelyWorkspace : Workspace :=
  { tree :=
      { files :=
          [([utf8 "p", utf8 "a.go"],
            utf8 "package p\n\n// @alias(A)\nfunc F() \x7b\x7d\n")]
        dirs := [[utf8 "p"]] } }

/- The source is given twice, under two paths. -/
def sourceTwice : Options :=
  { patterns := [utf8 "p/a.go", utf8 "p/../p/a.go"] }

theorem run_writes_lonely_output_twice :
    lonelyWorkspace.keepUnformatted = false ∧
      ∃ outputs : List Generate.Output,
        outputs.map Generate.Output.path =
            [utf8 "p/a_alias.go", utf8 "p/../p/a_alias.go"] ∧
          ∀ output ∈ outputs,
            (after (runUntil sourceTwice none)
                lonelyWorkspace).tree.read
                lonelyWorkspace.here output.path =
              .ok output.content := by
  have hOk :
      outcome (runUntil sourceTwice none) lonelyWorkspace =
        .ok () := by
    decide +kernel
  have hPaths :
      (match prepare sourceTwice lonelyWorkspace with
        | .ok (s, files) w' =>
            (Generate.runUntil s w'.level none files).files.map
              Generate.Output.path
        | .error _ _ => []) =
        [utf8 "p/a_alias.go", utf8 "p/../p/a_alias.go"] := by
    decide +kernel
  rcases (run_writes_outputs_or_nothing sourceTwice none
      lonelyWorkspace rfl).2.2.1 Packages.findsSources_load
      (tidiesByPlace_tidy lonelyWorkspace) hOk rfl with
    ⟨s, files, w', hPrepare, _, _, hRead⟩
  rw [hPrepare] at hPaths
  exact ⟨rfl, _, hPaths, hRead⟩

end Workspace

end Namesake
