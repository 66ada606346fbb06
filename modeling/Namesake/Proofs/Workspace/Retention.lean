import Mathlib.Data.List.Nodup
import Namesake.Proofs.Settings.Suffix
import Namesake.Proofs.Workspace.Writing

/-
  What is left of outputs when all of them are written.  While
  directories are made and files are written, a path that
  leads to a file keeps leading to it, so that an output is
  lost only to a later one at its place.  Companions have
  different paths if their sources have, and are at one place
  only if their sources are; then both sources are one file,
  and the companions have one content.

  Main declarations:
    * `FileTree.Grows`
    * `FileTree.Grows.place?_eq`
    * `Workspace.file_of_writeFiles`
    * `Generate.nodup_paths_of_runUntil`
    * `Workspace.companions_never_collide`
-/

namespace Namesake

open Settings (sourceEnding companionPath IsBeside)

------------------------------------------------------------
-- Growing Trees
------------------------------------------------------------

namespace FileTree

/-
  Nothing was taken away from the first tree, and no file of
  it has become a directory.
-/
structure Grows
    (t t' : FileTree) : Prop where
  dirs : ∀ p, t.isDir p = true → t'.isDir p = true
  files :
    ∀ p,
      (t.file? p).isSome = true →
        (t'.file? p).isSome = true ∧ t'.isDir p = t.isDir p

theorem Grows.refl
    (t : FileTree) :
    t.Grows t :=
  ⟨fun _ h => h, fun _ h => ⟨h, rfl⟩⟩

theorem Grows.trans
    {t t' t'' : FileTree}
    (h : t.Grows t')
    (h' : t'.Grows t'') :
    t.Grows t'' := by
  refine ⟨fun p hDir => h'.dirs p (h.dirs p hDir), ?_⟩
  intro p hFile
  rcases h.files p hFile with ⟨hNext, hSame⟩
  rcases h'.files p hNext with ⟨hLast, hSame'⟩
  exact ⟨hLast, hSame'.trans hSame⟩

theorem grows_put
    (t : FileTree)
    (p : Place)
    (content : Bytes) :
    t.Grows (t.put p content) := by
  refine ⟨fun q hDir => hDir, ?_⟩
  intro q hFile
  refine ⟨?_, rfl⟩
  rw [file?_put]
  split
  · rfl
  · exact hFile

theorem isDir_addDir
    (t : FileTree)
    (p q : Place) :
    (t.addDir p).isDir q = (t.isDir q || q == p) := by
  unfold addDir
  split
  · rename_i hDir
    by_cases hSame : q = p
    · rw [hSame, hDir, Bool.true_or]
    · simp [hSame]
  · simp only [isDir, List.contains_cons, Bool.or_assoc]
    rw [Bool.or_comm (q == p)]

theorem files_addDir
    (t : FileTree)
    (p : Place) :
    (t.addDir p).files = t.files := by
  unfold addDir
  split <;> rfl

theorem file?_of_files
    {t t' : FileTree}
    (hFiles : t'.files = t.files)
    (p : Place) :
    t'.file? p = t.file? p := by
  rw [file?, file?, hFiles]

/- A directory is added where there is no file. -/
theorem grows_addDir
    {t : FileTree}
    {p : Place}
    (h : t.file? p = none) :
    t.Grows (t.addDir p) := by
  constructor
  · intro q hDir
    rw [isDir_addDir, hDir, Bool.true_or]
  · intro q hFile
    refine ⟨?_, ?_⟩
    · rw [file?_of_files (files_addDir t p)]
      exact hFile
    · have hOther : q ≠ p := by
        rintro rfl
        rw [h] at hFile
        cases hFile
      simp [isDir_addDir, hOther]

theorem file?_eq_none_of_missing
    {t : FileTree}
    {here p : Place}
    {path : Bytes}
    (h : t.spot here path = .ok (.missing p)) :
    t.file? p = none := by
  have hPlace : t.place? here path = some p := by
    rw [place?, h]
  rw [place?_eq_some_iff, h, leaf] at hPlace
  cases hFile : t.file? p with
  | none => rfl
  | some content =>
      rw [hFile] at hPlace
      cases hPlace

theorem grows_makeDir
    {t t' : FileTree}
    {here : Place}
    {path : Bytes}
    (h : t.makeDir here path = .ok t') :
    t'.files = t.files ∧ t.Grows t' := by
  unfold makeDir at h
  split at h
  · rename_i p hMissing
    cases h
    exact ⟨files_addDir t p,
      grows_addDir (file?_eq_none_of_missing hMissing)⟩
  · cases h
    exact ⟨rfl, Grows.refl t⟩
  · cases h
  · cases h

theorem grows_makeDirsFrom
    {t t' : FileTree}
    {here : Place}
    {fuel : Nat}
    {path : Bytes}
    (h : makeDirsFrom here fuel path t = .ok t') :
    t'.files = t.files ∧ t.Grows t' := by
  induction fuel generalizing t t' path with
  | zero => exact grows_makeDir h
  | succ fuel ih =>
      unfold makeDirsFrom at h
      split at h
      · cases h
        exact ⟨rfl, Grows.refl t⟩
      · cases h
      · simp only at h
        split at h
        · exact grows_makeDir h
        · -- the directories above are made first
          split at h
          · cases h
          · rename_i above hAbove
            rcases ih hAbove with ⟨hFiles, hGrows⟩
            rcases grows_makeDir h with ⟨hFiles', hGrows'⟩
            exact ⟨hFiles'.trans hFiles, hGrows.trans hGrows'⟩

/- Making directories changes no file. -/
theorem grows_makeDirs
    {t t' : FileTree}
    {here : Place}
    {path : Bytes}
    (h : t.makeDirs here path = .ok t') :
    t'.files = t.files ∧ t.Grows t' :=
  grows_makeDirsFrom h

namespace Grows

variable {t t' : FileTree}

theorem enter?_eq
    {dir d : Place}
    {name : Bytes}
    (hGrows : t.Grows t')
    (h : t.enter? dir name = some d) :
    t'.enter? dir name = some d := by
  unfold FileTree.enter? at h ⊢
  split at h
  · rename_i hDot
    rw [if_pos hDot]
    exact h
  · rename_i hDot
    rw [if_neg hDot]
    split at h
    · rename_i hUp
      rw [if_pos hUp]
      exact h
    · rename_i hUp
      rw [if_neg hUp]
      split at h
      · rename_i hDir
        rw [if_pos ⟨hDir.1, hGrows.dirs _ hDir.2⟩]
        exact h
      · cases h

/- A file is still none of the directories. -/
theorem enter?_eq_none
    {dir : Place}
    {name : Bytes}
    (hGrows : t.Grows t')
    (hFile : (t.file? (dir ++ [name])).isSome = true)
    (h : t.enter? dir name = none) :
    t'.enter? dir name = none := by
  unfold FileTree.enter? at h ⊢
  rw [(hGrows.files _ hFile).2]
  exact h

/- A walk to a directory still leads there. -/
theorem walk_dir
    {dir d : Place}
    {names : List Bytes}
    (hGrows : t.Grows t')
    (h : walk t dir names = .ok (.dir d)) :
    walk t' dir names = .ok (.dir d) := by
  induction names generalizing dir with
  | nil => exact h
  | cons name names ih =>
      rcases exists_enter?_of_walk_dir h with
        ⟨next, hEnter, hRest⟩
      rw [walk_of_enter? _ (hGrows.enter?_eq hEnter)]
      exact ih hRest

/- A walk to a file still leads there. -/
theorem walk_leaf
    {dir p : Place}
    {names : List Bytes}
    (hGrows : t.Grows t')
    (hFile : (t.file? p).isSome = true)
    (h : walk t dir names = .ok (leaf t p)) :
    walk t' dir names = .ok (leaf t' p) := by
  induction names generalizing dir with
  | nil =>
      have hLeaf := isDir_leaf t p
      rw [← Except.ok.inj h] at hLeaf
      cases hLeaf
  | cons name names ih =>
      cases hEnter : t.enter? dir name with
      | some next =>
          rw [walk_of_enter? _ hEnter] at h
          rw [walk_of_enter? _ (hGrows.enter?_eq hEnter)]
          exact ih h
      | none =>
          rcases (walk_of_not_enter? hEnter).mp h with
            ⟨hRest, hShort, hLeaf⟩
          have hPlace := congrArg Spot.place hLeaf
          rw [place_leaf, place_leaf] at hPlace
          subst hPlace
          have hEnter' := hGrows.enter?_eq_none hFile hEnter
          exact (walk_of_not_enter? hEnter').mpr
            ⟨hRest, hShort, rfl⟩

theorem spot_dir
    {here d : Place}
    {path : Bytes}
    (hGrows : t.Grows t')
    (h : t.spot here path = .ok (.dir d)) :
    t'.spot here path = .ok (.dir d) := by
  rw [spot_eq_ok_iff] at h ⊢
  exact ⟨h.1, h.2.1, hGrows.walk_dir h.2.2⟩

/- A path that leads to a file still leads to it. -/
theorem place?_eq
    {here p : Place}
    {path : Bytes}
    (hGrows : t.Grows t')
    (hFile : (t.file? p).isSome = true)
    (h : t.place? here path = some p) :
    t'.place? here path = some p := by
  rw [place?_eq_some_iff, spot_eq_ok_iff] at h ⊢
  exact ⟨h.1, h.2.1, hGrows.walk_leaf hFile h.2.2⟩

end Grows

end FileTree

------------------------------------------------------------
-- Writing
------------------------------------------------------------

namespace Workspace

/- What is in the file at a place when all outputs are written. -/
def LeftAt
    (w' : Workspace)
    (outputs : List Generate.Output)
    (p : Place) : Prop :=
  ∃ output ∈ outputs,
    w'.tree.place? w'.here output.path = some p ∧
      w'.tree.file? p = some output.content

/-
  Every output has a place, and the file at that place has the
  content of an output at it; any other file is as before.
-/
theorem file_of_writeFiles
    {outputs : List Generate.Output}
    {w w' : Workspace}
    (h : writeFiles outputs w = .ok () w') :
    w'.here = w.here ∧ w.tree.Grows w'.tree ∧
      (∀ p,
        w'.tree.file? p = w.tree.file? p ∨
          LeftAt w' outputs p) ∧
      ∀ output ∈ outputs,
        ∃ p,
          w'.tree.place? w'.here output.path = some p ∧
            LeftAt w' outputs p := by
  induction outputs generalizing w with
  | nil =>
      cases h
      exact ⟨rfl, FileTree.Grows.refl _, fun p => Or.inl rfl,
        List.forall_mem_nil _⟩
  | cons output outputs ih =>
      rcases exists_place_of_writeFiles_cons h with
        ⟨t, place, hMade, hPlace, hRest⟩
      rcases FileTree.grows_makeDirs hMade with
        ⟨hFiles, hDirs⟩
      rcases ih hRest with
        ⟨hHere, hGrows, hContents, hPlaces⟩
      have hLater
          {p : Place}
          (hLeft : LeftAt w' outputs p) :
          LeftAt w' (output :: outputs) p := by
        rcases hLeft with ⟨last, hMem, hLast⟩
        exact ⟨last, List.mem_cons_of_mem output hMem, hLast⟩
      have hPut :
          (t.put place output.content).file? place =
            some output.content := by
        rw [FileTree.file?_put, if_pos rfl]
      have hSome :
          ((t.put place output.content).file? place).isSome =
            true := by
        rw [hPut]
        rfl
      have hSameDirs :
          (t.put place output.content).dirs = t.dirs := rfl
      -- the place is one of a file from here on
      have hKept :
          w'.tree.place? w'.here output.path = some place := by
        rw [hHere]
        refine hGrows.place?_eq hSome ?_
        exact (FileTree.place?_of_dirs hSameDirs _ _).trans
          hPlace
      have hHead : LeftAt w' (output :: outputs) place := by
        rcases hContents place with hSame | hLeft
        · exact ⟨output, List.mem_cons_self, hKept,
            hSame.trans hPut⟩
        · exact hLater hLeft
      refine ⟨hHere,
        (hDirs.trans (FileTree.grows_put t _ _)).trans hGrows,
        ?_, ?_⟩
      · intro p
        rcases hContents p with hSame | hLeft
        · by_cases hTaken : p = place
          · exact Or.inr (hTaken ▸ hHead)
          · left
            rw [hSame, FileTree.file?_put, if_neg hTaken,
              FileTree.file?_of_files hFiles]
        · exact Or.inr (hLater hLeft)
      · refine List.forall_mem_cons.mpr
          ⟨⟨place, hKept, hHead⟩, ?_⟩
        intro other hMem
        rcases hPlaces other hMem with ⟨p, hOther, hLeft⟩
        exact ⟨p, hOther, hLater hLeft⟩

end Workspace

------------------------------------------------------------
-- Paths of Outputs
------------------------------------------------------------

namespace Generate

/- Generation that goes through has the outputs of all files. -/
theorem files_runUntil_cases
    [Imports.Tidier]
    (s : Settings)
    (shared : Log.Level)
    (stop : Option Nat)
    (files : List Source.File) :
    (runUntil s shared stop files).files = [] ∨
      (runUntil s shared stop files).files =
        files.flatMap (outputOf s) := by
  cases hError : (runUntil s shared stop files).error with
  | some e =>
      left
      rw [Outcome.files, hError]
      rfl
  | none =>
      right
      have hRun := Workspace.runUntil_of_no_error hError
      have hRenders :
          ∀ file ∈ files, ∀ cause, ¬ Breaks s file cause := by
        intro file hMem cause hBad
        rcases exists_first_breaks ⟨file, hMem, cause, hBad⟩
          with ⟨before, bad, after, cause', rfl, hFirst, hBreaks⟩
        have hStop := run_of_breaks shared after hFirst hBreaks
        rw [← hRun, hError] at hStop
        cases hStop.1
      rw [hRun]
      exact (run_of_not_breaks shared hRenders).2.1

/- The outputs have some of the paths of companions, in order. -/
theorem paths_sublist
    [Imports.Tidier]
    {s : Settings}
    (hMode : s.mode = Settings.companion)
    (files : List Source.File) :
    ((files.flatMap (outputOf s)).map Output.path).Sublist
      (files.map fun f => companionPath f.path s.suffix) := by
  induction files with
  | nil => exact List.Sublist.refl _
  | cons f files ih =>
      rw [List.flatMap_cons, List.map_append, List.map_cons]
      by_cases hNone : outputOf s f = []
      · rw [hNone, List.map_nil, List.nil_append]
        exact ih.cons _
      · have hOne :
            (outputOf s f).map Output.path =
              [companionPath f.path s.suffix] := by
          rcases List.exists_mem_of_ne_nil _ hNone with
            ⟨o, hMem⟩
          have hPrinted := (mem_outputOf_iff.mp hMem).1
          have hRender := (mem_outputOf_iff.mp hMem).2
          have hOutput := outputOf_of_printed hPrinted
          rw [hRender] at hOutput
          rw [hOutput, ← path_of_mem_outputOf hMode hMem]
          rfl
        rw [hOne, List.singleton_append]
        exact ih.cons_cons _

/- Companions of different sources have different paths. -/
theorem nodup_paths_of_runUntil
    [Imports.Tidier]
    {s : Settings}
    (shared : Log.Level)
    (stop : Option Nat)
    {files : List Source.File}
    (hMode : s.mode = Settings.companion)
    (hSources :
      ∀ f ∈ files, f.path.endsWith sourceEnding = true)
    (hDistinct : (files.map Source.File.path).Nodup) :
    ((runUntil s shared stop files).files.map
      Output.path).Nodup := by
  have hCompanions :
      ((files.map Source.File.path).map fun path =>
        companionPath path s.suffix).Nodup := by
    refine hDistinct.map_on ?_
    intro p hFirst q hSecond hSame
    rcases List.mem_map.mp hFirst with ⟨f, hFile, rfl⟩
    rcases List.mem_map.mp hSecond with ⟨g, hFile', rfl⟩
    exact Settings.eq_of_companionPath_eq (hSources f hFile)
      (hSources g hFile') hSame
  rw [List.map_map] at hCompanions
  rcases files_runUntil_cases s shared stop files with
    hNone | hAll
  · rw [hNone]
    exact List.nodup_nil
  · rw [hAll]
    exact hCompanions.sublist (paths_sublist hMode files)

end Generate

------------------------------------------------------------
-- Lost Outputs
------------------------------------------------------------

namespace Workspace

/- What is read at the path of an output is its content. -/
def Shows
    (w : Workspace)
    (output : Generate.Output) : Prop :=
  w.tree.read w.here output.path = .ok output.content

/- Two texts are given for one file, under two paths. -/
structure Conflicts
    (w : Workspace)
    (f g : Source.File) : Prop where
  paths : f.path ≠ g.path
  spot : w.SameSpot f.path g.path
  texts : f.unplaced ≠ g.unplaced

/- Sources that were read from the tree do not conflict. -/
theorem not_conflicts_of_holds
    {w w' : Workspace}
    {f g : Source.File}
    (hHere : w'.here = w.here)
    (hGrows : w.tree.Grows w'.tree)
    (hFile : w.Holds f)
    (hFile' : w.Holds g) :
    ¬ w'.Conflicts f g := by
  have hOnce
      {f : Source.File}
      {d : Place}
      (hHolds : w.Holds f)
      (h :
        w'.tree.spot w'.here (Path.dir f.path) =
          .ok (.dir d)) :
      w.tree.spot w.here (Path.dir f.path) = .ok (.dir d) := by
    rcases hHolds.exists_folder with ⟨d', _, hFolder, _⟩
    have hStill := hGrows.spot_dir hFolder
    rw [← hHere, h] at hStill
    cases hStill
    exact hFolder
  intro hConflict
  rcases hConflict.spot with ⟨⟨d, hDir, hDir'⟩, hName⟩
  exact hConflict.texts
    (unplaced_eq_of_sameSpot hFile hFile'
      ⟨⟨d, hOnce hFile hDir, hOnce hFile' hDir'⟩, hName⟩)

/- An output is lost only if its source conflicts with another. -/
theorem shows_or_conflicts
    [Imports.Tidier]
    {w w' : Workspace}
    {s : Settings}
    {files : List Source.File}
    {outputs : List Generate.Output}
    (hTidy : w'.TidiesByPlace)
    (hValid : s.validate = .ok ())
    (hSources :
      ∀ f ∈ files, f.path.endsWith sourceEnding = true)
    (hDistinct : (files.map Source.File.path).Nodup)
    (hOutputs :
      ∀ output ∈ outputs,
        ∃ f ∈ files, output ∈ Generate.outputOf s f)
    (h : writeFiles outputs w = .ok () w') :
    ∀ output ∈ outputs,
      w'.Shows output ∨
        ∃ f ∈ files,
          output ∈ Generate.outputOf s f ∧
            ∃ g ∈ files, w'.Conflicts f g := by
  intro output hMem
  rcases (file_of_writeFiles h).2.2.2 output hMem with
    ⟨p, hPlace, last, hLast, hLastPlace, hContent⟩
  rcases hOutputs output hMem with ⟨f, hFile, hOutput⟩
  rcases hOutputs last hLast with ⟨g, hFile', hOther⟩
  have hSpot :=
    sameSpot_of_place?_eq hValid (hSources f hFile) hOutput
      hPlace (hSources g hFile') hOther hLastPlace
  by_cases hTexts : f.unplaced = g.unplaced
  · left
    have hSame :=
      Generate.content_eq_of_unplaced_eq hTexts
        (hTidy hPlace hLastPlace)
        (Generate.mem_outputOf_iff.mp hOutput).2
        (Generate.mem_outputOf_iff.mp hOther).2
    refine FileTree.read_eq_ok_iff.mpr ⟨p, hPlace, ?_⟩
    rw [hContent, hSame]
  · right
    refine ⟨f, hFile, hOutput, g, hFile', ?_, hSpot, hTexts⟩
    intro hPath
    exact hTexts
      (congrArg Source.File.unplaced
        (List.inj_on_of_nodup_map hDistinct hFile hFile' hPath))

/-
  With a valid suffix every companion is another source beside
  its own, and different sources have different companions.
  So the outputs of different sources have different paths,
  and when they are written none is lost, unless two texts are
  given for one file under two paths, which is not the case
  for sources that are read from the tree.

  The tool that tidies imports is any that tidies one file in
  one way.  States with symbolic or hard links are outside, as
  a file tree has none: through links two places can be one
  file, and one output would be lost to the other.
-/
theorem companions_never_collide
    [Imports.Tidier]
    {s : Settings}
    (hValid : s.validate = .ok ()) :
    (∀ p q : Bytes,
        p.endsWith sourceEnding = true →
          q.endsWith sourceEnding = true →
            IsBeside p (companionPath p s.suffix) ∧
              (companionPath p s.suffix =
                  companionPath q s.suffix →
                p = q)) ∧
      (s.mode = Settings.companion →
        ∀ (shared : Log.Level) (stop : Option Nat)
          (files : List Source.File),
          (∀ f ∈ files, f.path.endsWith sourceEnding = true) →
            (files.map Source.File.path).Nodup →
              let outputs :=
                (Generate.runUntil s shared stop files).files
              (outputs.map Generate.Output.path).Nodup ∧
                ∀ w w' : Workspace,
                  writeFiles outputs w = .ok () w' →
                    w'.TidiesByPlace →
                      (∀ output ∈ outputs,
                        w'.Shows output ∨
                          ∃ f ∈ files,
                            output ∈ Generate.outputOf s f ∧
                              ∃ g ∈ files,
                                w'.Conflicts f g) ∧
                        ((∀ f ∈ files, w.Holds f) →
                          ∀ output ∈ outputs,
                            w'.Shows output)) := by
  have hSuffix := Settings.isSuffix_of_validate hValid
  constructor
  · intro p q hFirst hSecond
    exact ⟨Settings.isBeside_companionPath hSuffix hFirst,
      Settings.eq_of_companionPath_eq hFirst hSecond⟩
  · intro hMode shared stop files hSources hDistinct
    refine ⟨Generate.nodup_paths_of_runUntil shared stop hMode
      hSources hDistinct, ?_⟩
    intro w w' hWrite hTidy
    have hOutputs :
        ∀ output ∈
            (Generate.runUntil s shared stop files).files,
          ∃ f ∈ files, output ∈ Generate.outputOf s f := by
      intro output hMem
      rcases Generate.files_runUntil_cases s shared stop files
        with hNone | hAll
      · rw [hNone] at hMem
        cases hMem
      · rw [hAll] at hMem
        exact List.mem_flatMap.mp hMem
    have hLost :=
      shows_or_conflicts hTidy hValid hSources hDistinct
        hOutputs hWrite
    refine ⟨hLost, ?_⟩
    intro hHolds output hMem
    rcases file_of_writeFiles hWrite with ⟨hHere, hGrows, _⟩
    rcases hLost output hMem with
      hShown | ⟨f, hFile, _, g, hFile', hConflict⟩
    · exact hShown
    · exact absurd hConflict
        (not_conflicts_of_holds hHere hGrows (hHolds f hFile)
          (hHolds g hFile'))

/- Two sources in a directory. -/
def pairedWorkspace : Workspace :=
  { tree :=
      { files :=
          [([utf8 "p", utf8 "a.go"],
              utf8 "package p\n\n// @alias(A)\nfunc F() \x7b\x7d\n"),
            ([utf8 "p", utf8 "b.go"],
              utf8 "package p\n\n// @alias(B)\nfunc G() \x7b\x7d\n")]
        dirs := [[utf8 "p"]] } }

/- One of them is given under two paths. -/
def pairedPaths : List Bytes :=
  [utf8 "p/a.go", utf8 "p/../p/a.go", utf8 "p/b.go"]

/- Load the sources, generate and write their companions. -/
def expandPaired : Session (List Bytes × List Bytes) := do
  let files ← loadFiles pairedPaths
  let outputs :=
    (Generate.runUntil Settings.standard .info none files).files
  writeFiles outputs
  return (files.map Source.File.path,
    outputs.map Generate.Output.path)

theorem paired_companions_are_kept :
    ∃ files w',
      let outputs :=
        (Generate.runUntil Settings.standard .info none
          files).files
      files.map Source.File.path = pairedPaths ∧
        writeFiles outputs pairedWorkspace = .ok () w' ∧
        outputs.map Generate.Output.path =
          [utf8 "p/a_alias.go", utf8 "p/../p/a_alias.go",
            utf8 "p/b_alias.go"] ∧
        (outputs.map Generate.Output.path).Nodup ∧
        ∀ output ∈ outputs, w'.Shows output := by
  have hOutcome :
      outcome expandPaired pairedWorkspace =
        .ok
          (pairedPaths,
            [utf8 "p/a_alias.go", utf8 "p/../p/a_alias.go",
              utf8 "p/b_alias.go"]) := by
    decide +kernel
  rcases exists_of_bind_ok (eq_ok_of_outcome hOutcome) with
    ⟨files, w, hLoad, hRest⟩
  rcases exists_of_bind_ok hRest with ⟨_, w', hWrite, hEnd⟩
  have hKept : w = pairedWorkspace := by
    have hKeeps : Keeps id (loadFiles pairedPaths) :=
      keeps_loadFiles pairedPaths
    rw [← after_of_ok hLoad]
    exact hKeeps pairedWorkspace
  subst hKept
  rcases Prod.mk.inj (EStateM.Result.ok.inj hEnd).1 with
    ⟨hPaths, hOutputs⟩
  have hNamed :
      ∀ path ∈ pairedPaths,
        path.endsWith sourceEnding = true := by
    decide +kernel
  have hDistinct : (files.map Source.File.path).Nodup := by
    rw [hPaths]
    decide +kernel
  have hSources :
      ∀ f ∈ files, f.path.endsWith sourceEnding = true := by
    intro f hMem
    refine hNamed f.path ?_
    rw [← hPaths]
    exact List.mem_map_of_mem hMem
  rcases (companions_never_collide
      (s := Settings.standard) (by decide +kernel)).2 rfl .info
      none files hSources hDistinct with
    ⟨hNodup, hShown⟩
  exact ⟨files, w', hPaths, hWrite, hOutputs, hNodup,
    (hShown _ w' hWrite (tidiesByPlace_tidy w')).2
      (holds_of_loadFiles hNamed hLoad)⟩

end Workspace

end Namesake
