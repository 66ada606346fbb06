import Namesake.Proofs.FileTree
import Namesake.Proofs.Workspace.Prediction

/-
  The settings file that a task writes for the tasks after it.
  Whether a file is there is asked with the path as it is
  given, but written is the file of the cleaned path; the two
  differ only if the path as it is given leads nowhere.  What
  was written is what the next task reads, but not every log
  level that was written can be used.

  Main declarations:
    * `Workspace.init_eq`
    * `Workspace.init_replaces_iff`
    * `Workspace.configure`
    * `Workspace.configure_after_init_iff`
-/

namespace Namesake

/- Settings without empty texts have nothing to fill in. -/
theorem Settings.fillEmpty_of_ne_nil
    {s : Settings}
    (hDirective : s.directive ≠ [])
    (hMode : s.mode ≠ [])
    (hSuffix : s.suffix ≠ [])
    (hLevel : s.logLevel ≠ []) :
    s.fillEmpty = s := by
  simp [fillEmpty, hDirective, hMode, hSuffix, hLevel]

namespace Workspace

------------------------------------------------------------
-- Initializing
------------------------------------------------------------

namespace Options

/- The path of the settings file of a task. -/
def settingsPath
    (o : Options) : Bytes :=
  if o.configPath.isEmpty then Settings.defaultPath else o.configPath

/- The settings that are written to a new file. -/
def initial
    (o : Options) : Settings :=
  o.override Settings.standard

theorem settingsPath_isEmpty
    (o : Options) :
    o.settingsPath.isEmpty = false := by
  unfold settingsPath
  split
  · rfl
  · rename_i hPath
    exact Bool.eq_false_iff.mpr hPath

end Options

/- The line that tells that the settings were written. -/
def initLine
    (o : Options)
    (w : Workspace) : Bytes :=
  Log.Logger.emit {} w.level .info
    (utf8 "wrote " ++ o.settingsPath) []

theorem init_eq
    (o : Options)
    (w : Workspace) :
    init o w =
      if w.tree.isThere w.here o.settingsPath && !o.force then
        .error (.settingsExist o.settingsPath) w
      else
        match o.initial.validate with
        | .error e => .error (.settings e) w
        | .ok _ =>
            match w.tree.write w.here
                (Path.clean o.settingsPath)
                o.initial.render with
            | .error e => .error (.savingSettings e) w
            | .ok tree =>
                .ok ()
                  (withErrorText { w with tree }
                    (initLine o w)) := by
  unfold init
  simp only [← Options.settingsPath.eq_1, ← Options.initial.eq_1]
  rw [bind_of_ok _ (get_eq w)]
  split
  · rfl
  · cases hValid : o.initial.validate with
    | error e =>
        simp only [saveSettings, hValid]
        rfl
    | ok _ =>
        simp only [saveSettings, hValid,
          o.settingsPath_isEmpty, Bool.false_eq_true, if_false]
        cases hWrite :
            w.tree.write w.here (Path.clean o.settingsPath)
              o.initial.render with
        | error e =>
            exact bind_of_error _
              (by rw [writeFile_eq, hWrite])
        | ok tree =>
            refine (bind_of_ok _
              (by rw [writeFile_eq, hWrite])).trans ?_
            rfl

/- What a workspace is when settings were written. -/
theorem init_eq_ok_iff
    {o : Options}
    {w w' : Workspace} :
    init o w = .ok () w' ↔
      (w.tree.isThere w.here o.settingsPath = false ∨
          o.force = true) ∧
        o.initial.validate = .ok () ∧
        ∃ p,
          w.tree.place? w.here (Path.clean o.settingsPath) =
              some p ∧
            w' =
              withErrorText
                { w with
                  tree := w.tree.put p o.initial.render }
                (initLine o w) := by
  constructor
  · intro h
    rw [init_eq] at h
    split at h
    · cases h
    · rename_i hFree
      split at h
      · cases h
      · rename_i hValid
        split at h
        · cases h
        · rename_i tree hWrite
          cases h
          rcases FileTree.write_eq_ok_iff.mp hWrite with
            ⟨p, hPlace, rfl⟩
          refine ⟨?_, hValid, p, hPlace, rfl⟩
          cases hThere :
              w.tree.isThere w.here o.settingsPath with
          | false => exact Or.inl rfl
          | true =>
              rw [hThere] at hFree
              exact Or.inr (by simpa using hFree)
  · rintro ⟨hFree, hValid, p, hPlace, rfl⟩
    have hWrite :
        w.tree.write w.here (Path.clean o.settingsPath)
            o.initial.render =
          .ok (w.tree.put p o.initial.render) :=
      FileTree.write_eq_ok_iff.mpr ⟨p, hPlace, rfl⟩
    rw [init_eq, if_neg, hValid]
    · simp only
      rw [hWrite]
    · rcases hFree with hFree | hFree <;> simp [hFree]

/- A task that fails writes no settings. -/
theorem init_eq_of_error
    {o : Options}
    {w w' : Workspace}
    {e : Error}
    (h : init o w = .error e w') :
    w' = w := by
  rw [init_eq] at h
  split at h
  · cases h
    rfl
  · split at h
    · cases h
      rfl
    · split at h
      · cases h
        rfl
      · cases h

------------------------------------------------------------
-- Replacing
------------------------------------------------------------

/-
  If the task fails no file changes, and it never changes any
  but the file of the cleaned path.  A file that was there is
  replaced, although that is not asked for, exactly if the
  path leads nowhere as it is given but leads to the file when
  it is cleaned, the settings are valid, and they are not what
  the file has already.
-/
theorem init_replaces_iff
    (o : Options)
    (w : Workspace) :
    (∀ e,
        outcome (init o) w = .error e →
          (after (init o) w).tree = w.tree) ∧
      (∀ p,
        (after (init o) w).tree.file? p ≠ w.tree.file? p →
          w.tree.place? w.here (Path.clean o.settingsPath) =
              some p ∧
            (after (init o) w).tree.file? p =
              some o.initial.render) ∧
      (o.force = false →
        ∀ p old,
          w.tree.file? p = some old →
            ((after (init o) w).tree.file? p ≠ some old ↔
              (∃ cause,
                w.tree.spot w.here o.settingsPath =
                  .error cause) ∧
                w.tree.place? w.here
                    (Path.clean o.settingsPath) = some p ∧
                o.initial.validate = .ok () ∧
                o.initial.render ≠ old)) := by
  cases hResult : init o w with
  | error e w' =>
      have hSame := init_eq_of_error hResult
      rw [outcome_of_error hResult, after_of_error hResult, hSame]
      refine ⟨fun _ _ => rfl, fun p hNot => absurd rfl hNot, ?_⟩
      intro _ p old hFile
      refine ⟨fun hNot => absurd hFile hNot, ?_⟩
      rintro ⟨⟨cause, hSpot⟩, hPlace, hValid, _⟩
      have hOk :=
        init_eq_ok_iff.mpr
          ⟨Or.inl (FileTree.isThere_of_error hSpot), hValid, p,
            hPlace, rfl⟩
      rw [hResult] at hOk
      cases hOk
  | ok u w' =>
      rcases init_eq_ok_iff.mp hResult with
        ⟨hFree, hValid, p, hPlace, hAfter⟩
      have hTree : w'.tree = w.tree.put p o.initial.render :=
        congrArg Workspace.tree hAfter
      rw [outcome_of_ok hResult, after_of_ok hResult, hTree]
      refine ⟨?_, ?_, ?_⟩
      · intro e hError
        cases hError
      · intro q hNot
        rw [FileTree.file?_put] at hNot ⊢
        by_cases hHere : q = p
        · rw [hHere, if_pos rfl]
          exact ⟨hPlace, rfl⟩
        · rw [if_neg hHere] at hNot
          exact absurd rfl hNot
      · intro hForce q old hFile
        have hThere :
            w.tree.isThere w.here o.settingsPath = false := by
          simpa [hForce] using hFree
        rw [FileTree.file?_put]
        constructor
        · intro hNot
          by_cases hHere : q = p
          · rw [if_pos hHere] at hNot
            subst hHere
            exact ⟨FileTree.exists_cause_of_file? hThere hPlace
              hFile, hPlace, hValid,
              fun hSame => hNot (congrArg some hSame)⟩
          · rw [if_neg hHere] at hNot
            exact absurd hFile hNot
        · rintro ⟨_, hSame, _, hNew⟩
          rw [hPlace] at hSame
          cases hSame
          rw [if_pos rfl]
          exact fun hOld => hNew (Option.some.inj hOld)

/- A settings file with a directive of its own. -/
def configuredWorkspace : Workspace :=
  { tree :=
      { files :=
          [([utf8 ".aliasgen.yaml"],
            utf8 "directive: dup\n")] } }

/- A path that goes through a directory that is missing. -/
def detour : Options :=
  { configPath := utf8 "missing/../.aliasgen.yaml" }

/- The file is replaced, although that is not asked for. -/
theorem init_replaces_file_behind_missing_dir :
    detour.force = false ∧
      configuredWorkspace.tree.file? [utf8 ".aliasgen.yaml"] =
        some (utf8 "directive: dup\n") ∧
      outcome (init detour) configuredWorkspace = .ok () ∧
      (after (init detour) configuredWorkspace).tree.file?
          [utf8 ".aliasgen.yaml"] =
        some Settings.standard.render ∧
      Settings.standard.render ≠ utf8 "directive: dup\n" := by
  decide +kernel

theorem init_replaces_configured_file :
    detour.force = false ∧
      configuredWorkspace.tree.file? [utf8 ".aliasgen.yaml"] =
        some (utf8 "directive: dup\n") ∧
      (after (init detour) configuredWorkspace).tree.file?
          [utf8 ".aliasgen.yaml"] ≠
        some (utf8 "directive: dup\n") :=
  ⟨rfl, rfl,
    ((init_replaces_iff detour configuredWorkspace).2.2 rfl
        [utf8 ".aliasgen.yaml"] (utf8 "directive: dup\n")
        rfl).mpr
      ⟨⟨.notFound, by decide +kernel⟩, by decide +kernel,
        by decide +kernel, by decide +kernel⟩⟩

------------------------------------------------------------
-- Using What Was Written
------------------------------------------------------------

/- Read the settings of a task and use their log level. -/
def configure
    (o : Options) : Session Settings := do
  let s ← settingsFor o
  useLevel s
  return s

/- A task reads its sources when it has its settings. -/
theorem prepare_eq
    [Packages.Loader]
    (o : Options) :
    prepare o = do
      let s ← configure o
      let files ← sourcesFor o
      return (s, files) := by
  simp only [prepare, configure, bind_assoc, pure_bind]

theorem loadSettings_eq_of_read
    {o : Options}
    {w : Workspace}
    {content : Bytes}
    {s : Settings}
    (hRead :
      w.tree.read w.here (Path.clean o.settingsPath) =
        .ok content)
    (hParse : Settings.parse content = .ok s) :
    loadSettings o.configPath w = .ok s w := by
  have hPath :
      (if !o.configPath.isEmpty then o.configPath
        else Settings.defaultPath) =
        o.settingsPath := by
    unfold Options.settingsPath
    cases o.configPath.isEmpty <;> rfl
  have hFile :
      readFile (Path.clean o.settingsPath) w =
        .ok (.ok content) w := by
    unfold readFile
    rw [bind_of_ok _ (get_eq w), hRead]
    rfl
  unfold loadSettings
  simp only [hPath]
  rw [bind_of_ok _ hFile]
  simp only [hParse]
  rfl

namespace Options

/- A task that does not replace settings. -/
def OverridesNothing
    (o : Options) : Prop :=
  o.directive = [] ∧ o.mode = [] ∧ o.suffix = [] ∧
    o.logLevel = []

theorem override_of_overridesNothing
    {o : Options}
    (h : o.OverridesNothing)
    (s : Settings) :
    o.override s = s := by
  rcases h with ⟨hDirective, hMode, hSuffix, hLevel⟩
  simp [override, hDirective, hMode, hSuffix, hLevel]

theorem chosen_ne_nil
    (wanted : Bytes)
    {given : Bytes}
    (h : given ≠ []) :
    (if wanted.isEmpty then given else wanted) ≠ [] := by
  split
  · exact h
  · rename_i hWanted
    simpa using hWanted

/- No text of the settings of a new file is empty. -/
theorem fillEmpty_initial
    (o : Options) :
    o.initial.fillEmpty = o.initial :=
  Settings.fillEmpty_of_ne_nil
    (chosen_ne_nil o.directive (by decide))
    (chosen_ne_nil o.mode (by decide))
    (chosen_ne_nil o.suffix (by decide))
    (chosen_ne_nil o.logLevel (by decide))

/- The log level of a new file is the one asked for, if any. -/
theorem parse?_logLevel_initial
    (o : Options) :
    Log.Level.parse? o.initial.logLevel =
      if o.logLevel = [] then some .info
      else Log.Level.parse? o.logLevel := by
  have hLevel : Settings.standard.logLevel = utf8 "info" := rfl
  simp only [initial, override, List.isEmpty_iff]
  split
  · rw [hLevel]
    decide +kernel
  · rfl

end Options

theorem useLevel_of_some
    {s : Settings}
    {level : Log.Level}
    (h : Log.Level.parse? s.logLevel = some level)
    (w : Workspace) :
    ∃ w', useLevel s w = .ok () w' := by
  unfold useLevel
  rw [h]
  exact ⟨_, rfl⟩

theorem useLevel_of_none
    {s : Settings}
    (h : Log.Level.parse? s.logLevel = none)
    (w : Workspace) :
    useLevel s w = .error (.logLevel s.logLevel) w := by
  unfold useLevel
  rw [h]
  rfl

/- What a task without settings of its own reads. -/
theorem settingsFor_after_init
    {o o' : Options}
    {w w' : Workspace}
    (hInit : init o w = .ok () w')
    (hPath : o'.configPath = o.configPath)
    (hPlain : o'.OverridesNothing)
    (hText :
      Settings.decodeText o.initial.render Settings.standard =
        .ok o.initial) :
    settingsFor o' w' = .ok o.initial w' := by
  rcases init_eq_ok_iff.mp hInit with
    ⟨_, hValid, p, hPlace, rfl⟩
  have hParse :
      Settings.parse o.initial.render = .ok o.initial := by
    rw [Settings.parse, hText]
    simp only [o.fillEmpty_initial, hValid]
  have hRead :
      (w.tree.put p o.initial.render).read w.here
          (Path.clean o.settingsPath) =
        .ok o.initial.render := by
    refine FileTree.read_eq_ok_iff.mpr ⟨p, ?_, ?_⟩
    · have hDirs :
          (w.tree.put p o.initial.render).dirs = w.tree.dirs :=
        rfl
      rw [FileTree.place?_of_dirs hDirs]
      exact hPlace
    · rw [FileTree.file?_put, if_pos rfl]
  unfold settingsFor
  rw [hPath,
    bind_of_ok _ (loadSettings_eq_of_read hRead hParse)]
  simp only [Options.override_of_overridesNothing hPlain,
    hValid]
  rfl

/-
  The settings of a new file are read again as they were
  written, if the text of settings is read as those settings.
  They can be used exactly if no log level was asked for or it
  is a known one; any other is written, and then ends every
  task that reads the file.
-/
theorem configure_after_init_iff
    [Packages.Loader]
    [Imports.Tidier]
    {o o' : Options}
    {w w' : Workspace}
    (hInit : init o w = .ok () w')
    (hPath : o'.configPath = o.configPath)
    (hPlain : o'.OverridesNothing)
    (hText :
      Settings.decodeText o.initial.render Settings.standard =
        .ok o.initial) :
    settingsFor o' w' = .ok o.initial w' ∧
      ((∃ w₁, configure o' w' = .ok o.initial w₁) ↔
        o.logLevel = [] ∨
          ∃ level, Log.Level.parse? o.logLevel = some level) ∧
      (o.logLevel ≠ [] →
        Log.Level.parse? o.logLevel = none →
        ∀ stop,
          runUntil o' stop w' =
              .error (.logLevel o.logLevel) w' ∧
            checkUntil o' stop w' =
              .error (.logLevel o.logLevel) w') := by
  have hSettings :=
    settingsFor_after_init hInit hPath hPlain hText
  have hLevel := o.parse?_logLevel_initial
  have hConfigure :
      configure o' w' =
        (useLevel o.initial >>= fun _ => pure o.initial) w' :=
    bind_of_ok _ hSettings
  refine ⟨hSettings, ?_, ?_⟩
  · rw [hConfigure]
    constructor
    · rintro ⟨w₁, hOk⟩
      by_cases hAsked : o.logLevel = []
      · exact Or.inl hAsked
      · rw [if_neg hAsked] at hLevel
        cases hKnown : Log.Level.parse? o.logLevel with
        | some level => exact Or.inr ⟨level, rfl⟩
        | none =>
            rw [bind_of_error _
              (useLevel_of_none (hLevel.trans hKnown) w')] at hOk
            cases hOk
    · intro hUsable
      have hKnown :
          ∃ level,
            Log.Level.parse? o.initial.logLevel = some level := by
        rw [hLevel]
        split
        · exact ⟨.info, rfl⟩
        · rename_i hAsked
          exact hUsable.resolve_left hAsked
      rcases hKnown with ⟨level, hKnown⟩
      rcases useLevel_of_some hKnown w' with ⟨w₁, hUsed⟩
      exact ⟨w₁, bind_of_ok _ hUsed⟩
  · intro hAsked hUnknown stop
    have hWritten : o.initial.logLevel = o.logLevel := by
      simp [Options.initial, Options.override, hAsked]
    have hFailed :
        prepare o' w' = .error (.logLevel o.logLevel) w' := by
      rw [if_neg hAsked, hUnknown] at hLevel
      rw [prepare_eq]
      refine bind_of_error _ ?_
      rw [hConfigure, ← hWritten]
      exact bind_of_error _ (useLevel_of_none hLevel w')
    exact tasks_of_prepare_error stop hFailed

/- Settings that are asked for in every text. -/
def unusualOptions : Options :=
  { configPath := utf8 "conf/../.names.yaml"
    directive := utf8 "dup"
    mode := Settings.inPlace
    suffix := utf8 "_dup.go"
    logLevel := utf8 " WARN " }

/- A task that reads the settings of that file. -/
def unusualTask : Options :=
  { configPath := utf8 "conf/../.names.yaml" }

/- A log level that no task knows. -/
def loudOptions : Options :=
  { logLevel := utf8 "loud" }

/- Settings are written that end a run and a check. -/
theorem loud_settings_end_tasks :
    outcome (init loudOptions) {} = .ok () ∧
      Settings.decodeText loudOptions.initial.render
          Settings.standard =
        .ok loudOptions.initial ∧
      outcome (runUntil {} none)
          (after (init loudOptions) {}) =
        .error (.logLevel (utf8 "loud")) ∧
      outcome (checkUntil {} none)
          (after (init loudOptions) {}) =
        .error (.logLevel (utf8 "loud")) := by
  decide +kernel

theorem configure_after_unusual_init :
    ∃ w' w₁,
      init unusualOptions {} = .ok () w' ∧
        configure unusualTask w' =
          .ok unusualOptions.initial w₁ := by
  have hInit : outcome (init unusualOptions) {} = .ok () := by
    decide +kernel
  have hText :
      Settings.decodeText unusualOptions.initial.render
          Settings.standard =
        .ok unusualOptions.initial := by
    decide +kernel
  have hLevel :
      Log.Level.parse? unusualOptions.logLevel = some .warn := by
    decide +kernel
  have hWritten := eq_ok_of_outcome hInit
  have hPath :
      unusualTask.configPath = unusualOptions.configPath :=
    rfl
  have hPlain : unusualTask.OverridesNothing :=
    ⟨rfl, rfl, rfl, rfl⟩
  rcases (configure_after_init_iff hWritten hPath hPlain
      hText).2.1.mpr (Or.inr ⟨.warn, hLevel⟩) with ⟨w₁, hOk⟩
  exact ⟨_, w₁, hWritten, hOk⟩

end Workspace

end Namesake
