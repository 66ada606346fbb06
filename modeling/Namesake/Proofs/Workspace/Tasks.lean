import Mathlib.Algebra.GroupWithZero.Nat
import Namesake.Proofs.Generate.Independence
import Namesake.Workspace.Run

/-
  What the tasks of the program do to a workspace.  A task is
  a chain of steps; what every step keeps, the task keeps, and
  the streams grow by texts that can be told in advance.

  Main declarations:
    * `Workspace.outcome` and `Workspace.after`
    * `Workspace.Keeps`
    * `Workspace.keeps_prepare`
    * `Workspace.runUntil_of_prepare`
    * `Workspace.checkUntil_of_prepare`
    * `Workspace.deliver_cases`
-/

namespace Namesake

namespace Workspace

------------------------------------------------------------
-- Results
------------------------------------------------------------

variable {α β : Type}

/- What a task returns. -/
def outcome
    (p : Session α)
    (w : Workspace) : Except Error α :=
  match p w with
  | .ok a _ => .ok a
  | .error e _ => .error e

/- The workspace that a task leaves, also if it fails. -/
def after
    (p : Session α)
    (w : Workspace) : Workspace :=
  match p w with
  | .ok _ w' => w'
  | .error _ w' => w'

/- Each run shows what it leaves and what it returns. -/
theorem after_of_ok
    {p : Session α}
    {w w' : Workspace}
    {a : α}
    (h : p w = .ok a w') :
    after p w = w' := by
  rw [after, h]

theorem after_of_error
    {p : Session α}
    {w w' : Workspace}
    {e : Error}
    (h : p w = .error e w') :
    after p w = w' := by
  rw [after, h]

/- The outcome of a run forgets the workspace. -/
theorem outcome_of_ok
    {p : Session α}
    {w w' : Workspace}
    {a : α}
    (h : p w = .ok a w') :
    outcome p w = .ok a := by
  rw [outcome, h]

theorem outcome_of_error
    {p : Session α}
    {w w' : Workspace}
    {e : Error}
    (h : p w = .error e w') :
    outcome p w = .error e := by
  rw [outcome, h]

/- A value that is returned comes with the workspace behind it. -/
theorem eq_ok_of_outcome
    {p : Session α}
    {w : Workspace}
    {a : α}
    (h : outcome p w = .ok a) :
    p w = .ok a (after p w) := by
  unfold outcome at h
  unfold after
  cases hResult : p w with
  | ok b w' =>
      rw [hResult] at h
      cases h
      rfl
  | error e w' =>
      rw [hResult] at h
      cases h

/- A task that does the same from another workspace on. -/
theorem after_of_eq
    {p q : Session α}
    {w w' : Workspace}
    (h : p w = q w') :
    after p w = after q w' := by
  rw [after, h, after]

theorem outcome_of_eq
    {p q : Session α}
    {w w' : Workspace}
    (h : p w = q w') :
    outcome p w = outcome q w' := by
  rw [outcome, h, outcome]

/- A chain goes on where its first link ends. -/
theorem bind_of_ok
    {p : Session α}
    {w w' : Workspace}
    {a : α}
    (f : α → Session β)
    (h : p w = .ok a w') :
    (p >>= f) w = f a w' := by
  simp only [bind, EStateM.bind, h]

/- A chain is over where its first link fails. -/
theorem bind_of_error
    {p : Session α}
    {w w' : Workspace}
    {e : Error}
    (f : α → Session β)
    (h : p w = .error e w') :
    (p >>= f) w = .error e w' := by
  simp only [bind, EStateM.bind, h]

/- A chain of tasks that succeeds has a first link that does. -/
theorem exists_of_bind_ok
    {p : Session α}
    {f : α → Session β}
    {w w' : Workspace}
    {b : β}
    (h : (p >>= f) w = .ok b w') :
    ∃ a w₁, p w = .ok a w₁ ∧ f a w₁ = .ok b w' := by
  cases hFirst : p w with
  | ok a w₁ =>
      rw [bind_of_ok f hFirst] at h
      exact ⟨a, w₁, rfl, h⟩
  | error e w₁ =>
      rw [bind_of_error f hFirst] at h
      cases h

------------------------------------------------------------
-- What Tasks Keep
------------------------------------------------------------

/- The task does not change what is seen of a workspace. -/
def Keeps
    (view : Workspace → β)
    (p : Session α) : Prop :=
  ∀ w, view (after p w) = view w

namespace Keeps

variable {γ : Type} {view : Workspace → γ}

/- To return a value is to change nothing. -/
theorem pure
    (a : α) :
    Keeps view (Pure.pure a : Session α) :=
  fun _ => rfl

theorem throw
    (e : Error) :
    Keeps view (MonadExcept.throw e : Session α) :=
  fun _ => rfl

theorem get :
    Keeps view (MonadState.get : Session Workspace) :=
  fun _ => rfl

/- A chain keeps what all its links keep, wherever it fails. -/
theorem bind
    {p : Session α}
    {f : α → Session β}
    (hFirst : Keeps view p)
    (hNext : ∀ a, Keeps view (f a)) :
    Keeps view (p >>= f) := by
  intro w
  have hFrom := hFirst w
  cases hResult : p w with
  | ok a w₁ =>
      rw [after_of_ok hResult] at hFrom
      have hThen := hNext a w₁
      rw [hFrom] at hThen
      rw [after, bind_of_ok f hResult]
      exact hThen
  | error e w₁ =>
      rw [after_of_error hResult] at hFrom
      rw [after, bind_of_error f hResult]
      exact hFrom

/- A change keeps what it does not touch. -/
theorem modify
    {f : Workspace → Workspace}
    (h : ∀ w, view (f w) = view w) :
    Keeps view (modify f : Session PUnit) :=
  h

end Keeps

/- What is on disk, and from where it is seen. -/
def disk
    (w : Workspace) : FileTree × Place × Bool :=
  (w.tree, w.here, w.keepUnformatted)

/- What is not on disk. -/
def streams
    (w : Workspace) : Place × Log.Level × Bytes × Bytes :=
  (w.here, w.level, w.stdout, w.stderr)

/- The streams are not on disk. -/
theorem keeps_printError
    (s : Bytes) :
    Keeps disk (printError s) :=
  Keeps.modify fun _ => rfl

/- A line of the log goes to a stream, or nowhere. -/
theorem keeps_log
    (level : Log.Level)
    (message : Bytes)
    (fields : List Log.Field) :
    Keeps disk (log level message fields) :=
  Keeps.bind Keeps.get fun _ => keeps_printError _

/- Reading a file changes nothing, found or not. -/
theorem keeps_readFile
    {γ : Type}
    {view : Workspace → γ}
    (path : Bytes) :
    Keeps view (readFile path) :=
  Keeps.bind Keeps.get fun _ => Keeps.pure _

/- Settings that are missing or broken do no harm. -/
theorem keeps_loadSettings
    {γ : Type}
    {view : Workspace → γ}
    (path : Bytes) :
    Keeps view (loadSettings path) := by
  refine Keeps.bind (keeps_readFile _) ?_
  intro content
  split
  · split
    · exact Keeps.pure _
    · exact Keeps.throw _
  · split
    · exact Keeps.pure _
    · exact Keeps.throw _

/- Options override the settings, not the file they are from. -/
theorem keeps_settingsFor
    {γ : Type}
    {view : Workspace → γ}
    (o : Options) :
    Keeps view (settingsFor o) := by
  refine Keeps.bind (keeps_loadSettings _) ?_
  intro s
  simp only
  split
  · exact Keeps.pure _
  · exact Keeps.throw _

/- The level is not on disk, nor is the line that tells it. -/
theorem keeps_useLevel
    (s : Settings) :
    Keeps disk (useLevel s) := by
  unfold useLevel
  split
  · exact Keeps.throw _
  · exact Keeps.bind (Keeps.modify fun _ => rfl)
      fun _ => keeps_log _ _ _

/- Loading a file changes nothing, even if it has errors. -/
theorem keeps_loadFile
    {γ : Type}
    {view : Workspace → γ}
    (path : Bytes) :
    Keeps view (loadFile path) := by
  refine Keeps.bind (keeps_readFile path) ?_
  intro content
  split
  · exact Keeps.throw _
  · split
    · exact Keeps.pure _
    · exact Keeps.throw _

theorem keeps_parseFiles
    {γ : Type}
    {view : Workspace → γ}
    (paths : List Bytes) :
    Keeps view (parseFiles paths) := by
  induction paths with
  | nil => exact Keeps.pure _
  | cons path paths ih =>
      refine Keeps.bind (keeps_loadFile path) ?_
      intro file
      exact Keeps.bind ih fun files => Keeps.pure _

/- Passing over generated files happens in memory. -/
theorem keeps_loadFiles
    {γ : Type}
    {view : Workspace → γ}
    (paths : List Bytes) :
    Keeps view (loadFiles paths) := by
  refine Keeps.bind (keeps_parseFiles paths) ?_
  intro files
  split
  · exact Keeps.throw _
  · exact Keeps.pure _

/- The loader is shown the tree and returns paths, no more. -/
theorem keeps_loadPackages
    [Packages.Loader]
    {γ : Type}
    {view : Workspace → γ}
    (dir : Place)
    (patterns : List Bytes) :
    Keeps view (loadPackages dir patterns) := by
  refine Keeps.bind Keeps.get ?_
  intro w
  split
  · exact Keeps.throw _
  · exact keeps_loadFiles _

/- Sources are found and read, and the log tells of it. -/
theorem keeps_sourcesFor
    [Packages.Loader]
    (o : Options) :
    Keeps disk (sourcesFor o) := by
  refine Keeps.bind Keeps.get ?_
  intro w
  have hLogged
      (message : Bytes)
      (files : List Source.File) :
      Keeps disk (do log .debug message; return files) :=
    Keeps.bind (keeps_log _ _ _) fun _ => Keeps.pure _
  simp only
  split
  · exact Keeps.bind (keeps_loadFiles _) fun _ => hLogged _ _
  · exact Keeps.bind (keeps_loadPackages _ _)
      fun _ => hLogged _ _

/- Reading settings and sources leaves the disk alone. -/
theorem keeps_prepare
    [Packages.Loader]
    (o : Options) :
    Keeps disk (prepare o) := by
  refine Keeps.bind (keeps_settingsFor o) ?_
  intro s
  refine Keeps.bind (keeps_useLevel s) ?_
  intro _
  exact Keeps.bind (keeps_sourcesFor o) fun _ => Keeps.pure _

------------------------------------------------------------
-- Running
------------------------------------------------------------

/- The report of diagnostics. -/
def reportText
    (ds : Diagnostics) : Bytes :=
  ds.all.flatMap reportLine

/- The workspace with more text on its error stream. -/
def withErrorText
    (w : Workspace)
    (s : Bytes) : Workspace :=
  { w with stderr := w.stderr ++ s }

/- What is printed in two parts is printed as a whole. -/
theorem withErrorText_append
    (w : Workspace)
    (s t : Bytes) :
    (w.withErrorText s).withErrorText t =
      w.withErrorText (s ++ t) := by
  simp [withErrorText]

theorem get_eq
    (w : Workspace) :
    (get : Session Workspace) w = .ok w w :=
  rfl

theorem printError_eq
    (s : Bytes)
    (w : Workspace) :
    printError s w = .ok () (w.withErrorText s) :=
  rfl

/- All diagnostics of a report are printed, one line each. -/
theorem report_eq
    (ds : Diagnostics)
    (w : Workspace) :
    report ds w = .ok () (w.withErrorText (reportText ds)) :=
  rfl

/- What follows is done only if there are no errors. -/
theorem requireNoErrors_bind
    (ds : Diagnostics)
    (next : Unit → Session α)
    (w : Workspace) :
    (requireNoErrors ds >>= next) w =
      if ds.hasErrors then
        .error (.diagnostics ds.errors.length) w
      else
        next () w := by
  unfold requireNoErrors
  split <;> rfl

/- No draft is kept if none is asked for or there is none. -/
theorem keep_of_not
    {w : Workspace}
    {draft : Option Generate.Output}
    (h : w.keepUnformatted = false ∨ draft = none) :
    keep draft w = .ok () w := by
  cases draft with
  | none => rfl
  | some output =>
      have hKeep : w.keepUnformatted = false := by
        simpa using h
      unfold keep
      rw [bind_of_ok _ (get_eq w)]
      simp only [hKeep, Bool.false_and, Bool.false_eq_true,
        if_false]
      rfl

/- A run that is prepared generates, reports and delivers. -/
theorem runUntil_of_prepare
    [Packages.Loader]
    [Imports.Tidier]
    {o : Options}
    (stop : Option Nat)
    {w w' : Workspace}
    {s : Settings}
    {files : List Source.File}
    (hPrepare : prepare o w = .ok (s, files) w')
    (hDraft :
      w'.keepUnformatted = false ∨
        (Generate.runUntil s w'.level stop files).unformatted? =
          none) :
    runUntil o stop w =
      let r := Generate.runUntil s w'.level stop files
      let w₁ := w'.withErrorText (r.log ++ reportText r.diagnostics)
      match r.error with
      | some e => .error (.generating e) w₁
      | none =>
          if r.diagnostics.hasErrors then
            .error (.diagnostics r.diagnostics.errors.length) w₁
          else
            deliver o r.outputs w₁ := by
  have hKept
      (text : Bytes) :
      keep (Generate.runUntil s w'.level stop files).unformatted?
          (w'.withErrorText text) =
        .ok () (w'.withErrorText text) :=
    keep_of_not hDraft
  unfold runUntil
  rw [bind_of_ok _ hPrepare]
  simp only
  rw [bind_of_ok _ (get_eq w'),
    bind_of_ok _ (printError_eq _ w'), bind_of_ok _ (hKept _),
    bind_of_ok _ (report_eq _ _), withErrorText_append]
  cases (Generate.runUntil s w'.level stop files).error with
  | some e => rfl
  | none => exact requireNoErrors_bind _ _ _

------------------------------------------------------------
-- Checking
------------------------------------------------------------

/- The log of files that are only expanded. -/
def expandedLog
    (s : Settings)
    (shared : Log.Level)
    (files : List Source.File) : Bytes :=
  files.flatMap fun f => (Generate.expandFile s f).log shared

/- The listings of files, if they are asked for. -/
def listings
    (o : Options)
    (s : Settings)
    (files : List Source.File) : Bytes :=
  if o.dump then
    files.flatMap fun f =>
      (Generate.expandFile s f).expansions.flatMap listing
  else
    []

/- The number of expansions of files. -/
def expansionCount
    (s : Settings)
    (files : List Source.File) : Nat :=
  (files.map fun f =>
    (Generate.expandFile s f).expansions.length).sum

/- The workspace after files were examined. -/
def examined
    (o : Options)
    (s : Settings)
    (files : List Source.File)
    (w : Workspace) : Workspace :=
  { w with
    stdout := w.stdout ++ listings o s files
    stderr := w.stderr ++ expandedLog s w.level files }

/- Examining a file expands it, prints and does not fail. -/
theorem examine_eq
    (o : Options)
    (s : Settings)
    (file : Source.File)
    (w : Workspace) :
    examine o s file w =
      .ok (Generate.expandFile s file)
        (examined o s [file] w) := by
  unfold examine
  rw [bind_of_ok _ (get_eq w)]
  simp only
  rw [bind_of_ok _ (printError_eq _ w)]
  cases hDump : o.dump with
  | true =>
      simp [examined, listings, expandedLog, hDump, print,
        withErrorText]
      rfl
  | false =>
      simp [examined, listings, expandedLog, hDump,
        withErrorText]
      rfl

/- What files print one by one is what they print together. -/
theorem examined_cons
    (o : Options)
    (s : Settings)
    (file : Source.File)
    (files : List Source.File)
    (w : Workspace) :
    examined o s files (examined o s [file] w) =
      examined o s (file :: files) w := by
  cases hDump : o.dump <;>
    simp [examined, listings, expandedLog, hDump]

/- Files are examined one by one, and nothing fails. -/
theorem examineAll_eq
    (o : Options)
    (s : Settings)
    (files : List Source.File)
    (w : Workspace) :
    examineAll o s files w =
      .ok (Generate.reported s files, expansionCount s files)
        (examined o s files w) := by
  induction files generalizing w with
  | nil =>
      have hSame : examined o s [] w = w := by
        simp [examined, listings, expandedLog]
      rw [hSame]
      rfl
  | cons file files ih =>
      unfold examineAll
      rw [bind_of_ok _ (examine_eq o s file w),
        bind_of_ok _ (ih _), examined_cons]
      rfl

/- The line that tells what was checked. -/
def checkedLine
    (s : Settings)
    (shared : Log.Level)
    (files : List Source.File) : Bytes :=
  Log.Logger.emit {} shared .info
    (utf8 "checked " ++ Bytes.ofNat files.length ++
      utf8 " file(s), " ++ Bytes.ofNat (expansionCount s files) ++
      utf8 " annotated declaration(s)")
    []

/- A check that is prepared examines and reports. -/
theorem checkUntil_of_prepare
    [Packages.Loader]
    {o : Options}
    (stop : Option Nat)
    {w w' : Workspace}
    {s : Settings}
    {files : List Source.File}
    (hPrepare : prepare o w = .ok (s, files) w') :
    checkUntil o stop w =
      match stop.filter (· < files.length) with
      | some n =>
          .error (.generating .cancelled)
            (examined o s (files.take n) w')
      | none =>
          let ds := Generate.reported s files
          let w₁ :=
            (examined o s files w').withErrorText (reportText ds)
          if ds.hasErrors then
            .error (.diagnostics ds.errors.length) w₁
          else
            .ok ()
              (w₁.withErrorText
                (checkedLine s w'.level files)) := by
  unfold checkUntil
  rw [bind_of_ok _ hPrepare]
  simp only
  cases stop.filter (· < files.length) with
  | some n =>
      simp only
      rw [bind_of_ok _ (examineAll_eq o s _ w')]
      rfl
  | none =>
      simp only
      rw [bind_of_ok _ (examineAll_eq o s _ w')]
      simp only
      rw [bind_of_ok _ (report_eq _ _), requireNoErrors_bind]
      rfl

------------------------------------------------------------
-- Delivery
------------------------------------------------------------

/- Does an error arise while outputs are written? -/
def Error.isWriting : Error → Bool
  | .makingDir _ => true
  | .writing _ _ => true
  | _ => false

/- A failure to make directories leaves the workspace alone. -/
theorem makeDirs_eq
    (path : Bytes)
    (w : Workspace) :
    makeDirs path w =
      match w.tree.makeDirs w.here path with
      | .ok tree => .ok () { w with tree }
      | .error e => .error (.makingDir e) w := by
  unfold makeDirs
  rw [bind_of_ok _ (get_eq w)]
  cases w.tree.makeDirs w.here path <;> rfl

/- So does a failure to write a file, whose error is given. -/
theorem writeFile_eq
    (path content : Bytes)
    (error : FileTree.Error → Error)
    (w : Workspace) :
    writeFile path content error w =
      match w.tree.write w.here path content with
      | .ok tree => .ok () { w with tree }
      | .error e => .error (error e) w := by
  unfold writeFile
  rw [bind_of_ok _ (get_eq w)]
  cases w.tree.write w.here path content <;> rfl

/- The lines that tell which files were written. -/
def writtenLines
    (shared : Log.Level)
    (outputs : List Generate.Output) : Bytes :=
  outputs.flatMap fun o =>
    Log.Logger.emit {} shared .info (utf8 "wrote " ++ o.path) []

/- A line for each output, and nothing that can fail. -/
theorem announce_eq
    (outputs : List Generate.Output)
    (w : Workspace) :
    announce outputs w =
      .ok () (w.withErrorText (writtenLines w.level outputs)) := by
  induction outputs generalizing w with
  | nil =>
      simp [announce, writtenLines, withErrorText]
      rfl
  | cons o outputs ih =>
      have hLog :
          log .info (utf8 "wrote " ++ o.path) [] w =
            .ok ()
              (w.withErrorText
                (Log.Logger.emit {} w.level .info
                  (utf8 "wrote " ++ o.path) [])) :=
        rfl
      unfold announce
      rw [bind_of_ok _ hLog, ih, withErrorText_append]
      rfl

/- Writing changes nothing but the files. -/
theorem keeps_writeFiles
    (outputs : List Generate.Output) :
    Keeps streams (writeFiles outputs) := by
  induction outputs with
  | nil => exact Keeps.pure _
  | cons o outputs ih =>
      refine Keeps.bind ?_ fun _ => Keeps.bind ?_ fun _ => ih
      · intro w
        rw [after, makeDirs_eq]
        cases w.tree.makeDirs w.here (Path.dir o.path) <;> rfl
      · intro w
        rw [after, writeFile_eq]
        cases w.tree.write w.here o.path o.content <;> rfl

/- It is a directory or a file on which writing fails. -/
theorem isWriting_of_writeFiles
    {outputs : List Generate.Output}
    {w w' : Workspace}
    {e : Error}
    (h : writeFiles outputs w = .error e w') :
    e.isWriting = true := by
  induction outputs generalizing w with
  | nil => cases h
  | cons o outputs ih =>
      unfold writeFiles at h
      cases hDirs : makeDirs (Path.dir o.path) w with
      | error cause w₁ =>
          rw [bind_of_error _ hDirs] at h
          rw [makeDirs_eq] at hDirs
          split at hDirs
          · cases hDirs
          · cases hDirs
            cases h
            rfl
      | ok a w₁ =>
          rw [bind_of_ok _ hDirs] at h
          cases hFile :
              writeFile o.path o.content (.writing o.path) w₁ with
          | error cause w₂ =>
              rw [bind_of_error _ hFile] at h
              rw [writeFile_eq] at hFile
              split at hFile
              · cases hFile
              · cases hFile
                cases h
                rfl
          | ok a w₂ =>
              rw [bind_of_ok _ hFile] at h
              exact ih h

/- Delivery fails only in writing, and tells what was written. -/
theorem deliver_cases
    (o : Options)
    (outputs : List Generate.Output)
    (w : Workspace) :
    (outcome (deliver o outputs) w = .ok () ∨
        ∃ e,
          outcome (deliver o outputs) w = .error e ∧
            e.isWriting = true) ∧
      ∃ tail,
        (after (deliver o outputs) w).stderr =
            w.stderr ++ tail ∧
          (tail = [] ∨ tail = writtenLines w.level outputs) := by
  unfold deliver
  cases o.dryRun with
  | true =>
      exact ⟨Or.inl rfl, [], (List.append_nil _).symm, Or.inl rfl⟩
  | false =>
      simp only [Bool.false_eq_true, if_false]
      have hKept := keeps_writeFiles outputs w
      cases hWrite : writeFiles outputs w with
      | error e w' =>
          have hResult :=
            bind_of_error (fun _ => announce outputs) hWrite
          rw [after_of_error hWrite] at hKept
          simp only [streams, Prod.mk.injEq] at hKept
          rw [outcome_of_error hResult, after_of_error hResult]
          refine ⟨Or.inr ⟨e, rfl,
            isWriting_of_writeFiles hWrite⟩, [], ?_, Or.inl rfl⟩
          rw [hKept.2.2.2, List.append_nil]
      | ok a w' =>
          have hResult :=
            (bind_of_ok (fun _ => announce outputs) hWrite).trans
              (announce_eq outputs w')
          rw [after_of_ok hWrite] at hKept
          simp only [streams, Prod.mk.injEq] at hKept
          rw [outcome_of_ok hResult, after_of_ok hResult]
          refine ⟨Or.inl rfl, writtenLines w.level outputs, ?_,
            Or.inr rfl⟩
          rw [withErrorText, hKept.2.2.2, hKept.2.1]

end Workspace

end Namesake
