import Namesake.Workspace.Basic
import Namesake.Workspace.Dump

/-
  This file defines the three tasks of the program: to expand
  aliases, to check them, and to write a settings file.  The
  tools that find packages and tidy imports are parameters.

  Key definitions include:
    * `Workspace.Options`
    * `Workspace.prepare`
    * `Workspace.run` and `Workspace.runUntil`
    * `Workspace.check` and `Workspace.checkUntil`
    * `Workspace.init`
-/

namespace Namesake

namespace Workspace

------------------------------------------------------------
-- Options
------------------------------------------------------------

/- What can be asked for; an empty text asks for nothing. -/
structure Options where
  configPath : Bytes := []
  patterns : List Bytes := []
  directive : Bytes := []
  mode : Bytes := []
  suffix : Bytes := []
  logLevel : Bytes := []
  dryRun : Bool := false
  dump : Bool := false
  force : Bool := false
deriving DecidableEq, Repr

namespace Options

/- Replace the settings that are asked for. -/
def override
    (o : Options)
    (s : Settings) : Settings :=
  let choose := fun (wanted given : Bytes) =>
    if wanted.isEmpty then given else wanted
  { s with
    directive := choose o.directive s.directive
    mode := choose o.mode s.mode
    suffix := choose o.suffix s.suffix
    logLevel := choose o.logLevel s.logLevel }

/- Are all patterns source files? -/
def areFiles
    (o : Options) : Bool :=
  !o.patterns.isEmpty &&
    o.patterns.all fun p => p.endsWith (utf8 ".go")

end Options

------------------------------------------------------------
-- Preparation
------------------------------------------------------------

/- The settings of a task. -/
def settingsFor
    (o : Options) : Session Settings := do
  let s ← loadSettings o.configPath
  let s := o.override s
  match s.validate with
  | .ok _ => return s
  | .error e => throw (.settings e)

/- Log with the level of the settings from here on. -/
def useLevel
    (s : Settings) : Session Unit := do
  match Log.Level.parse? s.logLevel with
  | none => throw (.logLevel s.logLevel)
  | some level =>
      modify fun w => { w with level }
      log .debug (utf8 "settings loaded")
        [(utf8 "directive", .text s.directive),
          (utf8 "mode", .text s.mode),
          (utf8 "suffix", .text s.suffix)]

/- Load the sources of a task. -/
def sourcesFor
    [Packages.Loader]
    (o : Options) : Session (List Source.File) := do
  let w ← get
  let files ←
    if o.areFiles then
      loadFiles o.patterns
    else
      loadPackages w.here o.patterns
  log .debug
    (utf8 "loaded " ++ Bytes.ofNat files.length ++ utf8 " file(s)")
  return files

/- Read the settings and the sources of a task. -/
def prepare
    [Packages.Loader]
    (o : Options) : Session (Settings × List Source.File) := do
  let s ← settingsFor o
  useLevel s
  let files ← sourcesFor o
  return (s, files)

------------------------------------------------------------
-- Reports
------------------------------------------------------------

/- A diagnostic on a line of its own. -/
def reportLine
    (d : Diagnostic) : Bytes :=
  Bytes.toLower d.severity.name ++ utf8 ": " ++ d.text ++ utf8 "\n"

/- Show diagnostics, errors first. -/
def report
    (ds : Diagnostics) : Session Unit :=
  printError (ds.all.flatMap reportLine)

/- Fail if there are errors. -/
def requireNoErrors
    (ds : Diagnostics) : Session Unit := do
  if ds.hasErrors then
    throw (.diagnostics ds.errors.length)

------------------------------------------------------------
-- Expanding
------------------------------------------------------------

/- The path of a text that could not be formatted. -/
def unformattedPath
    (path : Bytes) : Bytes :=
  path.trimEnding (utf8 ".go") ++ utf8 ".unformatted.go"

/- Keep a text that could not be formatted, if that is wanted. -/
def keep
    (draft : Option Generate.Output) : Session Unit := do
  let w ← get
  match draft with
  | none => return ()
  | some o =>
      if w.keepUnformatted && !o.path.isEmpty then
        match w.tree.write w.here (unformattedPath o.path) o.content with
        | .ok tree => set { w with tree }
        | .error _ => return ()

/- A file as it is shown when nothing is written. -/
def preview
    (o : Generate.Output) : Bytes :=
  utf8 "// " ++ o.path ++ utf8 "\n" ++ o.content ++ utf8 "\n"

/- Say which files were written. -/
def announce : List Generate.Output → Session Unit
  | [] => return ()
  | o :: os => do
      log .info (utf8 "wrote " ++ o.path)
      announce os

/- Write outputs, or only show them. -/
def deliver
    (o : Options)
    (outputs : List Generate.Output) : Session Unit := do
  if o.dryRun then
    print (outputs.flatMap preview)
  else
    writeFiles outputs
    announce outputs

/- A task that is cancelled at the start takes no file. -/
def stopAt
    (cancelled : Bool) : Option Nat :=
  if cancelled then some 0 else none

/-
  Expand the aliases in all sources, unless the task is
  cancelled after `stop` of them.  Nothing is written if there
  is an error in any of them.
-/
def runUntil
    [Packages.Loader]
    [Imports.Tidier]
    (o : Options)
    (stop : Option Nat) : Session Unit := do
  let (s, files) ← prepare o
  let w ← get
  let r := Generate.runUntil s w.level stop files
  printError r.log
  keep r.unformatted?
  report r.diagnostics
  match r.error with
  | some e => throw (.generating e)
  | none =>
      requireNoErrors r.diagnostics
      deliver o r.outputs

/- Expand the aliases in all sources. -/
def run
    [Packages.Loader]
    [Imports.Tidier]
    (o : Options)
    (cancelled : Bool) : Session Unit :=
  runUntil o (stopAt cancelled)

------------------------------------------------------------
-- Checking
------------------------------------------------------------

/- The listing of an expansion. -/
def listing
    (e : Generate.Expansion) : Bytes :=
  (e.site.item.locate .whole).start.text ++ utf8 " " ++
    e.result.kind.describe ++ utf8 " " ++ e.result.name ++ utf8 "\n" ++
    Dump.aliases e.aliases

/- Expand one source; the result has nothing rendered. -/
def examine
    (o : Options)
    (s : Settings)
    (file : Source.File) : Session Generate.FileResult := do
  let w ← get
  let r := Generate.expandFile s file
  printError (r.log w.level)
  if o.dump then
    print (r.expansions.flatMap listing)
  return r

/- Expand sources in order. -/
def examineAll
    (o : Options)
    (s : Settings) : List Source.File → Session (Diagnostics × Nat)
  | [] => return ({}, 0)
  | file :: files => do
      let r ← examine o s file
      let (ds, count) ← examineAll o s files
      return (r.diagnostics.merge ds, r.expansions.length + count)

/-
  Check the aliases in all sources, unless the task is
  cancelled after `stop` of them; nothing is written.
-/
def checkUntil
    [Packages.Loader]
    (o : Options)
    (stop : Option Nat) : Session Unit := do
  let (s, files) ← prepare o
  match stop.filter (· < files.length) with
  | some n =>
      let _ ← examineAll o s (files.take n)
      throw (.generating .cancelled)
  | none =>
      let (ds, count) ← examineAll o s files
      report ds
      requireNoErrors ds
      log .info
        (utf8 "checked " ++ Bytes.ofNat files.length ++
          utf8 " file(s), " ++ Bytes.ofNat count ++
          utf8 " annotated declaration(s)")

/- Check the aliases in all sources. -/
def check
    [Packages.Loader]
    (o : Options)
    (cancelled : Bool) : Session Unit :=
  checkUntil o (stopAt cancelled)

------------------------------------------------------------
-- Settings Files
------------------------------------------------------------

/- Write a settings file, but replace one only if that is asked for. -/
def init
    (o : Options) : Session Unit := do
  let path :=
    if o.configPath.isEmpty then Settings.defaultPath else o.configPath
  let w ← get
  if w.tree.isThere w.here path && !o.force then
    throw (.settingsExist path)
  saveSettings path (some (o.override Settings.standard))
  log .info (utf8 "wrote " ++ path)

end Workspace

end Namesake
