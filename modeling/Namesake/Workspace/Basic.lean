import Namesake.FileTree
import Namesake.Generate.Run
import Namesake.Packages.Load
import Namesake.Settings.Text

/-
  This file defines what the program works on, files, streams
  and the log level, and its steps: reading and saving
  settings, loading sources and writing outputs.  The tool that
  finds the files of packages is a parameter.

  Key definitions include:
    * `Workspace`
    * `Workspace.Error`
    * `Workspace.Session`
    * `Workspace.loadSettings`
    * `Workspace.saveSettings`
    * `Workspace.loadFiles`
    * `Workspace.loadPackages`
    * `Workspace.writeFiles`
-/

namespace Namesake

/-
  The files, the current directory, whether texts that cannot
  be formatted are kept, the log level, and what was written
  to the two output streams.
-/
structure Workspace where
  tree : FileTree := {}
  here : Place := []
  keepUnformatted : Bool := false
  level : Log.Level := .info
  stdout : Bytes := []
  stderr : Bytes := []

namespace Workspace

------------------------------------------------------------
-- Errors
------------------------------------------------------------

/- Why a task failed. -/
inductive Error where
  | readingSettings (cause : FileTree.Error)
  | parsingSettings (cause : Settings.ParseError)
  | settings (cause : Settings.Error)
  | savingSettings (cause : FileTree.Error)
  | settingsExist (path : Bytes)
  | logLevel (name : Bytes)
  | readingSource (path : Bytes) (cause : FileTree.Error)
  | parsingSource (cause : Source.Failure)
  | packages (cause : Packages.Error)
  | noFiles
  | generating (cause : Generate.Error)
  | diagnostics (count : Nat)
  | makingDir (cause : FileTree.Error)
  | writing (path : Bytes) (cause : FileTree.Error)
deriving DecidableEq, Repr

namespace Error

/- The wording of an error. -/
def message : Error → Bytes
  | .readingSettings cause => utf8 "read settings: " ++ cause.message
  | .parsingSettings cause => cause.message
  | .settings cause => cause.message
  | .savingSettings cause => utf8 "write settings: " ++ cause.message
  | .settingsExist path =>
      utf8 "settings file already exists: " ++ path
  | .logLevel name =>
      utf8 "invalid log level: " ++ Quoted.encode name
  | .readingSource path cause =>
      utf8 "parsing " ++ path ++ utf8 ": " ++ cause.message
  | .parsingSource cause => cause.message
  | .packages cause => cause.message
  | .noFiles => utf8 "no Go files matched"
  | .generating cause => cause.message
  | .diagnostics count =>
      utf8 "alias expansion failed: " ++ Bytes.ofNat count ++
        utf8 " error(s)"
  | .makingDir cause =>
      utf8 "creating output directory: " ++ cause.message
  | .writing path cause =>
      utf8 "writing file " ++ path ++ utf8 ": " ++ cause.message

/- The cause in the file tree, if there is one. -/
def fileCause? : Error → Option FileTree.Cause
  | .readingSettings e => some e.cause
  | .savingSettings e => some e.cause
  | .readingSource _ e => some e.cause
  | .makingDir e => some e.cause
  | .writing _ e => some e.cause
  | _ => none

end Error

/- A task keeps what it did to the workspace when it fails. -/
abbrev Session :=
  EStateM Error Workspace

------------------------------------------------------------
-- Streams
------------------------------------------------------------

/- Write to the standard output. -/
def print
    (s : Bytes) : Session Unit :=
  modify fun w => { w with stdout := w.stdout ++ s }

/- Write to the standard error. -/
def printError
    (s : Bytes) : Session Unit :=
  modify fun w => { w with stderr := w.stderr ++ s }

/- Log a message. -/
def log
    (level : Log.Level)
    (message : Bytes)
    (fields : List Log.Field := []) : Session Unit := do
  let w ← get
  printError (Log.Logger.emit {} w.level level message fields)

------------------------------------------------------------
-- Files
------------------------------------------------------------

/- Read a file. -/
def readFile
    (path : Bytes) : Session (Except FileTree.Error Bytes) := do
  let w ← get
  return w.tree.read w.here path

/- Write a file; the error tells what the task was. -/
def writeFile
    (path content : Bytes)
    (error : FileTree.Error → Error) : Session Unit := do
  let w ← get
  match w.tree.write w.here path content with
  | .ok tree => set { w with tree }
  | .error e => throw (error e)

/- Make a directory and all above it. -/
def makeDirs
    (path : Bytes) : Session Unit := do
  let w ← get
  match w.tree.makeDirs w.here path with
  | .ok tree => set { w with tree }
  | .error e => throw (.makingDir e)

/- Write outputs in order, with the directories they need. -/
def writeFiles : List Generate.Output → Session Unit
  | [] => return ()
  | o :: os => do
      makeDirs (Path.dir o.path)
      writeFile o.path o.content (.writing o.path)
      writeFiles os

------------------------------------------------------------
-- Settings
------------------------------------------------------------

/-
  Read settings.  Without a path the standard file is read if
  it exists, and the standard settings apply if it does not.
-/
def loadSettings
    (path : Bytes) : Session Settings := do
  let given := !path.isEmpty
  let path := if given then path else Settings.defaultPath
  match ← readFile (Path.clean path) with
  | .error e =>
      if !given && e.cause == .notFound then
        return Settings.standard
      else
        throw (.readingSettings e)
  | .ok content =>
      match Settings.parse content with
      | .ok s => return s
      | .error e => throw (.parsingSettings e)

/- Save settings that are valid. -/
def saveSettings
    (path : Bytes)
    (s : Option Settings) : Session Unit := do
  match s with
  | none => throw (.settings .missing)
  | some s =>
      match s.validate with
      | .error e => throw (.settings e)
      | .ok _ =>
          let path := if path.isEmpty then Settings.defaultPath else path
          writeFile (Path.clean path) s.render .savingSettings

------------------------------------------------------------
-- Sources
------------------------------------------------------------

/- Read and parse one source file. -/
def loadFile
    (path : Bytes) : Session Source.File := do
  match ← readFile path with
  | .error e => throw (.readingSource path e)
  | .ok content =>
      match Source.File.parse path content with
      | .ok file => return file
      | .error e => throw (.parsingSource e)

/- Read and parse source files in order. -/
def parseFiles : List Bytes → Session (List Source.File)
  | [] => return []
  | path :: paths => do
      let file ← loadFile path
      let files ← parseFiles paths
      return file :: files

/- Load source files; generated ones do not count. -/
def loadFiles
    (paths : List Bytes) : Session (List Source.File) := do
  let files ← parseFiles paths
  match files.filter fun f => !f.generated with
  | [] => throw .noFiles
  | sources => return sources

/- Load the files of packages, seen from a directory. -/
def loadPackages
    [Packages.Loader]
    (dir : Place)
    (patterns : List Bytes) : Session (List Source.File) := do
  let w ← get
  match Packages.Loader.load w.tree dir patterns with
  | .error e => throw (.packages e)
  | .ok paths => loadFiles paths

end Workspace

end Namesake
