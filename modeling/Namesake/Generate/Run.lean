import Namesake.Generate.Render

/-
  This file defines the generation of outputs for a list of
  source files.

  Key definitions include:
    * `Generate.Error`
    * `Generate.Outcome`
    * `Generate.run`
    * `Generate.runUntil`
-/

namespace Namesake

namespace Generate

/- Why generation stopped. -/
inductive Error where
  | cancelled
  | rendering (path : Bytes) (cause : RenderError)
deriving DecidableEq, Repr

/- The wording of an error. -/
def Error.message : Error → Bytes
  | .cancelled => utf8 "context canceled"
  | .rendering path cause =>
      utf8 "generating " ++ path ++ utf8 ": " ++ cause.message

/- What generation produced, reported and logged. -/
structure Outcome where
  outputs : List Output := []
  diagnostics : Diagnostics := {}
  log : Bytes := []
  error : Option Error := none

namespace Outcome

/- The outputs, unless generation stopped. -/
def files
    (o : Outcome) : List Output :=
  if o.error.isSome then [] else o.outputs

/- The text that could not be formatted. -/
def unformatted?
    (o : Outcome) : Option Output :=
  match o.error with
  | some (.rendering _ cause) => cause.unformatted?
  | _ => none

end Outcome

/- The warning that a file has errors and no output. -/
def skipped
    (shared : Log.Level)
    (r : FileResult) : Bytes :=
  Log.Logger.emit {} shared .warn
    (utf8 "skipping " ++ r.file.path ++ utf8 ": " ++
      Bytes.ofNat r.diagnostics.errors.length ++ utf8 " error(s)")

/- Take one more file. -/
def step
    [Imports.Tidier]
    (s : Settings)
    (shared : Log.Level)
    (o : Outcome)
    (file : Source.File) : Outcome :=
  let r := expandFile s file
  let o :=
    { o with
      diagnostics := o.diagnostics.merge r.diagnostics
      log := o.log ++ r.log shared }
  if r.diagnostics.hasErrors then
    { o with log := o.log ++ skipped shared r }
  else if r.expansions.isEmpty then
    o
  else
    match render s r with
    | .ok output => { o with outputs := o.outputs ++ [output] }
    | .error cause =>
        { o with error := some (.rendering file.path cause) }

/- Take files in order until one cannot be rendered. -/
def runFrom
    [Imports.Tidier]
    (s : Settings)
    (shared : Log.Level)
    (o : Outcome) : List Source.File → Outcome
  | [] => o
  | file :: files =>
      let o := step s shared o file
      if o.error.isSome then o else runFrom s shared o files

/-
  Generate the outputs of all files.  A file with errors has
  no output; a text that cannot be rendered stops everything.
-/
def run
    [Imports.Tidier]
    (s : Settings)
    (shared : Log.Level)
    (cancelled : Bool)
    (files : List Source.File) : Outcome :=
  if cancelled && !files.isEmpty then
    { error := some .cancelled }
  else
    runFrom s shared {} files

/-
  Generate the outputs of all files for a task that may be
  cancelled between two files; `stop` is the number of files
  that are taken before that.
-/
def runUntil
    [Imports.Tidier]
    (s : Settings)
    (shared : Log.Level)
    (stop : Option Nat)
    (files : List Source.File) : Outcome :=
  match stop.filter (· < files.length) with
  | none => runFrom s shared {} files
  | some n =>
      let o := runFrom s shared {} (files.take n)
      if o.error.isSome then o else { o with error := some .cancelled }

end Generate

end Namesake
