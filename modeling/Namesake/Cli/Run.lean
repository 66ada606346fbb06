import Namesake.Cli.Command
import Namesake.Release
import Namesake.Workspace.Run

/-
  This file defines what a command line does to a workspace.

  Key definitions include:
    * `Cli.Error`
    * `Cli.execute`
    * `Cli.run`
-/

namespace Namesake

namespace Cli

------------------------------------------------------------
-- Errors
------------------------------------------------------------

/- Why a command line failed. -/
inductive Error where
  | unknownCommand (word : Bytes)
  | unexpected (word : Bytes) (command : Command)
  | flag (cause : FlagError)
  | task (cause : Workspace.Error)
deriving DecidableEq, Repr

/- The commands that may be meant, each on a line. -/
def suggestionText
    (word : Bytes) : Bytes :=
  match suggestions word with
  | [] => []
  | names =>
      utf8 "\n\nDid you mean this?\n" ++
        names.flatMap fun n => utf8 "\t" ++ n ++ utf8 "\n"

/- The wording of an error. -/
def Error.message : Error → Bytes
  | .unknownCommand word =>
      utf8 "unknown command " ++ Quoted.encode word ++ utf8 " for " ++
        Quoted.encode program ++ suggestionText word
  | .unexpected word command =>
      utf8 "unknown command " ++ Quoted.encode word ++ utf8 " for " ++
        Quoted.encode command.path
  | .flag cause => cause.message
  | .task cause => cause.message

/- What is printed about an error. -/
def Error.report
    (e : Error) : Bytes :=
  let hint :=
    match e with
    | .unknownCommand _ =>
        utf8 "Run '" ++ program ++ utf8 " --help' for usage.\n"
    | _ => []
  utf8 "Error: " ++ e.message ++ utf8 "\n" ++ hint

/- A command line at work. -/
abbrev Session :=
  EStateM Error Workspace

------------------------------------------------------------
-- Commands
------------------------------------------------------------

/- Do a task of the workspace. -/
def task
    (t : Workspace.Session Unit) : Session Unit := fun w =>
  match t w with
  | .ok a w => .ok a w
  | .error e w => .error (.task e) w

/- Write to the standard output. -/
def print
    (s : Bytes) : Session Unit :=
  task (Workspace.print s)

/- What the flags ask for. -/
def optionsOf
    (p : Parsed) : Workspace.Options :=
  { configPath := p.text "config"
    patterns := p.args
    directive := p.text "directive"
    mode := p.text "mode"
    suffix := p.text "suffix"
    logLevel := p.text "log-level"
    dryRun := p.isOn "dry-run"
    dump := p.isOn "dump"
    force := p.isOn "force" }

/- The help for the command that is named, if there is one. -/
def helpFor
    (args : List Bytes) : Bytes :=
  match find args with
  | .ok (c, _) => c.helpText
  | .error _ =>
      utf8 "Unknown help topic [" ++
        Bytes.join (utf8 " ")
          (args.map fun a => utf8 "`" ++ a ++ utf8 "`") ++
        utf8 "]\n" ++ Command.usage .root

/- Do what a command is for. -/
def perform
    (c : Command)
    (p : Parsed) : Session Unit := do
  match c with
  | .root => print (Command.helpText .root)
  | .completion => print (Command.helpText .completion)
  | .gen => task (Workspace.run (optionsOf p) false)
  | .check => task (Workspace.check (optionsOf p) false)
  | .init =>
      match p.args with
      | [] => task (Workspace.init (optionsOf p))
      | word :: _ => throw (.unexpected word .init)
  | .version => print (Release.description ++ utf8 "\n")
  | .help => print (helpFor p.args)

/- Read the flags of a command and do what they ask for. -/
def execute
    (c : Command)
    (args : List Bytes) : Session Unit := do
  match parseFlags c.flags args with
  | .error e => throw (.flag e)
  | .ok p =>
      if p.isOn "help" then
        print c.helpText
      else if c == .root && p.isOn "version" then
        print
          (program ++ utf8 " version " ++ Release.number ++ utf8 "\n")
      else
        perform c p

/- Find a command and execute it. -/
def dispatch
    (args : List Bytes) : Session Unit := do
  match find args with
  | .error word => throw (.unknownCommand word)
  | .ok (c, rest) => execute c rest

/- Do what a command line asks for, and say why it failed. -/
def run
    (args : List Bytes) : Session Unit := fun w =>
  match dispatch args w with
  | .ok a w => .ok a w
  | .error e w => .error e { w with stderr := w.stderr ++ e.report }

end Cli

end Namesake
