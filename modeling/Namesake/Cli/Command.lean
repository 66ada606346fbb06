import Namesake.Cli.Flag
import Namesake.Settings.Basic
import Namesake.Spelling

/-
  This file defines the commands of the program, how a command
  is found among arguments, and the help for each.

  Key definitions include:
    * `Cli.Command`
    * `Cli.Command.flags`
    * `Cli.find`
    * `Cli.suggestions`
    * `Cli.Command.helpText`
-/

namespace Namesake

namespace Cli

------------------------------------------------------------
-- Commands
------------------------------------------------------------

/- A command; `root` is the program without one. -/
inductive Command where
  | root
  | gen
  | check
  | init
  | version
  | help
  | completion
deriving DecidableEq, Repr

/- The name of the program. -/
def program : Bytes :=
  utf8 "aliasgen"

namespace Command

/- The name of a command. -/
def name : Command → Bytes
  | .root => program
  | .gen => utf8 "gen"
  | .check => utf8 "check"
  | .init => utf8 "init"
  | .version => utf8 "version"
  | .help => utf8 "help"
  | .completion => utf8 "completion"

/- The commands below the program, in the order of their making. -/
def all : List Command :=
  [.gen, .check, .init, .version, .help, .completion]

/- The program and a command. -/
def path : Command → Bytes
  | .root => program
  | c => program ++ utf8 " " ++ c.name

/- What a command does, in one line. -/
def summary : Command → Bytes
  | .root =>
      utf8 "Generate renamed duplicates of annotated Go declarations"
  | .gen =>
      utf8 "Expand alias directives and write the generated declarations"
  | .check =>
      utf8 "Validate alias directives without generating code"
  | .init =>
      utf8 "Write a settings file with the default configuration"
  | .version => utf8 "Print version information."
  | .help => utf8 "Help about any command"
  | .completion =>
      utf8 "Generate the autocompletion script for the specified shell"

/- What a command does. -/
def description : Command → Bytes
  | .version =>
      utf8 "Print the aliasgen version together with the commit hash " ++
        utf8 "and build timestamp injected at build time."
  | .help =>
      utf8 "Help provides help for any command in the application.\n" ++
        utf8 "Simply type aliasgen help [path to command] for full " ++
        utf8 "details."
  | .completion =>
      utf8 "Generate the autocompletion script for aliasgen for the " ++
        utf8 "specified shell.\n" ++
        utf8 "See each sub-command's help for details on how to use " ++
        utf8 "the generated script."
  | c => c.summary

/- How the arguments of a command are shown. -/
def arguments : Command → Bytes
  | .gen => utf8 " [packages or files]"
  | .check => utf8 " [packages or files]"
  | .help => utf8 " [command]"
  | _ => []

------------------------------------------------------------
-- Flags
------------------------------------------------------------

/- The flags of all commands. -/
def globalFlags : List Flag :=
  [{ name := utf8 "config"
     short := some 0x63
     usage :=
       utf8 "path to configuration file (default " ++
         Settings.defaultPath ++ utf8 " if present)" },
    { name := utf8 "log-level"
      usage := utf8 "log level: debug, info, warn or error" }]

/- The flag that names the directive. -/
def directiveFlag : Flag :=
  { name := utf8 "directive"
    usage := utf8 "directive name without '@' (default alias)" }

/- The flag that tells the output mode. -/
def modeFlag : Flag :=
  { name := utf8 "mode"
    usage := utf8 "output mode: companion or inplace" }

/- The flag that tells the suffix of companions. -/
def suffixFlag : Flag :=
  { name := utf8 "suffix"
    usage := utf8 "companion file suffix (default _alias.go)" }

/- The flag that asks for help. -/
def helpFlag
    (c : Command) : Flag :=
  { name := utf8 "help"
    short := some 0x68
    switch := true
    usage := utf8 "help for " ++ c.name }

/- The flags of a command besides the global ones. -/
def localFlags
    (c : Command) : List Flag :=
  match c with
  | .root =>
      [helpFlag c,
        { name := utf8 "version"
          short := some 0x76
          switch := true
          usage := utf8 "version for " ++ program }]
  | .gen =>
      [directiveFlag, modeFlag, suffixFlag,
        { name := utf8 "dry-run"
          switch := true
          usage :=
            utf8 "print generated files instead of writing them" },
        helpFlag c]
  | .check =>
      [directiveFlag,
        { name := utf8 "dump"
          switch := true
          usage :=
            utf8 "print the parsed alias list of every annotated " ++
              utf8 "declaration" },
        helpFlag c]
  | .init =>
      [directiveFlag, modeFlag, suffixFlag,
        { name := utf8 "force"
          short := some 0x66
          switch := true
          usage := utf8 "overwrite an existing settings file" },
        helpFlag c]
  | c => [helpFlag c]

/- All flags of a command. -/
def flags
    (c : Command) : List Flag :=
  c.localFlags ++ globalFlags

------------------------------------------------------------
-- Help
------------------------------------------------------------

/- A text filled up with spaces. -/
def padded
    (width : Nat)
    (s : Bytes) : Bytes :=
  s ++ List.replicate (width - s.length) 0x20

/- The list of all commands, in the order of their names. -/
def commandLines : Bytes :=
  let sorted := all.mergeSort fun c d => Bytes.le c.name d.name
  sorted.flatMap fun c =>
    utf8 "\n  " ++ padded 11 c.name ++ utf8 " " ++ c.summary

/- How a command is used. -/
def usage : Command → Bytes
  | .root =>
      utf8 "Usage:\n  " ++ program ++ utf8 " [command]\n\n" ++
        utf8 "Available Commands:" ++ commandLines ++
        utf8 "\n\nFlags:\n" ++ flagLines (flags .root) ++
        utf8 "\n\nUse \"" ++ program ++
        utf8 " [command] --help\" for more information about a " ++
        utf8 "command.\n"
  | c =>
      utf8 "Usage:\n  " ++ c.path ++ c.arguments ++
        utf8 " [flags]\n\nFlags:\n" ++ flagLines c.localFlags ++
        utf8 "\n\nGlobal Flags:\n" ++ flagLines globalFlags ++
        utf8 "\n"

/- The help for a command. -/
def helpText
    (c : Command) : Bytes :=
  c.description ++ utf8 "\n\n" ++ c.usage

end Command

------------------------------------------------------------
-- Search
------------------------------------------------------------

/- The command with a name. -/
def commandNamed?
    (word : Bytes) : Option Command :=
  Command.all.find? fun c => c.name == word

/- Is a command meant by a word that is not its name? -/
def isSuggested
    (word : Bytes)
    (c : Command) : Bool :=
  c != .help &&
    (Spelling.distance (Bytes.toLower word) c.name ≤ 2 ||
      c.name.startsWith (Bytes.toLower word))

/- The commands that a word may stand for. -/
def suggestions
    (word : Bytes) : List Bytes :=
  (Command.all.filter (isSuggested word)).map Command.name

/-
  Find the command among arguments.  The result has the
  arguments without it, or the word that is no command.
-/
def find
    (args : List Bytes) : Except Bytes (Command × List Bytes) :=
  match words Command.globalFlags args with
  | [] => .ok (.root, args)
  | word :: _ =>
      match commandNamed? word with
      | some c => .ok (c, withoutWord Command.globalFlags word args)
      | none => .error word

end Cli

end Namesake
