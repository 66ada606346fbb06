import Namesake.Text.Quoted

/-
  This file defines the flags of a command line and how they
  are read from its arguments.

  A flag has a long name behind two dashes, and perhaps a
  letter behind one.  Flags may stand between arguments; two
  dashes alone end them.

  Key definitions include:
    * `Cli.Flag`
    * `Cli.FlagError`
    * `Cli.Parsed`
    * `Cli.parseFlags`
    * `Cli.flagLines`
-/

namespace Namesake

namespace Cli

------------------------------------------------------------
-- Flags
------------------------------------------------------------

/- A flag; a switch needs no value. -/
structure Flag where
  name : Bytes
  short : Option UInt8 := none
  switch : Bool := false
  usage : Bytes
deriving DecidableEq, Repr

/- A flag as errors show it. -/
def Flag.shown
    (f : Flag) : Bytes :=
  match f.short with
  | some c => [0x2d, c] ++ utf8 ", --" ++ f.name
  | none => utf8 "--" ++ f.name

/- Why flags cannot be read. -/
inductive FlagError where
  | badForm (arg : Bytes)
  | unknown (name : Bytes)
  | unknownLetter (letter : UInt8) (group : Bytes)
  | noValue (name : Bytes)
  | noLetterValue (letter : UInt8) (group : Bytes)
  | badSwitch (value : Bytes) (flag : Flag)
deriving DecidableEq, Repr

/- The wording of an error. -/
def FlagError.message : FlagError → Bytes
  | .badForm arg => utf8 "bad flag syntax: " ++ arg
  | .unknown name => utf8 "unknown flag: --" ++ name
  | .unknownLetter letter group =>
      utf8 "unknown shorthand flag: " ++
        Quoted.encodeChar letter.toNat ++ utf8 " in -" ++ group
  | .noValue name => utf8 "flag needs an argument: --" ++ name
  | .noLetterValue letter group =>
      utf8 "flag needs an argument: " ++
        Quoted.encodeChar letter.toNat ++ utf8 " in -" ++ group
  | .badSwitch value flag =>
      utf8 "invalid argument " ++ Quoted.encode value ++ utf8 " for " ++
        Quoted.encode flag.shown ++
        utf8 " flag: strconv.ParseBool: parsing " ++
        Quoted.encode value ++ utf8 ": invalid syntax"

/- The truth value that a text stands for. -/
def truth?
    (s : Bytes) : Option Bool :=
  if ["1", "t", "T", "TRUE", "true", "True"].any (s == utf8 ·) then
    some true
  else if ["0", "f", "F", "FALSE", "false", "False"].any
      (s == utf8 ·) then
    some false
  else
    none

------------------------------------------------------------
-- Reading
------------------------------------------------------------

/- The flags that were set, the last one first, and the rest. -/
structure Parsed where
  values : List (Bytes × Bytes) := []
  args : List Bytes := []
deriving DecidableEq, Repr

namespace Parsed

/- The text of a flag. -/
def text
    (p : Parsed)
    (name : String) : Bytes :=
  ((p.values.find? fun v => v.1 == utf8 name).map Prod.snd).getD []

/- Is a switch on? -/
def isOn
    (p : Parsed)
    (name : String) : Bool :=
  (truth? (p.text name)).getD false

end Parsed

/- Set a flag. -/
def setFlag
    (p : Parsed)
    (f : Flag)
    (value : Bytes) : Except FlagError Parsed :=
  if f.switch && (truth? value).isNone then
    .error (.badSwitch value f)
  else
    .ok { p with values := (f.name, value) :: p.values }

/- Read a flag with a long name; `rest` are the arguments behind it. -/
def longFlag
    (flags : List Flag)
    (p : Parsed)
    (arg : Bytes)
    (rest : List Bytes) : Except FlagError (Parsed × List Bytes) := do
  let body := arg.drop 2
  if body.head? == some 0x2d || body.head? == some 0x3d then
    .error (.badForm arg)
  else
    let name := body.takeWhile (· ≠ 0x3d)
    match flags.find? fun f => f.name == name with
    | none => .error (.unknown name)
    | some f =>
        if name.length < body.length then
          let p ← setFlag p f (body.drop (name.length + 1))
          .ok (p, rest)
        else if f.switch then
          let p ← setFlag p f (utf8 "true")
          .ok (p, rest)
        else
          match rest with
          | [] => .error (.noValue name)
          | value :: rest =>
              let p ← setFlag p f value
              .ok (p, rest)

/- Read letters behind one dash. -/
def letterFlags
    (flags : List Flag)
    (rest : List Bytes) : Parsed → Bytes →
      Except FlagError (Parsed × List Bytes)
  | p, [] => .ok (p, rest)
  | p, c :: more => do
      match flags.find? fun f => f.short == some c with
      | none => .error (.unknownLetter c (c :: more))
      | some f =>
          if 1 < more.length && more.head? == some 0x3d then
            let p ← setFlag p f (more.drop 1)
            .ok (p, rest)
          else if f.switch then
            let p ← setFlag p f (utf8 "true")
            letterFlags flags rest p more
          else if !more.isEmpty then
            let p ← setFlag p f more
            .ok (p, rest)
          else
            match rest with
            | [] => .error (.noLetterValue c [c])
            | value :: rest =>
                let p ← setFlag p f value
                .ok (p, rest)

/- Is this a flag, rather than an argument? -/
def isFlag
    (arg : Bytes) : Bool :=
  arg.head? == some 0x2d && 1 < arg.length

/- Read arguments; each step takes at least one of them. -/
def parseFrom
    (flags : List Flag) : (fuel : Nat) → Parsed → List Bytes →
      Except FlagError Parsed
  | 0, p, _ => .ok p
  | _ + 1, p, [] => .ok p
  | fuel + 1, p, arg :: rest => do
      if !isFlag arg then
        parseFrom flags fuel { p with args := p.args ++ [arg] } rest
      else if arg == utf8 "--" then
        .ok { p with args := p.args ++ rest }
      else if arg.startsWith (utf8 "--") then
        let (p, rest) ← longFlag flags p arg rest
        parseFrom flags fuel p rest
      else
        let (p, rest) ← letterFlags flags rest p (arg.drop 1)
        parseFrom flags fuel p rest

/- Read the arguments of a command with given flags. -/
def parseFlags
    (flags : List Flag)
    (args : List Bytes) : Except FlagError Parsed :=
  parseFrom flags args.length {} args

------------------------------------------------------------
-- Words
------------------------------------------------------------

/-
  Does the argument behind this one belong to it?  A flag that
  is not known is taken for one that needs a value.
-/
def takesNext
    (flags : List Flag)
    (arg : Bytes) : Bool :=
  if arg.contains 0x3d then
    false
  else if arg.startsWith (utf8 "--") then
    !flags.any fun f => f.switch && f.name == arg.drop 2
  else
    arg.head? == some 0x2d && arg.length = 2 &&
      !flags.any fun f => f.switch && f.short == arg.getLast?

/- The arguments that are neither flags nor their values. -/
def words
    (flags : List Flag) : List Bytes → List Bytes
  | [] => []
  | arg :: rest =>
      if arg == utf8 "--" then
        []
      else if takesNext flags arg then
        match rest with
        | _ :: next :: more => words flags (next :: more)
        | _ => []
      else if !arg.isEmpty && arg.head? != some 0x2d then
        arg :: words flags rest
      else
        words flags rest

/- The arguments without the first word, which is given. -/
def withoutWord
    (flags : List Flag)
    (word : Bytes) : List Bytes → List Bytes
  | [] => []
  | arg :: rest =>
      if arg == utf8 "--" then
        arg :: rest
      else if takesNext flags arg then
        match rest with
        | value :: more => arg :: value :: withoutWord flags word more
        | [] => [arg]
      else if arg == word then
        rest
      else
        arg :: withoutWord flags word rest

------------------------------------------------------------
-- Help
------------------------------------------------------------

/- The left side of the description of a flag. -/
def flagHead
    (f : Flag) : Bytes :=
  let letter :=
    match f.short with
    | some c => utf8 "  -" ++ [c] ++ utf8 ", --"
    | none => utf8 "      --"
  letter ++ f.name ++ if f.switch then [] else utf8 " string"

/- The descriptions of flags in the order of their names. -/
def flagLines
    (flags : List Flag) : Bytes :=
  let flags := flags.mergeSort fun f g => Bytes.le f.name g.name
  let width := (flags.map fun f => (flagHead f).length).foldl max 0
  let lines := flags.map fun f =>
    let head := flagHead f
    head ++ List.replicate (width - head.length + 3) 0x20 ++ f.usage
  Bytes.join (utf8 "\n") lines

end Cli

end Namesake
