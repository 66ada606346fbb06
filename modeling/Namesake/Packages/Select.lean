import Namesake.Constraint
import Namesake.FileTree
import Namesake.Source.File

/-
  This file defines which files of a directory make up its
  package when it is built for Linux on a 64-bit processor.

  Key definitions include:
    * `Packages.isBuildTag`
    * `Packages.fitsName`
    * `Packages.fitsConstraints`
    * `Packages.Selection`
    * `Packages.select`
-/

namespace Namesake

namespace Packages

------------------------------------------------------------
-- Tags
------------------------------------------------------------

/- The operating systems that file names may tell. -/
def systems : List Bytes :=
  ["aix", "android", "darwin", "dragonfly", "freebsd", "hurd",
    "illumos", "ios", "js", "linux", "nacl", "netbsd", "openbsd",
    "plan9", "solaris", "wasip1", "windows", "zos"].map utf8

/- The processors that file names may tell. -/
def processors : List Bytes :=
  ["386", "amd64", "amd64p32", "arm", "armbe", "arm64", "arm64be",
    "loong64", "mips", "mipsle", "mips64", "mips64le", "mips64p32",
    "mips64p32le", "ppc", "ppc64", "ppc64le", "riscv", "riscv64",
    "s390", "s390x", "sparc", "sparc64", "wasm"].map utf8

/- The tags that always hold. -/
def fixedTags : List Bytes :=
  ["linux", "amd64", "unix", "gc", "cgo"].map utf8

/- The last minor release that files may ask for. -/
def lastRelease : Nat :=
  27

/- Does a tag hold? -/
def isBuildTag
    (tag : Bytes) : Bool :=
  fixedTags.contains tag ||
    (List.range lastRelease).any fun n =>
      tag == utf8 "go1." ++ Bytes.ofNat (n + 1)

------------------------------------------------------------
-- Names
------------------------------------------------------------

/- Is this the name of a test file? -/
def isTest
    (name : Bytes) : Bool :=
  name.endsWith (utf8 "_test.go")

/-
  Does the name of a file allow it?  A system and a processor
  behind underscores have to be the ones in use.
-/
def fitsName
    (name : Bytes) : Bool :=
  let stem := name.takeWhile (· ≠ 0x2e)
  let words := (stem.splitOn 0x5f).drop 1
  let words :=
    if words.getLast? == some (utf8 "test") then words.dropLast
    else words
  match words.reverse with
  | [] => true
  | [last] =>
      isBuildTag last || !(systems ++ processors).contains last
  | last :: before :: _ =>
      if systems.contains before && processors.contains last then
        isBuildTag last && isBuildTag before
      else
        isBuildTag last || !(systems ++ processors).contains last

------------------------------------------------------------
-- Constraints
------------------------------------------------------------

/- What is known while the top of a file is read. -/
structure Top where
  build : Option Bytes := none
  kept : List Bytes := []
  pending : List Bytes := []
  ended : Bool := false
  inBlock : Bool := false

/-
  Step over the comments of a line.  The first result is
  whether something else follows, the second whether a comment
  goes on in the next line.
-/
def passComments
    (inBlock : Bool) : (fuel : Nat) → Bytes → Bool × Bool
  | 0, _ => (false, inBlock)
  | fuel + 1, line =>
      if line.isEmpty then
        (false, inBlock)
      else if inBlock then
        match Bytes.splitFirst? (utf8 "*/") line with
        | some (_, rest) =>
            passComments false fuel (Bytes.trimSpace rest)
        | none => (false, true)
      else if line.startsWith (utf8 "//") then
        (false, false)
      else
        match (utf8 "/*").isPrefixOf? line with
        | some rest => passComments true fuel (Bytes.trimSpace rest)
        | none => (true, false)

/-
  Read the lines above the package clause.  Old constraints
  count only if an empty line follows them.
-/
def topFrom
    (top : Top) : List Bytes → Top
  | [] => top
  | line :: lines =>
      let line := Bytes.trimSpace line
      if line.isEmpty && !top.ended then
        topFrom
          { top with kept := top.kept ++ top.pending, pending := [] }
          lines
      else
        let top :=
          { top with
            ended := top.ended || !line.startsWith (utf8 "//") }
        let build :=
          if !top.inBlock && (Constraint.goBuild? line).isSome then
            some line
          else
            top.build
        let (code, inBlock) :=
          passComments top.inBlock (line.length + 1) line
        let top :=
          { top with
            build := build
            inBlock := inBlock
            pending := top.pending ++ [line] }
        if code then top else topFrom top lines

/- Does a condition on one line hold? -/
def holds
    (line : Bytes) : Bool :=
  match Constraint.parse? line with
  | some x => x.eval isBuildTag
  | none => true

/- Do the conditions at the top of a file hold? -/
def fitsConstraints
    (content : Bytes) : Bool :=
  let top := topFrom {} content.lines
  match top.build with
  | some line => holds line
  | none =>
      top.kept.all fun line =>
        (Constraint.plusBuild? line).isNone || holds line

------------------------------------------------------------
-- Selection
------------------------------------------------------------

/-
  The files of a directory: those of its package, the tests,
  and the number of those that are left out.
-/
structure Selection where
  files : List (Bytes × Bytes) := []
  tests : List (Bytes × Bytes) := []
  ignored : Nat := 0

/- Is this the name of a source file that is not hidden? -/
def isSource
    (name : Bytes) : Bool :=
  name.endsWith (utf8 ".go") && name.head? != some 0x5f &&
    name.head? != some 0x2e

/- Sort out the files of a directory. -/
def select
    (t : FileTree)
    (dir : Place) : Selection :=
  let sources := (t.filesIn dir).filter fun f => isSource f.1
  let fitting := sources.filter fun f =>
    fitsName f.1 && fitsConstraints f.2
  { files := fitting.filter fun f => !isTest f.1
    tests := fitting.filter fun f => isTest f.1
    ignored := sources.length - fitting.length }

/- Has a directory any file that a build could use? -/
def Selection.isEmpty
    (s : Selection) : Bool :=
  s.files.isEmpty && s.tests.isEmpty

end Packages

end Namesake
