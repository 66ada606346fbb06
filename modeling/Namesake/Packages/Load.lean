import Namesake.Packages.Select

/-
  This file defines which files package patterns stand for.

  A pattern is a directory, given by a path that starts with a
  dot, or a package of the module around the directory where
  the search starts.  Three dots stand for anything.

  The tool that does this for the program is not part of it,
  and `Packages.load` is not all of it: it knows one module and
  no other, one platform, and neither the standard packages nor
  patterns with a meaning of their own, `std`, `all` and those
  that start with `file=`.  So the program is given the tool as
  an instance of `Packages.Loader`, for which `Packages.load`
  stands in when nothing else is said.

  Key definitions include:
    * `Packages.Error`
    * `Packages.matchesPattern`
    * `Packages.moduleRoot?`
    * `Packages.directories`
    * `Packages.load`
    * `Packages.Loader`
-/

namespace Namesake

namespace Packages

------------------------------------------------------------
-- Errors
------------------------------------------------------------

/- Why a package has no files. -/
inductive Fault where
  | noDirectory (path : Bytes)
  | noFiles (path : Bytes)
  | allIgnored (path : Bytes)
  | mixedNames (first second : Bytes × Bytes) (path : Bytes)
  | unknown (name : Bytes)
deriving DecidableEq, Repr

/- The wording of a fault. -/
def Fault.message : Fault → Bytes
  | .noDirectory path =>
      utf8 "stat " ++ path ++ utf8 ": directory not found"
  | .noFiles path => utf8 "no Go files in " ++ path
  | .allIgnored path =>
      utf8 "build constraints exclude all Go files in " ++ path
  | .mixedNames (name, file) (other, file') path =>
      utf8 "found packages " ++ name ++ utf8 " (" ++ file ++
        utf8 ") and " ++ other ++ utf8 " (" ++ file' ++ utf8 ") in " ++
        path
  | .unknown name =>
      utf8 "package " ++ name ++ utf8 " is not in std"

/- Why patterns have no files. -/
inductive Error where
  | noModule
  | faults (list : List Fault)
deriving DecidableEq, Repr

/- The wording of an error. -/
def Error.message : Error → Bytes
  | .noModule =>
      utf8 "failed to load packages: err: exit status 1: stderr: " ++
        utf8 "go: go.mod file not found in current directory or any " ++
        utf8 "parent directory; see 'go help modules'\n"
  | .faults list =>
      utf8 "package errors: " ++
        Bytes.join (utf8 "\n") (list.map fun f => utf8 "-: " ++ f.message)

------------------------------------------------------------
-- Modules
------------------------------------------------------------

/- The path of a place from the root. -/
def absolute
    (p : Place) : Bytes :=
  [Path.separator] ++ Bytes.join [Path.separator] p

/- The name of the file that describes a module. -/
def moduleFile : Bytes :=
  utf8 "go.mod"

/- Has a directory a description of a module? -/
def isModule
    (t : FileTree)
    (dir : Place) : Bool :=
  (t.file? (dir ++ [moduleFile])).isSome

/- The nearest directory above that has a module. -/
def moduleRoot?
    (t : FileTree)
    (dir : Place) : Option Place :=
  (List.range (dir.length + 1)).findSome? fun n =>
    let above := dir.take (dir.length - n)
    if isModule t above then some above else none

/- The name of a module that is on a line, if there is one. -/
def moduleName?
    (line : Bytes) : Option Bytes :=
  ((utf8 "module ").isPrefixOf? (Bytes.trimSpace line)).map
    fun s => Bytes.trim (· == 0x22) (Bytes.trimSpace s)

/- The name of the module in a directory. -/
def moduleName
    (t : FileTree)
    (root : Place) : Bytes :=
  let content := (t.file? (root ++ [moduleFile])).getD []
  (content.lines.findSome? moduleName?).getD []

------------------------------------------------------------
-- Patterns
------------------------------------------------------------

/- The dots that stand for anything. -/
def dots : Bytes :=
  utf8 "..."

/- Does a pattern stand for more than one package? -/
def isWild
    (pattern : Bytes) : Bool :=
  Bytes.containsText dots pattern

/- Is a text made of `piece`, anything, and the pattern behind it? -/
def matchesFrom : (fuel : Nat) → (pattern s : Bytes) → Bool
  | 0, _, _ => false
  | fuel + 1, pattern, s =>
      match dots.isPrefixOf? pattern, pattern, s with
      | some rest, _, [] => rest.isEmpty
      | some rest, _, _ :: s' =>
          matchesFrom fuel rest s || matchesFrom fuel pattern s'
      | none, [], s => s.isEmpty
      | none, b :: rest, c :: s' => b == c && matchesFrom fuel rest s'
      | none, _ :: _, [] => false

/-
  Does a pattern stand for a name?  Dots behind a last slash
  also stand for nothing, without the slash.
-/
def matchesPattern
    (pattern name : Bytes) : Bool :=
  let fuel := pattern.length + name.length + 1
  matchesFrom fuel pattern name ||
    match ([Path.separator] ++ dots).isSuffixOf? pattern with
    | some base => matchesFrom fuel base name
    | none => false

/- Is a directory left out when directories are searched? -/
def isHidden
    (name : Bytes) : Bool :=
  (name.head? == some 0x2e && name != utf8 "." && name != utf8 "..") ||
    name.head? == some 0x5f || name == utf8 "testdata"

/-
  The directories below one, each with its path from where
  the search started.  Other modules are left out.
-/
def below
    (t : FileTree) : (fuel : Nat) → (dir : Place) → (path : Bytes) →
      List (Place × Bytes)
  | 0, _, _ => []
  | fuel + 1, dir, path =>
      (dir, path) ::
        (t.dirsIn dir).flatMap fun name =>
          let sub := dir ++ [name]
          if isHidden name || isModule t sub then
            []
          else
            below t fuel sub (path ++ [Path.separator] ++ name)

/- All directories below one. -/
def allBelow
    (t : FileTree)
    (dir : Place)
    (path : Bytes) : List (Place × Bytes) :=
  if (dir.getLast?.map isHidden).getD false then
    []
  else
    below t (t.dirs.length + 1) dir path

/- Is a pattern a path? -/
def isLocal
    (pattern : Bytes) : Bool :=
  pattern == utf8 "." || pattern == utf8 ".." ||
    pattern.startsWith (utf8 "./") || pattern.startsWith (utf8 "../") ||
    Path.isAbsolute pattern

/- The part of a pattern up to the slash before its dots. -/
def fixedPart
    (pattern : Bytes) : Bytes :=
  match Bytes.splitFirst? dots pattern with
  | some (front, _) => Path.upToSlash front
  | none => pattern

/- A relative path that starts with a dot. -/
def dotted
    (path : Bytes) : Bytes :=
  let path := Path.clean path
  if path == utf8 "." || path.startsWith (utf8 "..") ||
      Path.isAbsolute path then
    path
  else
    utf8 "./" ++ path

/- Keep the directories that have files to build. -/
def buildable
    (t : FileTree)
    (dirs : List (Place × Bytes)) : List Place :=
  (dirs.map Prod.fst).filter fun dir => !(select t dir).isEmpty

/- The directories that a path with or without dots stands for. -/
def localDirs
    (t : FileTree)
    (here : Place)
    (pattern : Bytes) : Except Fault (List Place) :=
  let start := fixedPart pattern
  let start := if start.isEmpty then utf8 "." else start
  match t.spot here start with
  | .ok (.dir dir) =>
      if isWild pattern then
        .ok
          (buildable t
            ((allBelow t dir (dotted start)).filter fun d =>
              matchesPattern pattern d.2))
      else
        .ok [dir]
  | _ =>
      let path := Path.join (absolute here) start
      if isWild pattern then .ok [] else .error (.noDirectory path)

/- The directories of the packages of a module. -/
def moduleDirs
    (t : FileTree)
    (root : Place)
    (pattern : Bytes) : Except Fault (List Place) :=
  let name := moduleName t root
  if isWild pattern then
    .ok
      (buildable t
        ((allBelow t root name).filter fun d =>
          matchesPattern pattern d.2))
  else if pattern == name then
    .ok [root]
  else
    match (name ++ [Path.separator]).isPrefixOf? pattern with
    | some rest =>
        let dir := root ++ Path.parts rest
        if t.isDir dir then .ok [dir] else .error (.unknown pattern)
    | none => .error (.unknown pattern)

/- The directories that a pattern stands for. -/
def directories
    (t : FileTree)
    (here root : Place)
    (pattern : Bytes) : Except Fault (List Place) :=
  if isLocal pattern then
    localDirs t here pattern
  else
    moduleDirs t root pattern

------------------------------------------------------------
-- Files
------------------------------------------------------------

/- The name of the package of a file. -/
def packageName
    (file : Bytes × Bytes) : Bytes :=
  match (Source.parse file.1 file.2).tree with
  | some tree => tree.name.name
  | none => []

/- The first two files that name different packages. -/
def mixed?
    (files : List (Bytes × Bytes)) :
    Option ((Bytes × Bytes) × (Bytes × Bytes)) :=
  match files.map fun f => (packageName f, f.1) with
  | [] => none
  | first :: rest =>
      (rest.find? fun f => f.1 != first.1).map fun f => (first, f)

/- The files of the package in a directory. -/
def filesOf
    (t : FileTree)
    (dir : Place) : Except Fault (List Bytes) :=
  let s := select t dir
  let path := absolute dir
  if s.isEmpty then
    if s.ignored = 0 then
      .error (.noFiles path)
    else
      .error (.allIgnored path)
  else
    match mixed? s.files with
    | some (first, second) => .error (.mixedNames first second path)
    | none => .ok (s.files.map fun f => absolute (dir ++ [f.1]))

/- Sort results into faults and successes. -/
def partition
    {α : Type} : List (Except Fault α) → List Fault × List α
  | [] => ([], [])
  | .error f :: rest =>
      let (fs, xs) := partition rest
      (f :: fs, xs)
  | .ok x :: rest =>
      let (fs, xs) := partition rest
      (fs, x :: xs)

/- Keep the first of equal members. -/
def distinct
    {α : Type}
    [BEq α] : List α → List α
  | [] => []
  | x :: xs => x :: (distinct xs).filter fun y => !(x == y)

/-
  The paths of the files that patterns stand for, in the
  order of the patterns.  No pattern is the directory itself.
-/
def load
    (t : FileTree)
    (here : Place)
    (patterns : List Bytes) : Except Error (List Bytes) :=
  match moduleRoot? t here with
  | none => .error .noModule
  | some root =>
      let patterns :=
        if patterns.isEmpty then [utf8 "."] else patterns
      let (faults, dirs) :=
        partition (patterns.map (directories t here root))
      let (more, files) :=
        partition ((distinct dirs.flatten).map (filesOf t))
      match faults ++ more with
      | [] => .ok (distinct files.flatten)
      | list => .error (.faults list)

/-
  A tool that finds the files of packages, seen from a
  directory of a file tree.
-/
class Loader where
  load :
    (t : FileTree) → (here : Place) → (patterns : List Bytes) →
      Except Error (List Bytes)

/- The tool that is used when no other is given. -/
instance : Loader :=
  ⟨load⟩

end Packages

end Namesake
