import Namesake.Path

/-
  This file defines trees of directories and files, and the
  effects and errors of reading and writing.  There are no
  links: a tree in which two places are one file, through a
  hard link, or a name stands for another path, as a symbolic
  link does, is outside of what is defined here.

  A path is followed part by part: every part but the last has
  to be a directory that exists, also in front of a step up.

  Key definitions include:
    * `FileTree`
    * `FileTree.Error`
    * `FileTree.walk`
    * `FileTree.spot`
    * `FileTree.read`
    * `FileTree.write`
    * `FileTree.makeDirs`
-/

namespace Namesake

/- The names of the directories down to a file or directory. -/
abbrev Place :=
  List Bytes

/- The files of a tree with their contents, and its directories. -/
structure FileTree where
  files : List (Place × Bytes) := []
  dirs : List Place := []
deriving DecidableEq, Repr

namespace FileTree

------------------------------------------------------------
-- Errors
------------------------------------------------------------

/- Why a path cannot be used. -/
inductive Cause where
  | notFound
  | notDirectory
  | isDirectory
  | alreadyExists
  | badName
  | longName
deriving DecidableEq, Repr

/- The wording of a cause. -/
def Cause.text : Cause → Bytes
  | .notFound => utf8 "no such file or directory"
  | .notDirectory => utf8 "not a directory"
  | .isDirectory => utf8 "is a directory"
  | .alreadyExists => utf8 "file exists"
  | .badName => utf8 "invalid argument"
  | .longName => utf8 "file name too long"

/- What was tried. -/
inductive Action where
  | opening
  | reading
  | makingDir
deriving DecidableEq, Repr

/- The wording of an action. -/
def Action.text : Action → Bytes
  | .opening => utf8 "open"
  | .reading => utf8 "read"
  | .makingDir => utf8 "mkdir"

/- An action that failed. -/
structure Error where
  action : Action
  path : Bytes
  cause : Cause
deriving DecidableEq, Repr

/- The wording of an error. -/
def Error.message
    (e : Error) : Bytes :=
  e.action.text ++ utf8 " " ++ e.path ++ utf8 ": " ++ e.cause.text

------------------------------------------------------------
-- Contents
------------------------------------------------------------

/- The content of a file. -/
def file?
    (t : FileTree)
    (p : Place) : Option Bytes :=
  (t.files.find? fun f => f.1 == p).map Prod.snd

/- Is there a directory?  The root always exists. -/
def isDir
    (t : FileTree)
    (p : Place) : Bool :=
  p.isEmpty || t.dirs.contains p

/- Give a file a content. -/
def put
    (t : FileTree)
    (p : Place)
    (content : Bytes) : FileTree :=
  { t with files := (p, content) :: t.files.filter fun f => f.1 != p }

/- Take a file away. -/
def erase
    (t : FileTree)
    (p : Place) : FileTree :=
  { t with files := t.files.filter fun f => f.1 != p }

/- Add a directory. -/
def addDir
    (t : FileTree)
    (p : Place) : FileTree :=
  if t.isDir p then t else { t with dirs := p :: t.dirs }

/- Add a directory and all above it. -/
def addDirs
    (t : FileTree)
    (p : Place) : FileTree :=
  (inits p).foldl addDir t
where
  /- The beginnings of a place. -/
  inits : Place → List Place
    | [] => [[]]
    | name :: rest => [] :: (inits rest).map (name :: ·)

------------------------------------------------------------
-- Paths
------------------------------------------------------------

/- What a path leads to. -/
inductive Spot where
  | dir (p : Place)
  | file (p : Place) (content : Bytes)
  | missing (p : Place)
deriving DecidableEq, Repr

/- Follow the parts of a path from a directory. -/
def walk
    (t : FileTree)
    (dir : Place) : List Bytes → Except Cause Spot
  | [] => .ok (.dir dir)
  | name :: rest =>
      if name == utf8 "." then
        walk t dir rest
      else if name == utf8 ".." then
        walk t dir.dropLast rest
      else if 255 < name.length then
        .error .longName
      else
        let p := dir ++ [name]
        if t.isDir p then
          walk t p rest
        else
          match t.file? p with
          | some content =>
              if rest.isEmpty then .ok (.file p content)
              else .error .notDirectory
          | none =>
              if rest.isEmpty then .ok (.missing p)
              else .error .notFound

/-
  The parts of a path.  A slash at the end asks for a
  directory.
-/
def steps
    (path : Bytes) : List Bytes :=
  let names := (Path.parts path).filter fun s => !s.isEmpty
  if path.getLast? == some Path.separator then
    names ++ [utf8 "."]
  else
    names

/- What a path leads to, seen from a directory. -/
def spot
    (t : FileTree)
    (here : Place)
    (path : Bytes) : Except Cause Spot :=
  if path.isEmpty then
    .error .notFound
  else if path.contains 0x00 then
    .error .badName
  else
    walk t (if Path.isAbsolute path then [] else here) (steps path)

/- Does a path lead to something? -/
def isThere
    (t : FileTree)
    (here : Place)
    (path : Bytes) : Bool :=
  match t.spot here path with
  | .ok (.missing _) => false
  | .ok _ => true
  | .error _ => false

------------------------------------------------------------
-- Reading and Writing
------------------------------------------------------------

/- The content of the file that a path leads to. -/
def read
    (t : FileTree)
    (here : Place)
    (path : Bytes) : Except Error Bytes :=
  match t.spot here path with
  | .ok (.file _ content) => .ok content
  | .ok (.dir _) => .error ⟨.reading, path, .isDirectory⟩
  | .ok (.missing _) => .error ⟨.opening, path, .notFound⟩
  | .error cause => .error ⟨.opening, path, cause⟩

/- Write the file that a path leads to, or make it. -/
def write
    (t : FileTree)
    (here : Place)
    (path content : Bytes) : Except Error FileTree :=
  match t.spot here path with
  | .ok (.file p _) => .ok (t.put p content)
  | .ok (.missing p) => .ok (t.put p content)
  | .ok (.dir _) => .error ⟨.opening, path, .isDirectory⟩
  | .error cause => .error ⟨.opening, path, cause⟩

/- A path without the slashes at its end. -/
def trimSlashes
    (path : Bytes) : Bytes :=
  Bytes.trimRight (· == Path.separator) path

/- Make one directory. -/
def makeDir
    (t : FileTree)
    (here : Place)
    (path : Bytes) : Except Error FileTree :=
  match t.spot here (trimSlashes path) with
  | .ok (.missing p) => .ok (t.addDir p)
  | .ok (.dir _) => .ok t
  | .ok (.file _ _) => .error ⟨.makingDir, path, .alreadyExists⟩
  | .error cause => .error ⟨.makingDir, path, cause⟩

/- Make a directory and all above it that do not exist. -/
def makeDirsFrom
    (here : Place) : (fuel : Nat) → (path : Bytes) → FileTree →
      Except Error FileTree
  | 0, path, t => t.makeDir here path
  | fuel + 1, path, t =>
      match t.spot here path with
      | .ok (.dir _) => .ok t
      | .ok (.file _ _) => .error ⟨.makingDir, path, .notDirectory⟩
      | _ =>
          let parent := Path.upToSlash (trimSlashes path)
          if parent.isEmpty then
            t.makeDir here path
          else
            match makeDirsFrom here fuel parent t with
            | .error e => .error e
            | .ok t => t.makeDir here path

/- Make a directory and all above it that do not exist. -/
def makeDirs
    (t : FileTree)
    (here : Place)
    (path : Bytes) : Except Error FileTree :=
  makeDirsFrom here path.length path t

------------------------------------------------------------
-- Listing
------------------------------------------------------------

/- The name of a place in a directory, if it is directly in it. -/
def nameIn?
    (dir p : Place) : Option Bytes :=
  match p.getLast? with
  | some name => if p == dir ++ [name] then some name else none
  | none => none

/- The files of a directory, in the order of their names. -/
def filesIn
    (t : FileTree)
    (dir : Place) : List (Bytes × Bytes) :=
  let found := t.files.filterMap fun (p, content) =>
    (nameIn? dir p).map fun name => (name, content)
  found.mergeSort fun a b => Bytes.le a.1 b.1

/- The directories of a directory, in the order of their names. -/
def dirsIn
    (t : FileTree)
    (dir : Place) : List Bytes :=
  (t.dirs.filterMap (nameIn? dir)).mergeSort Bytes.le

end FileTree

end Namesake
