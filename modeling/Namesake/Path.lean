import Namesake.Text.Bytes

/-
  This file defines file paths as texts with slashes.

  Key definitions include:
    * `Path.clean`
    * `Path.join`
    * `Path.dir`
    * `Path.base`
    * `Path.isAbsolute`
-/

namespace Namesake

namespace Path

/- The slash between the parts of a path. -/
def separator : UInt8 :=
  0x2f

/- The parts of a path between its slashes. -/
def parts
    (path : Bytes) : List Bytes :=
  path.splitOn separator

/- Does the path start at the root? -/
def isAbsolute
    (path : Bytes) : Bool :=
  path.head? == some separator

/-
  Take one part: nothing for the same directory, one step up
  for the parent directory.  The parts so far are kept last
  one first.
-/
def push
    (rooted : Bool)
    (done : List Bytes)
    (part : Bytes) : List Bytes :=
  if part.isEmpty || part == utf8 "." then
    done
  else if part == utf8 ".." then
    match done with
    | [] => if rooted then [] else [part]
    | last :: rest => if last == utf8 ".." then part :: done else rest
  else
    part :: done

/- The shortest path with the same meaning. -/
def clean
    (path : Bytes) : Bytes :=
  let rooted := isAbsolute path
  let done := (parts path).foldl (push rooted) []
  let body := Bytes.join [separator] done.reverse
  if rooted then
    separator :: body
  else if body.isEmpty then
    utf8 "."
  else
    body

/- One path below another; an empty one does not count. -/
def join
    (dir path : Bytes) : Bytes :=
  if dir.isEmpty then
    if path.isEmpty then [] else clean path
  else if path.isEmpty then
    clean dir
  else
    clean (dir ++ [separator] ++ path)

/- Everything up to and including the last slash. -/
def upToSlash
    (path : Bytes) : Bytes :=
  (path.reverse.dropWhile (· ≠ separator)).reverse

/- The directory of a path. -/
def dir
    (path : Bytes) : Bytes :=
  clean (upToSlash path)

/- The last part of a path. -/
def base
    (path : Bytes) : Bytes :=
  (path.reverse.takeWhile (· ≠ separator)).reverse

end Path

end Namesake
