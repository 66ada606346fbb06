import Namesake.Cli.Run

/-
  This file holds the program: it takes the files of the
  current directory into a tree, runs the command line on it,
  and brings the changes back to the disk.

  Key definitions include:
    * `Disk.snapshot`
    * `Disk.store`
    * `main`
-/

namespace Namesake

namespace Disk

------------------------------------------------------------
-- Paths
------------------------------------------------------------

/- The place of an absolute path. -/
def placeOf
    (path : String) : Place :=
  (Path.parts (utf8 path)).filter fun s => !s.isEmpty

/- The absolute path of a place. -/
def pathOf
    (p : Place) : String :=
  let text : Bytes :=
    Path.separator :: Bytes.join [Path.separator] p
  (String.fromUTF8? (ByteArray.mk text.toArray)).getD ""

/- Is the content of a file of this name looked at? -/
def isRead
    (name : String) : Bool :=
  [".go", ".mod", ".yaml", ".yml"].any fun e => name.endsWith e

/- The files that a word of the command line may name. -/
def namedBy
    (word : String) : List String :=
  match word.splitOn "=" with
  | _ :: value :: rest => [word, "=".intercalate (value :: rest)]
  | _ => [word]

------------------------------------------------------------
-- Reading
------------------------------------------------------------

/- The bytes of a file, or none if it cannot be read. -/
def content
    (path : String) : IO Bytes := do
  try
    return (← IO.FS.readBinFile path).toList
  catch _ =>
    return []

/- Take what is at an absolute path into a tree. -/
def take
    (t : FileTree)
    (path : String)
    (whole : Bool) : IO FileTree := do
  let p := placeOf path
  let here ← IO.currentDir
  let absolute := here / path
  if ← absolute.isDir then
    return t.addDirs p
  else if ← absolute.pathExists then
    let text ← if whole then content path else pure []
    return (t.addDirs p.dropLast).put p text
  else
    return t

/-
  The files below the current directory, the module files
  above it, and the files that the command line names.
-/
def snapshot
    (args : List String) : IO FileTree := do
  let here ← IO.currentDir
  let mut t : FileTree := {}
  t := t.addDirs (placeOf here.toString)
  for path in ← here.walkDir fun d =>
      return !((d.fileName.getD "").startsWith ".") do
    t ← take t path.toString (isRead path.toString)
  let mut above := here.parent
  for _ in placeOf here.toString do
    if let some dir := above then
      t ← take t (dir / "go.mod").toString true
      above := dir.parent
  for word in args do
    for path in namedBy word do
      t ← take t (here / path).normalize.toString true
  return t

------------------------------------------------------------
-- Writing
------------------------------------------------------------

/- Bring what changed in a tree to the disk. -/
def store
    (before after : FileTree) : IO Unit := do
  for p in after.dirs do
    unless before.isDir p do
      IO.FS.createDirAll (pathOf p)
  for (p, text) in after.files do
    unless before.file? p == some text do
      IO.FS.writeBinFile (pathOf p) (ByteArray.mk text.toArray)

/- Write bytes to a stream. -/
def send
    (stream : IO.FS.Stream)
    (text : Bytes) : IO Unit := do
  stream.write (ByteArray.mk text.toArray)
  stream.flush

end Disk

end Namesake

open Namesake in
/- Run the command line on the current directory. -/
def main
    (args : List String) : IO UInt32 := do
  let tree ← Disk.snapshot args
  let here ← IO.currentDir
  let debug ← IO.getEnv "ALIASGEN_DEBUG"
  let start : Workspace :=
    { tree
      here := Disk.placeOf here.toString
      keepUnformatted := !(debug.getD "").isEmpty }
  let (done, code) :=
    match Cli.run (args.map utf8) start with
    | .ok _ w => (w, (0 : UInt32))
    | .error _ w => (w, 1)
  Disk.store tree done.tree
  Disk.send (← IO.getStdout) done.stdout
  Disk.send (← IO.getStderr) done.stderr
  return code
