import BodyLength.CommandLine.Run
/-!
# The program

Takes a picture of the part of the file system that a command can look at, runs the command
on it and prints what it has to say.
-/

namespace BodyLength

namespace Snapshot

/-- A path as the operating system takes it. -/
def native (path : FilePath) : String := shownText path

/-- The names that lead to a file whose path has neither links nor dots in it. -/
def namesOf (path : FilePath) : List FileName := (Path.pieces path).filter (!·.isEmpty)

/-- The names that lead to what is at a path when all links are followed. -/
def realNames (path : FilePath) : IO (List FileName) := do
  return namesOf (bytes (← IO.FS.realPath (native path)).toString)

/-- The entries of a directory with everything below it that a scan can look at. -/
partial def entriesOf (dir : FilePath) : IO (List (FileName × FileTree)) := do
  let mut entries := []
  for e in ← (← IO.FS.realPath (native dir)).readDir do
    let name := bytes e.fileName
    match (← e.path.symlinkMetadata).type with
    | .file =>
      let content ← IO.FS.readBinFile e.path
      entries := (name, .file content.data.toList) :: entries
    | .dir =>
      unless FileTree.skips name do
        entries := (name, .dir (← entriesOf (bytes e.path.toString))) :: entries
    | _ => pure ()
  return entries

/-- What an absolute path leads to, if anything; a directory comes with its entries if the
scan is of it. -/
def read (scanned : Bool) (path : FilePath) : IO (Option (List FileName × FileTree)) := do
  try
    let real ← IO.FS.realPath (native path)
    let names ← realNames path
    match (← real.metadata).type with
    | .file => return some (names, .file (← IO.FS.readBinFile real).data.toList)
    | .dir =>
      let entries ← if scanned then entriesOf path else pure []
      return some (names, .dir entries)
    | _ => return none
  catch _ => return none

/-- Adds to a tree the link at the end of an absolute path, if there is one. -/
def addLink (path : FilePath) (root : FileTree) : IO FileTree := do
  match Path.parent? path, Path.fileName? path with
  | some parent, some name =>
    try
      let place := (← realNames parent) ++ [name]
      let real ← realNames path
      return if real = place then root
        else (FileTree.link (Byte.slash :: [Byte.slash].intercalate real)).put place root
    catch _ => return root
  | _, _ => return root

/-- Adds to a tree what an absolute path leads to, and the links on the way. -/
def add (scanned : Bool) (path : FilePath) (root : FileTree) : IO FileTree := do
  let mut root := root
  if let some (names, t) ← read scanned path then
    root := t.put names root
  for p in path :: Path.parents path do
    root ← addLink p root
  return root

/-- The path that a command scans. -/
def scanned? : Command → Option FilePath
  | .scan path _ => if path = ScanRun.stdinPath then none else some path
  | _ => none

/-- The configuration file that a command names. -/
def config? : Command → Option FilePath
  | .scan _ flags => flags.config
  | .validateConfig path => path
  | .showConfig path => path

/-- What a command may look for in a directory on the way to what it scans. -/
def landmarks : List FileName := Disk.projectEntry :: Config.fileNames

/-- The disk as far as a command can tell. -/
def disk (command : Command) : IO Disk := do
  let cwd := bytes (← IO.currentDir).toString
  let target := ((scanned? command).map (Path.join cwd)).getD cwd
  let mut root ← add (scanned? command).isSome target (.dir [])
  for dir in cwd :: target :: Path.parents target do
    root ← add false dir root
    for name in landmarks do
      root ← add false (Path.join dir name) root
  if let some path := config? command then
    root ← add false (Path.join cwd path) root
  return { root, workingDir := namesOf cwd }

end Snapshot

/-- What is left of a stream. -/
partial def readAll (stream : IO.FS.Stream) (front : ByteArray) : IO ByteArray := do
  let chunk ← stream.read 65536
  if chunk.isEmpty then return front else readAll stream (front ++ chunk)

/-- The standard input, as far as a command reads it. -/
def inputOf : Command → IO (List UInt8)
  | .scan path _ => do
    if path = ScanRun.stdinPath then return (← readAll (← IO.getStdin) .empty).data.toList
    else return []
  | _ => return []

end BodyLength

open BodyLength

/-- Runs the command of the arguments. With arguments that make none, fails with status 2. -/
def main (args : List String) : IO UInt32 := do
  match Command.ofArguments args with
  | none =>
    IO.eprintln "usage: scan PATH | config validate | config show"
    return 2
  | some command =>
    let result := command.run (← Snapshot.disk command) (← inputOf command)
    IO.print result.stdout
    IO.eprint result.stderr
    return result.exit
