import BodyLength.Files.Disk
/-!
# The root of a project

A project is a directory with an entry `.git`. The project of a path is looked for at the
path and its parents, going by the text of the path alone: two dots are a component like
any other, so the parents of `a/../b` are `a/..`, `a` and so on.
-/

namespace BodyLength

namespace Disk

/-- The name of the entry that makes a directory a project. -/
def projectEntry : FileName := bytes ".git"

/-- The directories that may be the root of the project of a path, the nearest first. -/
def rootCandidates (d : Disk) (path : FilePath) : List FilePath :=
  if d.isFile path then Path.parents path else path :: Path.parents path

/-- The project that a path belongs to. -/
def projectRoot? (d : Disk) (path : FilePath) : Option FilePath :=
  (d.rootCandidates path).find? fun p => d.exists? (Path.join p projectEntry)

/-- Where to look for the configuration of a path: at the root of its project, or without one
at the path itself or the directory of the file. -/
def configRoot (d : Disk) (path : FilePath) : FilePath :=
  match d.projectRoot? path with
  | some root => root
  | none => if d.isFile path then (Path.parent? path).getD d.workingPath else path

end Disk

end BodyLength
