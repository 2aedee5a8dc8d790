import BodyLength.Files.Tree
/-!
# Looking up paths

A `Disk` is the tree below the root together with a working directory. Looking up a path
goes through the tree component by component and follows links. It may fail in the ways that
`FileFault` lists.

Going through a directory can also fail for reasons that the tree does not tell, such as
missing permissions. A disk says of each such access whether it fails.
-/

namespace BodyLength

inductive FileFault where
  | notFound
  | permissionDenied
  | notDirectory
  | isDirectory
  | nameTooLong
  | tooManyLinks
  | notUtf8
  /-- The path has a byte 0. -/
  | zeroInName
deriving DecidableEq, Repr

namespace FileFault

def message : FileFault → String
  | notFound => "No such file or directory (os error 2)"
  | permissionDenied => "Permission denied (os error 13)"
  | notDirectory => "Not a directory (os error 20)"
  | isDirectory => "Is a directory (os error 21)"
  | nameTooLong => "File name too long (os error 36)"
  | tooManyLinks => "Too many levels of symbolic links (os error 40)"
  | notUtf8 => "stream did not contain valid UTF-8"
  | zeroInName => "file name contained an unexpected NUL byte"

end FileFault

/-- One step of looking up a path. -/
inductive PathStep where
  /-- Stay, which only works in a directory. -/
  | stay
  | up
  | enter (name : FileName)
deriving DecidableEq, Repr

namespace PathStep

def ofPiece (piece : List UInt8) : Option PathStep :=
  if piece = [] then none
  else if piece = [Byte.dot] then some .stay
  else if piece = [Byte.dot, Byte.dot] then some .up
  else some (.enter piece)

/-- The steps of a path; a slash at its end asks for a directory. -/
def ofPath (path : FilePath) : List PathStep :=
  let steps := (Path.pieces path).filterMap ofPiece
  if path.getLast? = some Byte.slash then steps ++ [.stay] else steps

end PathStep

/-- An access to the disk on the way through a directory. -/
inductive DirAccess where
  /-- Opens the directory at a path. -/
  | list (dir : FilePath)
  /-- Takes the next entry of a directory, which has this path. -/
  | next (entry : FilePath)
  /-- Asks what kind of entry is at a path. -/
  | inspect (entry : FilePath)
deriving DecidableEq, Repr

structure Disk where
  root : FileTree
  /-- The names that lead from the root to the working directory. -/
  workingDir : List FileName := []
  /-- What the disk refuses although the tree would allow it. -/
  refusal? : DirAccess → Option FileFault := fun _ => none

namespace Disk

/-- How many links a look-up follows. -/
def linkLimit : Nat := 40

/-- The longest name of a file, in bytes. -/
def nameLimit : Nat := 255

/-- The longest path, in bytes. -/
def pathLimit : Nat := 4095

/-- The place that some steps lead to from the directory `place`, if they follow at most
`links` links. -/
def walk (root : FileTree) (links : Nat) (place : List FileName) :
    List PathStep → Except FileFault (List FileName)
  | [] => .ok place
  | step :: rest =>
    match root.at? place with
    | some (.dir es) =>
      match step with
      | .stay => walk root links place rest
      | .up => walk root links place.dropLast rest
      | .enter name =>
        if nameLimit < name.length then .error .nameTooLong
        else
          match es.lookup name with
          | none => .error .notFound
          | some (.link target) =>
            match links with
            | 0 => .error .tooManyLinks
            | links + 1 =>
              if target.isEmpty then .error .notFound
              else
                walk root links (if Path.isAbsolute target then [] else place)
                  (PathStep.ofPath target ++ rest)
          | some _ => walk root links (place ++ [name]) rest
    | _ => .error .notDirectory
termination_by steps => (links, steps.length)

/-- The place that a path names, as the names that lead to it from the root. -/
def locate (d : Disk) (path : FilePath) : Except FileFault (List FileName) :=
  if path.contains 0 then .error .zeroInName
  else if path.isEmpty then .error .notFound
  else if pathLimit < path.length then .error .nameTooLong
  else
    walk d.root linkLimit (if Path.isAbsolute path then [] else d.workingDir)
      (PathStep.ofPath path)

/-- The tree that a path names. -/
def find (d : Disk) (path : FilePath) : Except FileFault FileTree :=
  match d.locate path with
  | .error e => .error e
  | .ok place =>
    match d.root.at? place with
    | some t => .ok t
    | none => .error .notFound

def exists? (d : Disk) (path : FilePath) : Bool := (d.find path).toBool

def isFile (d : Disk) (path : FilePath) : Bool :=
  match d.find path with
  | .ok (.file _) => true
  | _ => false

def readBytes (d : Disk) (path : FilePath) : Except FileFault (List UInt8) :=
  match d.find path with
  | .error e => .error e
  | .ok (.file content) => .ok content
  | .ok _ => .error .isDirectory

/-- The text of a file. -/
def readText (d : Disk) (path : FilePath) : Except FileFault String :=
  match d.readBytes path with
  | .error e => .error e
  | .ok content =>
    match text? content with
    | some s => .ok s
    | none => .error .notUtf8

/-- What goes wrong with an access to a directory or to an entry of one, if anything. An entry
whose path is too long cannot be looked at. -/
def fault? (d : Disk) : DirAccess → Option FileFault
  | .inspect path => if pathLimit < path.length then some .nameTooLong else d.refusal? (.inspect path)
  | a => d.refusal? a

/-- The absolute path of the working directory. -/
def workingPath (d : Disk) : FilePath := Byte.slash :: [Byte.slash].intercalate d.workingDir

end Disk

end BodyLength
