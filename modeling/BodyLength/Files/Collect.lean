import BodyLength.Failure
import BodyLength.Text.Blank
/-!
# Finding source files

The source files below a directory are the regular files with a supported extension that
are wanted by the path that leads to them from the directory, outside of directories that are
skipped. Links are never followed. A file that is named itself is always taken. The first
access that fails ends the search.

Files are listed in the order of their components, so the order in which directories list
their entries does not matter.
-/

namespace BodyLength

/-- Which files count as sources. The tests see the path of a file from the directory on that is
searched. -/
structure FileFilter where
  /-- The extensions of source files, in lower case. -/
  extensions : List (List Char)
  excludes : FilePath → Bool
  /-- With a test here, a file must pass it. -/
  includes : Option (FilePath → Bool)

namespace FileFilter

/-- Whether a file is wanted as far as its path goes. An excluded file is not, even if it is
also included. -/
def admits (f : FileFilter) (path : FilePath) : Bool :=
  !f.excludes path && f.includes.all (· path)

/-- Whether a file name carries one of the extensions; the case of ASCII letters does not
matter. An extension that is no text is none of them. -/
def hasExtension (f : FileFilter) (name : FileName) : Bool :=
  match (Path.extensionOf? name).bind text? with
  | none => false
  | some ext => f.extensions.contains (ext.toList.map lowerAscii)

/-- Whether a path names a file with one of the extensions. -/
def supports (f : FileFilter) (path : FilePath) : Bool := (Path.fileName? path).any f.hasExtension

end FileFilter

namespace FileTree

/-- Names of directories that hold no sources of the project: hidden ones, dependencies and
build output. -/
def isSkipped (name : String) : Bool :=
  name.startsWith '.' ||
    ["node_modules", "target", "dist", "build", "out", "vendor"].contains name

/-- Whether a search stays out of the directories of a name. It does not if the name is no
text, whatever bytes it begins with. -/
def skips (name : FileName) : Bool := (text? name).any isSkipped

/-- Whether a list of names comes before another or is the same. -/
def namesLe (a b : List FileName) : Bool := (compare a b).isLE

end FileTree

namespace DirAccess

/-- What a failure of the access tells besides the fault. -/
def attempts : DirAccess → List Attempt
  | list dir => [.readDirectory dir]
  | next _ => []
  | inspect entry => [.readMetadata entry]

end DirAccess

namespace Disk

/-- Makes an access that may fail. -/
def access (d : Disk) (a : DirAccess) : Except Failure Unit :=
  match d.fault? a with
  | some e => .error ⟨a.attempts, .file e⟩
  | none => .ok ()

mutual

/-- The source files in a tree with the given name, below the names `above` that lead there from
`top`, each as the names that lead to it. -/
def sources (d : Disk) (f : FileFilter) (top : FilePath) (above : List FileName) (name : FileName) :
    FileTree → Except Failure (List (List FileName))
  | .file _ =>
    let names := above ++ [name]
    .ok (if f.hasExtension name && f.admits ([Byte.slash].intercalate names) then [names] else [])
  | .link _ => .ok []
  | .dir es =>
    if FileTree.skips name then .ok []
    else do
      d.access (.list (Path.joinAll top (above ++ [name])))
      sourcesIn d f top (above ++ [name]) es

/-- The source files among the entries of a directory. -/
def sourcesIn (d : Disk) (f : FileFilter) (top : FilePath) (above : List FileName) :
    List (FileName × FileTree) → Except Failure (List (List FileName))
  | [] => .ok []
  | (name, t) :: es => do
    d.access (.next (Path.joinAll top (above ++ [name])))
    d.access (.inspect (Path.joinAll top (above ++ [name])))
    let here ← sources d f top above name t
    let others ← sourcesIn d f top above es
    return here ++ others

end

/-- The source files that a path stands for, as paths, in order. -/
def collect (d : Disk) (f : FileFilter) (path : FilePath) : Except Failure (List FilePath) :=
  match d.find path with
  | .ok (.file _) => .ok [path]
  | .ok (.dir es) => do
    d.access (.list path)
    let found ← sourcesIn d f path [] es
    return (found.mergeSort FileTree.namesLe).map (Path.joinAll path)
  | _ => .ok []

end Disk

end BodyLength
