import BodyLength.Files.Path
/-!
# File trees

A `FileTree` is a file, a symbolic link or a directory with named entries.
-/

namespace BodyLength

inductive FileTree where
  | file (content : List UInt8)
  | link (target : FilePath)
  | dir (entries : List (FileName × FileTree))

namespace FileTree

def entries : FileTree → List (FileName × FileTree)
  | dir es => es
  | _ => []

/-- The entry of a name. -/
def child? (t : FileTree) (name : FileName) : Option FileTree := t.entries.lookup name

/-- The tree at the end of a list of names; links are not followed. -/
def at? (t : FileTree) : List FileName → Option FileTree
  | [] => some t
  | n :: ns => (t.child? n).bind (at? · ns)

/-- The entries with one more, or with another one of its name. -/
def setEntry (name : FileName) (t : FileTree) : List (FileName × FileTree) → List (FileName × FileTree)
  | [] => [(name, t)]
  | (n, u) :: rest => if n = name then (n, t) :: rest else (n, u) :: setEntry name t rest

/-- Puts a tree at the end of a list of names, with directories on the way as needed. A
directory that is there already keeps its entries. -/
def put (new : FileTree) : List FileName → FileTree → FileTree
  | [], t =>
    match new, t with
    | dir [], dir es => dir es
    | _, _ => new
  | n :: ns, t => dir (setEntry n (put new ns ((t.child? n).getD (dir []))) t.entries)

end FileTree

end BodyLength
