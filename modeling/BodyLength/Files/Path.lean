import BodyLength.Text.Lossy
/-!
# Paths

A path is a list of bytes, most often those of a text, whose components are separated by
slashes. Repeated slashes, a slash at the end and components that are a single dot do not
matter, except for a dot at the very start. Two dots are a component like any other here: what
they mean depends on the tree.
-/

namespace BodyLength

/-- The name of an entry of a directory. It need not be a text. -/
abbrev FileName := List UInt8

abbrev FilePath := List UInt8

namespace Path

/-- What stands between the slashes of a path. -/
def pieces : FilePath → List (List UInt8)
  | [] => [[]]
  | b :: rest =>
    if b = Byte.slash then [] :: pieces rest
    else
      match pieces rest with
      | [] => [[b]]
      | p :: ps => (b :: p) :: ps

def isAbsolute (path : FilePath) : Bool := path.head? = some Byte.slash

/-- Whether a piece between slashes is no component. -/
def isIdle (piece : List UInt8) : Bool := piece.isEmpty || piece == [Byte.dot]

/-- The first part of a path, which goes in front of its components: the slash of an absolute
path or a leading dot. -/
def lead (path : FilePath) : List UInt8 :=
  if isAbsolute path then [Byte.slash]
  else if (pieces path).head? = some [Byte.dot] then [Byte.dot]
  else []

/-- The pieces behind the lead, the last one first, from the last component on. -/
def fromLast (path : FilePath) : List (List UInt8) :=
  (pieces (path.drop (lead path).length)).reverse.dropWhile isIdle

/-- The paths that are left when one component after the other is taken away, for pieces
behind `lead` of which the last one comes first. -/
def parentsOf (lead : List UInt8) : List (List UInt8) → List FilePath
  | [] => []
  | p :: rest =>
    if isIdle p then parentsOf lead rest
    else
      (lead ++ [Byte.slash].intercalate (rest.dropWhile isIdle).reverse) :: parentsOf lead rest

/-- The path without its last component, without the last two, and so on. This ends with the
root of an absolute path and with the empty path otherwise. -/
def parents (path : FilePath) : List FilePath :=
  parentsOf (lead path) (pieces (path.drop (lead path).length)).reverse ++
    if lead path = [Byte.dot] then [[]] else []

/-- The path without its last component. The root has no parent, nor has the empty path. -/
def parent? (path : FilePath) : Option FilePath := (parents path).head?

/-- The last component, unless that is two dots. -/
def fileName? (path : FilePath) : Option FileName :=
  match fromLast path with
  | [] => none
  | p :: _ => if p = [Byte.dot, Byte.dot] then none else some p

/-- What follows the last dot of a file name, if something comes before it. -/
def extensionOf? (name : FileName) : Option (List UInt8) :=
  let behind := (name.reverse.takeWhile (· != Byte.dot)).reverse
  if name.length ≤ behind.length + 1 then none else some behind

/-- The path `path`, seen from `base`. -/
def join (base path : FilePath) : FilePath :=
  if isAbsolute path then path
  else if base.isEmpty ∨ base.getLast? = some Byte.slash then base ++ path
  else base ++ Byte.slash :: path

/-- The path that some names lead to from `base` on. -/
def joinAll (base : FilePath) (names : List FileName) : FilePath := names.foldl join base

/-- A path as reports show it, with slashes only. -/
def display (path : FilePath) : String :=
  String.ofList ((shownText path).toList.map fun c => if c = '\\' then '/' else c)

end Path

end BodyLength
