import BodyLength.Config.Settings
/-!
# Analysing files

Each file is read and scanned by itself. A file that cannot be read is skipped with a
warning, and costs the others nothing.
-/

namespace BodyLength

/-- The entries of a text that goes by the name `file`. -/
def analyzeText (file text : String) (options : ScanOptions) : List Entry :=
  (scan text options).map fun report => { file, report }

/-- The entries of a file. -/
def analyzeFile (d : Disk) (path : FilePath) (options : ScanOptions) : Except Failure (List Entry) :=
  match d.readText path with
  | .error e => .error ⟨[.readFile path], .file e⟩
  | .ok text => .ok (analyzeText (Path.display path) text options)

/-- What a list of files came to. -/
structure Analysis where
  entries : List Entry := []
  /-- How many files were skipped. -/
  skipped : Nat := 0
  warnings : List LogEvent := []
deriving DecidableEq, Repr

namespace Analysis

/-- Puts the result of one file, or the messages of its failure, in front of the others. -/
def add (path : FilePath) (result : Except (List String) (List Entry)) (a : Analysis) : Analysis :=
  match result with
  | .ok es => { a with entries := es ++ a.entries }
  | .error causes =>
    { a with
      skipped := a.skipped + 1
      warnings := .skippedFile path causes :: a.warnings }

/-- Joins the results of some files in their order. Each file goes with the result at its
place; what has no partner is left out. -/
def merge : List FilePath → List (Except (List String) (List Entry)) → Analysis
  | path :: paths, r :: rs => (merge paths rs).add path r
  | _, _ => {}

def ofFiles (d : Disk) (paths : List FilePath) (options : ScanOptions) : Analysis :=
  merge paths (paths.map fun p => (analyzeFile d p options).mapError Failure.messages)

/-- The warnings of a run over these files, which ends with a summary if any was skipped. -/
def allWarnings (a : Analysis) : List LogEvent :=
  a.warnings ++ if a.skipped = 0 then [] else [.skippedFiles a.skipped]

end Analysis

/-- The entries of all source files that a path stands for, before anything is filtered out. -/
def analyzePath (d : Disk) (s : Settings) (path : FilePath) : Except Failure Analysis := do
  let files ← d.collect s.filter path
  return .ofFiles d files s.scan

/-- The entries of a path that are asked for, with the warnings. -/
def analyze (d : Disk) (s : Settings) (selection : Selection) (path : FilePath) :
    Except Failure (List Entry × List LogEvent) := do
  let a ← analyzePath d s path
  return (selection.apply a.entries, a.allWarnings)

end BodyLength
