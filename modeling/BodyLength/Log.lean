import BodyLength.Files.Path
/-!
# Warnings

What a run has to tell besides its result. None of it stops the run.
-/

namespace BodyLength

inductive LogEvent where
  /-- A configured color is none, and another is used instead. -/
  | invalidColor (raw fallback : String)
  /-- A file could not be read; the causes come outermost first. -/
  | skippedFile (file : FilePath) (causes : List String)
  /-- How many files of a run could not be read. -/
  | skippedFiles (count : Nat)
deriving DecidableEq, Repr

namespace LogEvent

def message : LogEvent → String
  | invalidColor _ _ => "invalid color, using default"
  | skippedFile _ causes => "skipping file: " ++ String.intercalate ": " causes
  | skippedFiles count => "skipped " ++ count.repr ++ " file(s) due to read errors"

end LogEvent

end BodyLength
