import BodyLength.Files.Disk
import BodyLength.Glob.Pattern
import BodyLength.Json.Error
/-!
# Failures

A failure is a cause together with what was being attempted, outermost first.
-/

namespace BodyLength

inductive Cause where
  | json (e : JsonError)
  | glob (e : GlobError)
  | file (e : FileFault)
  /-- A configured threshold of 0. -/
  | zeroMaxLines
  /-- A configured number of results of 0. -/
  | zeroTop
  | invalidExtension (ext : String)
  /-- A threshold of 0 given on the command line. -/
  | zeroMaxLinesFlag
  | missingPath (path : FilePath)

namespace Cause

def message : Cause → String
  | json e => e.message
  | glob e => e.message
  | file e => e.message
  | zeroMaxLines => "max_lines must be at least 1 (got 0)"
  | zeroTop => "top must be at least 1 (got 0)"
  | invalidExtension ext => "invalid extension: " ++ Quoted.encode ext
  | zeroMaxLinesFlag => "--max-lines must be at least 1"
  | missingPath path => "Path does not exist: " ++ shownText path

end Cause

/-- What was being attempted. -/
inductive Attempt where
  | compileInclude (pattern : String)
  | compileExclude (pattern : String)
  | readConfig (path : FilePath)
  | parseConfig (path : FilePath)
  | checkConfig (path : FilePath)
  | loadConfig
  | readDirectory (path : FilePath)
  | readMetadata (path : FilePath)
  | readFile (path : FilePath)
  | readInput
deriving DecidableEq, Repr

namespace Attempt

def message : Attempt → String
  | compileInclude pattern => "invalid include pattern: " ++ pattern
  | compileExclude pattern => "invalid exclude pattern: " ++ pattern
  | readConfig path => "failed to read config file: " ++ shownText path
  | parseConfig path => "failed to parse config file: " ++ shownText path
  | checkConfig path => "invalid config in: " ++ shownText path
  | loadConfig => "failed to load configuration"
  | readDirectory path => "Failed to read directory: " ++ shownText path
  | readMetadata path => "Failed to read metadata: " ++ shownText path
  | readFile path => "Failed to read file: " ++ shownText path
  | readInput => "failed to read stdin"

end Attempt

structure Failure where
  attempts : List Attempt := []
  cause : Cause

namespace Failure

def within (a : Attempt) (f : Failure) : Failure := { f with attempts := a :: f.attempts }

/-- What was attempted and the cause, outermost first. -/
def messages (f : Failure) : List String := f.attempts.map Attempt.message ++ [f.cause.message]

/-- The failure on one line. -/
def message (f : Failure) : String := String.intercalate ": " f.messages

/-- Indents the lines of a text behind the first one. -/
def hang (indent : Nat) (s : String) : String :=
  String.ofList <| s.toList.flatMap fun c =>
    if c = '\n' then '\n' :: List.replicate indent ' ' else [c]

/-- The cause number `n` of several, on lines of its own. -/
def numbered (n : Nat) (s : String) : String :=
  let number := n.repr
  String.ofList (List.replicate (5 - number.length) ' ') ++ number ++ ": " ++ hang 7 s ++ "\n"

/-- The failure with a list of causes below its outermost message. Several are numbered. -/
def report (f : Failure) : String :=
  match f.messages with
  | [] => "\n"
  | [m] => m ++ "\n"
  | [m, cause] => m ++ "\n\nCaused by:\n    " ++ hang 4 cause ++ "\n"
  | m :: causes =>
    m ++ "\n\nCaused by:\n" ++ String.join (causes.zipIdx.map fun (s, n) => numbered n s)

end Failure

end BodyLength
