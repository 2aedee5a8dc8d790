import BodyLength.CommandLine.Text
import BodyLength.Config.Discovery
import BodyLength.Files.ProjectRoot
/-!
# Running a command

`Command.run` is the whole program as a function of the arguments, the disk and the standard
input. A scan succeeds even if it finds warnings, unless it is told to fail on them; then
all functions it has found count, whether they are shown or not.
-/

namespace BodyLength

/-- What a run leaves behind. -/
structure RunResult where
  exit : UInt32 := 0
  stdout : String := ""
  stderr : String := ""
deriving DecidableEq, Repr

/-- What a scan has found and how it is to be shown. -/
structure ScanRun where
  settings : Settings
  selection : Selection
  /-- Everything that was found, before any filter. -/
  entries : List Entry

namespace ScanFlags

/-- The settings with the options of the command line in their place. -/
def override (f : ScanFlags) (s : Settings) : Except Failure Settings :=
  if f.maxLines = some 0 then .error ⟨[], .zeroMaxLinesFlag⟩
  else
    .ok { s with
      scan :=
        { maxLines := f.maxLines.getD s.scan.maxLines
          bracePlacement := if f.lenientBraces then .lenient else s.scan.bracePlacement
          signatureMode :=
            if f.literalAwareSignatures then .literalAware else s.scan.signatureMode } }

/-- What to show: the options of the command line win over the settings, and either can ask
for warnings only. -/
def selection (f : ScanFlags) (s : Settings) : Selection where
  minLines := f.minLines <|> s.minLines
  top := f.top <|> s.top
  warningsOnly := f.warningsOnly || s.warningsOnly
  order := f.order

end ScanFlags

namespace ScanRun

/-- The path that stands for the standard input. -/
def stdinPath : FilePath := bytes "-"

/-- The name that entries of the standard input have for a file. -/
def stdinName : String := "<stdin>"

/-- Where a scan of a path looks for its configuration. -/
def configRoot (d : Disk) (path : FilePath) : FilePath :=
  if path = stdinPath then d.configRoot d.workingPath
  else d.configRoot (Path.join d.workingPath path)

/-- The entries of all source files that a path stands for, with the warnings on those that
could not be read. The command line goes through the files by itself, to show how far it has
come. -/
def readFiles (d : Disk) (path : FilePath) (s : Settings) :
    Except Failure (List Entry × List LogEvent) := do
  let files ← d.collect s.filter path
  let results := files.map fun file => (analyzeFile d file s.scan).mapError Failure.messages
  let merged := Analysis.merge files results
  let summary := if 0 < merged.skipped then [.skippedFiles merged.skipped] else []
  return (merged.entries, merged.warnings ++ summary)

/-- The entries of a text that comes on the standard input. -/
def readInput (stdin : List UInt8) (s : Settings) : Except Failure (List Entry) :=
  match text? stdin with
  | none => .error ⟨[.readInput], .file .notUtf8⟩
  | some text => .ok (analyzeText stdinName text s.scan)

/-- Scans a path or the standard input under given settings. -/
def ofSettings (d : Disk) (stdin : List UInt8) (path : FilePath) (s : Settings)
    (selection : Selection) : Except Failure (ScanRun × List LogEvent) :=
  if path = stdinPath then
    (readInput stdin s).map fun entries => ({ settings := s, selection, entries }, [])
  else do
    let (entries, warnings) ← readFiles d path s
    return ({ settings := s, selection, entries }, warnings)

/-- Scans a path. The warnings come also with a failure. -/
def ofPath (d : Disk) (stdin : List UInt8) (path : FilePath) (flags : ScanFlags) :
    List LogEvent × Except Failure ScanRun :=
  if path ≠ stdinPath ∧ !d.exists? path then ([], .error ⟨[], .missingPath path⟩)
  else
    match Config.settingsFor d (configRoot d path) flags.config with
    | .error f => ([], .error (f.within .loadConfig))
    | .ok (s, warnings) =>
      match flags.override s with
      | .error f => (warnings, .error f)
      | .ok s =>
        match ofSettings d stdin path s (flags.selection s) with
        | .error f => (warnings, .error f)
        | .ok (run, more) => (warnings ++ more, .ok run)

/-- The entries that are shown. -/
def shown (r : ScanRun) : List Entry := r.selection.apply r.entries

def anyWarning (r : ScanRun) : Bool := r.entries.any (·.report.isWarning)

end ScanRun

namespace RunResult

/-- A run that ends with a failure, after some warnings. -/
def failed (warnings : List LogEvent) (f : Failure) : RunResult where
  exit := 1
  stderr := String.join (warnings.map LogEvent.line) ++ "Error: " ++ f.report

/-- A run that prints something, after some warnings. -/
def printed (warnings : List LogEvent) (stdout : String) : RunResult where
  stdout := stdout
  stderr := String.join (warnings.map LogEvent.line)

end RunResult

namespace Command

def runScan (d : Disk) (stdin : List UInt8) (path : FilePath) (flags : ScanFlags) : RunResult :=
  match ScanRun.ofPath d stdin path flags with
  | (warnings, .error f) => .failed warnings f
  | (warnings, .ok r) =>
    let out := RunResult.printed warnings (flags.format.render r.settings.palette r.shown)
    { out with exit := if flags.failOnWarning && r.anyWarning then 1 else 0 }

def runValidate (d : Disk) (path : Option FilePath) : RunResult :=
  match Config.settingsFor d d.workingPath path with
  | .error f => { exit := 1, stderr := "Config validation failed: " ++ f.message ++ "\n" }
  | .ok (s, warnings) =>
    .printed warnings <| match s.source with
      | some path => "Config valid: " ++ shownText path ++ "\n"
      | none => "No config file found. Using defaults.\n"

def runShow (d : Disk) (path : Option FilePath) : RunResult :=
  match Config.settingsFor d d.workingPath path with
  | .error f => .failed [] (f.within .loadConfig)
  | .ok (s, warnings) => .printed warnings s.describe

def run (d : Disk) (stdin : List UInt8) : Command → RunResult
  | scan path flags => runScan d stdin path flags
  | validateConfig path => runValidate d path
  | showConfig path => runShow d path

end Command

/-- Runs the program. Without a result, the arguments make no command. -/
def runArguments (d : Disk) (stdin : List UInt8) (args : List String) : Option RunResult :=
  (Command.ofArguments args).map (Command.run d stdin)

end BodyLength
