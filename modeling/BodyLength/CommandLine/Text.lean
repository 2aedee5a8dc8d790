import BodyLength.CommandLine.Arguments
import BodyLength.Analysis
import BodyLength.Report.Json
import BodyLength.Report.Remark
import BodyLength.Report.Table
/-!
# What the commands print

Reports go to the standard output, warnings and failures to the standard error.
-/

namespace BodyLength

namespace OutputFormat

def render (palette : Palette) (entries : List Entry) : OutputFormat → String
  | text => Table.render entries
  | json => Entry.render entries ++ "\n"
  | remarks => Remark.renderAll (entries.map (Remark.ofEntry palette))

end OutputFormat

namespace LogEvent

/-- A character of a log message. What could control a terminal is shown by its number. -/
def showChar (c : Char) : List Char :=
  if c = '\x07' ∨ c = '\x08' ∨ c = '\x0c' ∨ c = '\x1b' ∨ c = '\x7f' then
    ['\\', 'x', Nat.digitChar (c.toNat / 16), Nat.digitChar (c.toNat % 16)]
  else if 0x80 ≤ c.toNat ∧ c.toNat ≤ 0x9F then
    ['\\', 'u', '\x7b'] ++ Quoted.hexNumber c.toNat ++ ['\x7d']
  else [c]

def fields : LogEvent → String
  | invalidColor raw fallback =>
    " color=" ++ Quoted.encode raw ++ " fallback=" ++ Quoted.encode fallback
  | skippedFile file _ => " file=" ++ shownText file
  | skippedFiles _ => ""

def line (e : LogEvent) : String :=
  "WARN " ++ String.ofList (e.message.toList.flatMap showChar) ++ e.fields ++ "\n"

end LogEvent

namespace Settings

def optional (n : Option UInt64) : String :=
  match n with
  | none => "none"
  | some n => n.toNat.repr

/-- The settings as `config show` prints them. -/
def describe (s : Settings) : String :=
  let source := match s.source with
    | some path => shownText path
    | none => "defaults (no config file found)"
  let braces := match s.scan.bracePlacement with
    | .nextLine => "next line"
    | .lenient => "lenient"
  let signatures := match s.scan.signatureMode with
    | .baseline => "baseline"
    | .literalAware => "literal-aware"
  "Configuration:\n" ++
    "  Source: " ++ source ++ "\n" ++
    "\nScan:\n" ++
    "  max_lines: " ++ s.scan.maxLines.toNat.repr ++ "\n" ++
    "  braces: " ++ braces ++ "\n" ++
    "  signatures: " ++ signatures ++ "\n" ++
    "\nColors:\n" ++
    "  neutral: " ++ s.palette.neutral.display ++ "\n" ++
    "  warning: " ++ s.palette.warning.display ++ "\n" ++
    "\nFilters:\n" ++
    "  warnings_only: " ++ (if s.warningsOnly then "true" else "false") ++ "\n" ++
    "  min_lines: " ++ optional s.minLines ++ "\n" ++
    "  top: " ++ optional s.top ++ "\n" ++
    "  include: " ++ (if s.includes.isSome then "custom patterns" else "all files") ++ "\n" ++
    "  extensions: " ++ String.intercalate ", " (s.extensions.map String.ofList) ++ "\n"

end Settings

end BodyLength
