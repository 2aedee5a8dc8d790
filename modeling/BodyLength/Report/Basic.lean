/-!
# Reports

A report tells of one function body: its name, where it stands and how many lines it has.
It is a warning when it has more lines than allowed. Line numbers are 32-bit words and
line counts 64-bit words.
-/

namespace BodyLength

inductive Severity where
  | neutral
  | warning
deriving DecidableEq, Repr

namespace Severity

/-- A warning is a body with more lines than `maxLines`. -/
def classify (lineCount maxLines : UInt64) : Severity :=
  if lineCount > maxLines then .warning else .neutral

def name : Severity → String
  | neutral => "neutral"
  | warning => "warning"

def all : List Severity := [neutral, warning]

end Severity

structure FunctionReport where
  name : String
  /-- The line of the identifier. -/
  signatureLine : UInt32
  /-- The line of the closing brace. -/
  closeLine : UInt32
  /-- The line below the closing brace, where a remark on the function goes. -/
  anchorLine : UInt32
  lineCount : UInt64
  severity : Severity
deriving DecidableEq, Repr

namespace FunctionReport

def isWarning (r : FunctionReport) : Bool := r.severity = .warning

/-- The remark shown next to the function. -/
def label (r : FunctionReport) : String :=
  match r.severity with
  | .warning => "⚠⚠ FUNCTION LINES : " ++ r.lineCount.toNat.repr ++ " ⚠⚠"
  | .neutral => "—— FUNCTION LINES : " ++ r.lineCount.toNat.repr ++ " ——"

end FunctionReport

/-- A report on a function of a file. -/
structure Entry where
  file : String
  report : FunctionReport
deriving DecidableEq, Repr

end BodyLength
