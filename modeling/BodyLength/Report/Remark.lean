import BodyLength.Color
import BodyLength.Report.Basic
/-!
# Remarks in the margin

An editor shows a remark below each function: its label, in the color of its severity.
-/

namespace BodyLength

namespace Palette

def colorOf (p : Palette) : Severity → Color
  | .neutral => p.neutral
  | .warning => p.warning

end Palette

structure Remark where
  file : String
  line : UInt32
  label : String
  color : Color
  severity : Severity
deriving DecidableEq, Repr

namespace Remark

def ofEntry (palette : Palette) (e : Entry) : Remark where
  file := e.file
  line := e.report.anchorLine
  label := e.report.label
  color := palette.colorOf e.report.severity
  severity := e.report.severity

/-- The line `file:line: label`. -/
def render (r : Remark) : String :=
  r.file ++ ":" ++ r.line.toNat.repr ++ ": " ++ r.label ++ "\n"

def renderAll (rs : List Remark) : String := String.join (rs.map render)

end Remark

end BodyLength
