import BodyLength.Report.Basic
/-!
# The table of entries

A header, a row per entry and a summary. Widths count characters. A file name that is too
long for its cell keeps its end, behind three dots.
-/

namespace BodyLength

namespace Table

/-- Fills a text up with spaces on the right. -/
def pad (width : Nat) (s : String) : String :=
  s ++ String.ofList (List.replicate (width - s.length) ' ')

/-- Fits a text into a cell: pads it, or cuts its front off and puts dots there. -/
def fit (width : Nat) (s : String) : String :=
  if s.length > width then "..." ++ String.ofList (s.toList.drop (s.length - (width - 3)))
  else pad width s

def row (lines severity file line function : String) : String :=
  pad 6 lines ++ " " ++ pad 8 severity ++ " " ++ pad 30 file ++ " " ++ pad 6 line ++ " " ++
    function ++ "\n"

def header : String := row "LINES" "SEVERITY" "FILE" "LINE" "FUNCTION"

def entryRow (e : Entry) : String :=
  row e.report.lineCount.toNat.repr e.report.severity.name (fit 30 e.file)
    e.report.signatureLine.toNat.repr e.report.name

def summary (entries : List Entry) : String :=
  "\n" ++ entries.length.repr ++ " function(s), " ++
    (entries.countP (·.report.isWarning)).repr ++ " over the limit\n"

def render (entries : List Entry) : String :=
  header ++ String.join (entries.map entryRow) ++ summary entries

end Table

end BodyLength
