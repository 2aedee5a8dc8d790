import BodyLength.Report.Basic
/-!
# Choosing and ordering entries

`Selection.apply` keeps the entries that are asked for, sorts them and cuts the list off.
Sorting is stable, so entries that compare equal keep the order in which they came.
-/

namespace BodyLength

/-- By file, then by the line of the signature, then by that of the closing brace. -/
def Entry.comparePosition (a b : Entry) : Ordering :=
  (compare a.file b.file).then <|
    (compare a.report.signatureLine b.report.signatureLine).then <|
      compare a.report.closeLine b.report.closeLine

inductive SortOrder where
  /-- By position. -/
  | source
  /-- The longest bodies first, then by position. -/
  | lines
deriving DecidableEq, Repr

namespace SortOrder

def compare (order : SortOrder) (a b : Entry) : Ordering :=
  match order with
  | source => a.comparePosition b
  | lines => (Ord.compare b.report.lineCount a.report.lineCount).then (a.comparePosition b)

/-- Whether `a` may stand before `b`. -/
def le (order : SortOrder) (a b : Entry) : Bool := (order.compare a b).isLE

def sort (order : SortOrder) (entries : List Entry) : List Entry :=
  entries.mergeSort order.le

end SortOrder

/-- Which entries to show. -/
structure Selection where
  /-- The least line count to show. -/
  minLines : Option UInt64 := none
  /-- How many entries to show at most. -/
  top : Option UInt64 := none
  warningsOnly : Bool := false
  order : SortOrder := .source
deriving DecidableEq, Repr

namespace Selection

/-- Whether an entry passes the filters. -/
def admits (s : Selection) (e : Entry) : Bool :=
  (!s.warningsOnly || e.report.isWarning) && s.minLines.all (· ≤ e.report.lineCount)

def cut (s : Selection) (entries : List Entry) : List Entry :=
  match s.top with
  | none => entries
  | some n => entries.take n.toNat

def apply (s : Selection) (entries : List Entry) : List Entry :=
  s.cut (s.order.sort (entries.filter s.admits))

end Selection

end BodyLength
