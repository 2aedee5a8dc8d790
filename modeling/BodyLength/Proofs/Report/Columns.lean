import BodyLength.Proofs.Text.Rows
import BodyLength.Report.Table
import Mathlib.Algebra.Group.Nat.Defs
import Mathlib.Data.List.Forall2
/-!
# The columns of the table

A text that is no longer than its cell is filled up with blanks, so the cells behind it begin at the same offsets
in every row (`Table.isRow_rowLine`). Numbers below a million and severities are short enough, and the name of a
file is made so (`Table.length_fit`). The name of the function comes last and may have any length.
-/

namespace BodyLength

namespace Table

/-! ## Fitting a text into a cell -/

section
variable {width : Nat} {s : String}

theorem toList_pad (width : Nat) (s : String) :
    (pad width s).toList = s.toList ++ List.replicate (width - s.length) ' ' := by
  simp [pad]

theorem fit_of_le (h : s.length ≤ width) : fit width s = pad width s := if_neg (Nat.not_lt.2 h)

/-- What is too long keeps its end. -/
theorem exists_fit_of_lt (h : width < s.length) : ∃ front tail, s.toList = front ++ tail ∧
    tail.length = width - 3 ∧ (fit width s).toList = ['.', '.', '.'] ++ tail := by
  refine ⟨s.toList.take (s.length - (width - 3)), s.toList.drop (s.length - (width - 3)), ?_, ?_, ?_⟩
  · rw [List.take_append_drop]
  · rw [List.length_drop, String.length_toList]
    omega
  · rw [fit, if_pos h]
    simp

theorem length_fit (hw : 3 ≤ width) (s : String) : (fit width s).length = width := by
  rw [← String.length_toList]
  by_cases h : width < s.length
  · obtain ⟨front, tail, -, htail, hfit⟩ := exists_fit_of_lt h
    rw [hfit, List.length_append, htail]
    exact Nat.add_sub_of_le hw
  · rw [fit_of_le (Nat.le_of_not_lt h), toList_pad, List.length_append, List.length_replicate, String.length_toList]
    omega

theorem mem_fit {c : Char} (hdot : c ≠ '.') (hblank : c ≠ ' ') (h : c ∈ (fit width s).toList) : c ∈ s.toList := by
  by_cases hlt : width < s.length
  · obtain ⟨front, tail, hs, -, hfit⟩ := exists_fit_of_lt hlt
    rw [hfit] at h
    rw [hs]
    simpa [hdot] using Or.inr h
  · rw [fit_of_le (Nat.le_of_not_lt hlt), toList_pad] at h
    simpa [hblank] using h

end

/-! ## Rows -/

/-- The text `s` stands at offset `i` of a line, and only blanks stand behind it up to offset `j`. -/
def CellAt (line : List Char) (i j : Nat) (s : String) : Prop :=
  s.length < j - i ∧ (line.drop i).take (j - i) = s.toList ++ List.replicate (j - i - s.length) ' '

/-- The texts stand in the columns of a line. -/
structure IsRow (line : List Char) (lines severity file place function : String) : Prop where
  lines : CellAt line 0 7 lines
  severity : CellAt line 7 16 severity
  file : CellAt line 16 47 file
  place : CellAt line 47 54 place
  function : line.drop 54 = function.toList

/-- A cell with the blank that keeps it apart from the next one. -/
def cell (width : Nat) (s : String) : List Char := s.toList ++ List.replicate (width + 1 - s.length) ' '

/-- A row without its newline. -/
def rowLine (lines severity file place function : String) : List Char :=
  cell 6 lines ++ (cell 8 severity ++ (cell 30 file ++ (cell 6 place ++ function.toList)))

theorem length_cell {width : Nat} {s : String} (h : s.length ≤ width) : (cell width s).length = width + 1 := by
  rw [cell, List.length_append, List.length_replicate, String.length_toList]
  omega

theorem cellAt_append {width i j : Nat} {s : String} (h : s.length ≤ width) {before : List Char}
    (hi : before.length = i) (hj : j = i + (width + 1)) (after : List Char) :
    CellAt (before ++ (cell width s ++ after)) i j s := by
  have hwidth : j - i = width + 1 := by omega
  unfold CellAt
  rw [hwidth, List.drop_left' hi, List.take_left' (length_cell h)]
  exact ⟨Nat.lt_succ_of_le h, rfl⟩

section
variable {lines severity file place : String} (hlines : lines.length ≤ 6) (hseverity : severity.length ≤ 8)
  (hfile : file.length ≤ 30) (hplace : place.length ≤ 6) (function : String)
include hlines hseverity hfile hplace

theorem toList_row : (row lines severity file place function).toList =
    rowLine lines severity file place function ++ ['\n'] := by
  have hcell {width : Nat} {s : String} (h : s.length ≤ width) : (pad width s).toList ++ [' '] = cell width s := by
    rw [toList_pad, cell, Nat.succ_sub h, List.replicate_succ', List.append_assoc]
  simp only [row, rowLine, ← hcell hlines, ← hcell hseverity, ← hcell hfile, ← hcell hplace, String.toList_append,
    List.append_assoc]
  rfl

theorem isRow_rowLine : IsRow (rowLine lines severity file place function) lines severity file place function := by
  have h₁ := length_cell hlines
  have h₂ : (cell 6 lines ++ cell 8 severity).length = 16 := by
    rw [List.length_append, h₁, length_cell hseverity]
  have h₃ : (cell 6 lines ++ cell 8 severity ++ cell 30 file).length = 47 := by
    rw [List.length_append, h₂, length_cell hfile]
  have h₄ : (cell 6 lines ++ cell 8 severity ++ cell 30 file ++ cell 6 place).length = 54 := by
    rw [List.length_append, h₃, length_cell hplace]
  exact
    { lines := cellAt_append hlines List.length_nil rfl _
      severity := cellAt_append hseverity h₁ rfl _
      file := by simpa only [rowLine, List.append_assoc] using cellAt_append hfile h₂ rfl _
      place := by simpa only [rowLine, List.append_assoc] using cellAt_append hplace h₃ rfl _
      function := by simpa only [rowLine, List.append_assoc] using List.drop_left' h₄ }

end

theorem newline_notMem_rowLine {lines severity file place function : String} (hlines : '\n' ∉ lines.toList)
    (hseverity : '\n' ∉ severity.toList) (hfile : '\n' ∉ file.toList) (hplace : '\n' ∉ place.toList)
    (hfunction : '\n' ∉ function.toList) : '\n' ∉ rowLine lines severity file place function := by
  simp [rowLine, cell, hlines, hseverity, hfile, hplace, hfunction]

end Table

/-! ## Entries -/

/-- The row of an entry is one line, and its numbers are short enough for their cells. -/
structure Entry.FitsTable (e : Entry) : Prop where
  file : '\n' ∉ e.file.toList
  name : '\n' ∉ e.report.name.toList
  lineCount : e.report.lineCount.toNat < 10 ^ 6
  signatureLine : e.report.signatureLine.toNat < 10 ^ 6

namespace Table

theorem length_repr_le {n : Nat} (h : n < 10 ^ 6) : n.repr.length ≤ 6 := by
  rw [← String.length_toList, Nat.toList_repr]
  exact (Nat.length_toDigits_le_iff (by decide) (by decide)).2 h

theorem length_severity_le (s : Severity) : s.name.length ≤ 8 := by
  cases s <;> decide

def headerLine : List Char := rowLine "LINES" "SEVERITY" "FILE" "LINE" "FUNCTION"

/-- The row of an entry without its newline. -/
def entryLine (e : Entry) : List Char :=
  rowLine e.report.lineCount.toNat.repr e.report.severity.name (fit 30 e.file) e.report.signatureLine.toNat.repr
    e.report.name

/-- The last line of a table tells how many entries there are, and how many warnings among them. -/
def summaryLine (es : List Entry) : List Char :=
  es.length.repr.toList ++ " function(s), ".toList ++
    (es.countP (·.report.severity = .warning)).repr.toList ++ " over the limit".toList

/-- An entry stands in the columns of a line. -/
def ShownAs (e : Entry) (line : List Char) : Prop :=
  IsRow line e.report.lineCount.toNat.repr e.report.severity.name (fit 30 e.file) e.report.signatureLine.toNat.repr
    e.report.name

theorem isRow_headerLine : IsRow headerLine "LINES" "SEVERITY" "FILE" "LINE" "FUNCTION" :=
  isRow_rowLine (by decide) (by decide) (by decide) (by decide) _

theorem newline_notMem_headerLine : '\n' ∉ headerLine :=
  newline_notMem_rowLine (by decide) (by decide) (by decide) (by decide) (by decide)

section
variable {e : Entry} (h : e.FitsTable)
include h

theorem shownAs_entryLine : ShownAs e (entryLine e) :=
  isRow_rowLine (length_repr_le h.lineCount) (length_severity_le _) (Nat.le_of_eq (length_fit (by decide) e.file))
    (length_repr_le h.signatureLine) _

theorem toList_entryRow : (entryRow e).toList = entryLine e ++ ['\n'] :=
  toList_row (length_repr_le h.lineCount) (length_severity_le _) (Nat.le_of_eq (length_fit (by decide) e.file))
    (length_repr_le h.signatureLine) _

theorem newline_notMem_entryLine : '\n' ∉ entryLine e := by
  have hnumber (n : Nat) : '\n' ∉ n.repr.toList := by
    rw [Nat.toList_repr]
    exact notMem_toDigits rfl n
  have hseverity : '\n' ∉ e.report.severity.name.toList := by
    cases e.report.severity <;> decide
  exact newline_notMem_rowLine (hnumber _) hseverity (fun hc => h.file (mem_fit (by decide) (by decide) hc))
    (hnumber _) h.name

end

theorem newline_notMem_summaryLine (es : List Entry) : '\n' ∉ summaryLine es := by
  simp [summaryLine, notMem_toDigits]

theorem newline_notMem_lines {es : List Entry} (h : ∀ e ∈ es, e.FitsTable) :
    ∀ l ∈ headerLine :: es.map entryLine ++ [[], summaryLine es], '\n' ∉ l := by
  rw [List.forall_mem_append, List.forall_mem_cons, List.forall_mem_map, List.forall_mem_cons,
    List.forall_mem_singleton]
  exact ⟨⟨newline_notMem_headerLine, fun e he => newline_notMem_entryLine (h e he)⟩, List.not_mem_nil,
    newline_notMem_summaryLine es⟩

theorem toList_render {es : List Entry} (h : ∀ e ∈ es, e.FitsTable) :
    (render es).toList = unlines (headerLine :: es.map entryLine ++ [[], summaryLine es]) := by
  have hheader : header.toList = headerLine ++ ['\n'] :=
    toList_row (by decide) (by decide) (by decide) (by decide) _
  have hrows : (String.join (es.map entryRow)).toList = unlines (es.map entryLine) := by
    rw [String.toList_join, unlines, List.flatMap_map, List.flatMap_map]
    exact List.flatMap_congr fun e he => toList_entryRow (h e he)
  have hsummary : (summary es).toList = '\n' :: (summaryLine es ++ ['\n']) := by
    simp [summary, summaryLine, FunctionReport.isWarning]
  rw [render, String.toList_append, String.toList_append, hheader, hrows, hsummary]
  simp [unlines]

/-! ## Main theorem -/

/-- A text that is fitted into a cell of at least three characters fills it: it has blanks behind it if it is
short enough, and otherwise keeps its end behind three dots. A table consists of a header, one row per entry in
the same order, an empty line and a line that counts the entries and the warnings among them. In the header and in
all rows the columns begin at the same offsets. -/
theorem render_columns :
    (∀ (width : Nat) (s : String), 3 ≤ width → (fit width s).length = width ∧
      (s.length ≤ width → (fit width s).toList = s.toList ++ List.replicate (width - s.length) ' ') ∧
      (width < s.length → ∃ front tail, s.toList = front ++ tail ∧ tail.length = width - 3 ∧
        (fit width s).toList = ['.', '.', '.'] ++ tail)) ∧
    ∀ es : List Entry, (∀ e ∈ es, e.FitsTable) → ∃ head rows,
      (render es).toList.splitOn '\n' = head :: rows ++ [[], summaryLine es, []] ∧
        IsRow head "LINES" "SEVERITY" "FILE" "LINE" "FUNCTION" ∧ List.Forall₂ ShownAs es rows := by
  refine ⟨fun width s hw => ⟨length_fit hw s, ?_, exists_fit_of_lt⟩, fun es h => ?_⟩
  · intro hle
    rw [fit_of_le hle, toList_pad]
  · refine ⟨headerLine, es.map entryLine, ?_, isRow_headerLine, ?_⟩
    · rw [toList_render h, ← List.append_nil (unlines _), splitOn_unlines_append (newline_notMem_lines h)]
      simp
    · rw [List.forall₂_map_right_iff, List.forall₂_same]
      exact fun e he => shownAs_entryLine (h e he)

/-- A name that is too long for its cell, in a script of more than one byte per letter, and an empty one. -/
theorem render_columns_of_long_name :
    let long := "проекты/исходники/главный_файл.c"
    let es : List Entry := [⟨long, ⟨"f", 999999, 5, 6, 26, .warning⟩⟩, ⟨"", ⟨"", 1, 2, 3, 0, .neutral⟩⟩]
    3 ≤ 30 ∧ (fit 30 long).length = 30 ∧ 30 < long.length ∧
      (∃ front tail, long.toList = front ++ tail ∧ tail.length = 27 ∧
        (fit 30 long).toList = ['.', '.', '.'] ++ tail) ∧
      (∀ e ∈ es, e.FitsTable) ∧ ∃ head rows,
        (render es).toList.splitOn '\n' = head :: rows ++ [[], "2 function(s), 1 over the limit".toList, []] ∧
          IsRow head "LINES" "SEVERITY" "FILE" "LINE" "FUNCTION" ∧ List.Forall₂ ShownAs es rows := by
  intro long es
  obtain ⟨hfit, htable⟩ := render_columns
  obtain ⟨hlength, -, hcut⟩ := hfit 30 long (by decide)
  have hlong : 30 < long.length := by decide +kernel
  have hes : ∀ e ∈ es, e.FitsTable := by
    rw [List.forall_mem_cons, List.forall_mem_singleton]
    exact ⟨⟨by decide +kernel, by decide, by decide, by decide⟩, ⟨by decide, by decide, by decide, by decide⟩⟩
  have hsummary : summaryLine es = "2 function(s), 1 over the limit".toList := by decide +kernel
  obtain ⟨head, rows, hlines, hshown⟩ := htable es hes
  rw [hsummary] at hlines
  exact ⟨by decide, hlength, hlong, hcut hlong, hes, head, rows, hlines, hshown⟩

end Table

end BodyLength
