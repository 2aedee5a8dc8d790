import BodyLength.Analysis
import BodyLength.Proofs.Report.Selection
import BodyLength.Proofs.Scan.LineAccounts
/-!
# What the threshold decides

Bodies are found and counted without the threshold, so another threshold changes nothing in a scan but the
severities (`scan_maxLines`). A severity is decided when a text is scanned, and a least line count when its
entries are shown. Both compare the same number, so the warnings are the entries with more lines than the
threshold (`isWarning_iff_of_mem_scan`) and can be asked for in either way.
-/

namespace BodyLength

/-- Another threshold only classifies the reports anew. -/
theorem scan_maxLines (text : String) (options : ScanOptions) (m : UInt64) :
    scan text { options with maxLines := m } =
      (scan text options).map fun r => { r with severity := .classify r.lineCount m } := by
  rw [scan_eq, scan_eq, bodyReports, bodyReports, List.map_map]
  rfl

theorem isWarning_iff_of_mem_scan {text : String} {options : ScanOptions} {r : FunctionReport}
    (h : r ∈ scan text options) : r.isWarning ↔ options.maxLines < r.lineCount := by
  rw [scan_eq] at h
  obtain ⟨x, -, rfl⟩ := List.mem_map.1 h
  rw [FunctionReport.isWarning, decide_eq_true_iff]
  exact Severity.classify_eq_warning

theorem report_mem_of_mem_analyzeText {file text : String} {options : ScanOptions} {e : Entry}
    (h : e ∈ analyzeText file text options) : e.report ∈ scan text options := by
  obtain ⟨r, hr, rfl⟩ := List.mem_map.1 h
  exact hr

/-! ## Asking for warnings by their line count -/

/-- The least number above a word, unless it is the largest there is. -/
theorem add_one_le_iff_lt {m n : UInt64} (h : m.toNat < 2 ^ 64 - 1) : m + 1 ≤ n ↔ m < n := by
  have hsucc : (m + 1).toNat = m.toNat + 1 := by
    rw [UInt64.toNat_add]
    exact Nat.mod_eq_of_lt (show m.toNat + 1 < 2 ^ 64 by omega)
  rw [UInt64.le_iff_toNat_le, UInt64.lt_iff_toNat_lt, hsucc, Nat.succ_le_iff]

namespace Selection

/-- Two selections that only differ in their filters show the same of entries that pass both filters or none. -/
theorem apply_congr_filter {s s' : Selection} (horder : s.order = s'.order) (htop : s.top = s'.top)
    {entries : List Entry} (h : ∀ e ∈ entries, s.admits e = s'.admits e) : s.apply entries = s'.apply entries := by
  rw [apply, apply, cut, cut, horder, htop, List.filter_congr h]

/-- The two filters for what is above a threshold. -/
theorem admits_warningsOnly {m : UInt64} (h : m.toNat < 2 ^ 64 - 1) {e : Entry}
    (he : e.report.isWarning ↔ m < e.report.lineCount) (order : SortOrder) (top : Option UInt64) :
    admits { warningsOnly := true, order, top } e = admits { minLines := some (m + 1), order, top } e := by
  have hcount : decide (m + 1 ≤ e.report.lineCount) = e.report.isWarning := by
    rw [Bool.eq_iff_iff, decide_eq_true_iff, add_one_le_iff_lt h, he]
  simp [admits, hcount]

end Selection

/-! ## Main theorem -/

/-- Scans of one text under two thresholds find the same functions and differ in nothing but the severities,
and what is a warning under the larger threshold is one under the smaller. Of entries that were scanned under
`m`, asking for warnings shows what asking for at least `m + 1` lines does. -/
theorem threshold_only_classifies (placement : BracePlacement) (mode : SignatureMode) :
    (∀ (text : String) (m m' : UInt64),
      List.Forall₂
        (fun r r' => r' = { r with severity := r'.severity } ∧ (m ≤ m' → r'.isWarning → r.isWarning))
        (scan text ⟨m, placement, mode⟩) (scan text ⟨m', placement, mode⟩)) ∧
    ∀ m : UInt64, m.toNat < 2 ^ 64 - 1 → ∀ (order : SortOrder) (top : Option UInt64) (entries : List Entry),
      (∀ e ∈ entries, ∃ file text, e ∈ analyzeText file text ⟨m, placement, mode⟩) →
      Selection.apply { warningsOnly := true, order, top } entries =
        Selection.apply { minLines := some (m + 1), order, top } entries := by
  constructor
  · intro text m m'
    have hmap := scan_maxLines text ⟨m, placement, mode⟩ m'
    have hwarning {r : FunctionReport} (hr : r ∈ scan text ⟨m, placement, mode⟩) (hle : m ≤ m')
        (hw : Severity.classify r.lineCount m' = .warning) : r.isWarning := by
      rw [isWarning_iff_of_mem_scan hr]
      exact UInt64.lt_of_le_of_lt hle (Severity.classify_eq_warning.1 hw)
    rw [show scan text ⟨m', placement, mode⟩ = _ from hmap, List.forall₂_map_right_iff, List.forall₂_same]
    intro r hr
    exact ⟨rfl, fun hle hw => hwarning hr hle (of_decide_eq_true hw)⟩
  · intro m hm order top entries hentries
    refine Selection.apply_congr_filter (by rfl) (by rfl) fun e he => ?_
    obtain ⟨file, text, hmem⟩ := hentries e he
    have hwarning := isWarning_iff_of_mem_scan (report_mem_of_mem_analyzeText hmem)
    exact Selection.admits_warningsOnly hm hwarning order top

/-- A body of two lines is a warning under a threshold of one line, but not under one of two. -/
theorem threshold_only_classifies_two_lines :
    let text := "f()\n\x7b\n\n\n\x7d g()\n\x7b\n\n\x7d"
    let f : FunctionReport := ⟨"f", 1, 5, 6, 2, .warning⟩
    let g : FunctionReport := ⟨"g", 5, 8, 9, 1, .neutral⟩
    let entries := analyzeText "a.c" text ⟨1, .nextLine, .baseline⟩
    scan text ⟨1, .nextLine, .baseline⟩ = [f, g] ∧
      scan text ⟨2, .nextLine, .baseline⟩ = [{ f with severity := .neutral }, g] ∧
      (1 : UInt64) ≤ 2 ∧
      List.Forall₂ (fun r r' => r' = { r with severity := r'.severity } ∧ (r'.isWarning → r.isWarning))
        (scan text ⟨1, .nextLine, .baseline⟩) (scan text ⟨2, .nextLine, .baseline⟩) ∧
      (1 : UInt64).toNat < 2 ^ 64 - 1 ∧
      (∀ e ∈ entries, ∃ file text, e ∈ analyzeText file text ⟨1, .nextLine, .baseline⟩) ∧
      Selection.apply { warningsOnly := true } entries = Selection.apply { minLines := some 2 } entries := by
  intro text f g entries
  have hle : (1 : UInt64) ≤ 2 := by decide
  have hm : (1 : UInt64).toNat < 2 ^ 64 - 1 := by decide
  have hentries : ∀ e ∈ entries, ∃ file text, e ∈ analyzeText file text ⟨1, .nextLine, .baseline⟩ :=
    fun e he => ⟨_, _, he⟩
  obtain ⟨hscans, hselections⟩ := threshold_only_classifies .nextLine .baseline
  refine ⟨by decide +kernel, by decide +kernel, hle, ?_, hm, hentries, ?_⟩
  · exact (hscans text 1 2).imp fun r r' h => ⟨h.1, h.2 hle⟩
  · exact hselections 1 hm .source none entries hentries

end BodyLength
