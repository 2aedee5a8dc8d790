import BodyLength.Proofs.Text.Rows
import BodyLength.Report.Remark
import Mathlib.Data.List.Forall2
/-!
# What remarks tell

Nothing is quoted in a remark, and the name of a file may hold colons, numbers or all of another remark. But the
end of a line is known: from there a label is read back to the marks in front of it (`append_label_inj`), then the
number in front of the label back to its colon, and what is left is the name (`remarkLine_inj`). So entries with
the same remarks agree in all that these tell.
-/

namespace BodyLength

/-! ## Labels -/

namespace Severity

/-- What stands at both ends of a label. -/
def mark : Severity → List Char
  | neutral => ['—', '—']
  | warning => ['⚠', '⚠']

theorem mark_inj {s t : Severity} : s.mark = t.mark ↔ s = t := by
  cases s <;> cases t <;> decide

theorem notMem_mark {c : Char} (h : c.toNat < 128) (s : Severity) : c ∉ s.mark := by
  have hmark : ∀ c ∈ s.mark, 128 ≤ c.toNat := by cases s <;> simp [mark]
  exact fun hc => Nat.not_lt.2 (hmark c hc) h

end Severity

namespace FunctionReport

variable {r r' : FunctionReport}

theorem toList_label (r : FunctionReport) : r.label.toList = r.severity.mark ++ " FUNCTION LINES :".toList ++
    ' ' :: Nat.toDigits 10 r.lineCount.toNat ++ ' ' :: r.severity.mark := by
  unfold label
  cases r.severity <;> simp [Severity.mark]

/-- The label is told apart from whatever stands in front of it. -/
theorem append_label_inj {l l' : List Char} : l ++ r.label.toList = l' ++ r'.label.toList ↔
    l = l' ∧ r.lineCount = r'.lineCount ∧ r.severity = r'.severity := by
  have hspace (n : Nat) : ' ' ∉ Nat.toDigits 10 n := notMem_toDigits rfl n
  constructor
  · intro h
    -- read from the end: the marks behind the last blank, then the digits behind the one before
    simp only [toList_label, ← List.append_assoc] at h
    obtain ⟨h, hmark⟩ := (append_cons_inj_of_notMem_right (r.severity.notMem_mark (by decide))
      (r'.severity.notMem_mark (by decide))).1 h
    obtain ⟨h, hcount⟩ := (append_cons_inj_of_notMem_right (hspace _) (hspace _)).1 h
    rw [hmark] at h
    exact ⟨List.append_cancel_right (List.append_cancel_right h), UInt64.toNat_inj.1 (toDigits_inj.1 hcount),
      Severity.mark_inj.1 hmark⟩
  · rintro ⟨rfl, hcount, hseverity⟩
    rw [toList_label, toList_label, hcount, hseverity]

end FunctionReport

/-! ## Lines -/

namespace Entry

/-- The line of the remark on an entry, which shows no color. -/
def remarkLine (e : Entry) : List Char :=
  e.file.toList ++ ':' :: Nat.toDigits 10 e.report.anchorLine.toNat ++ [':', ' '] ++ e.report.label.toList

/-- The remarks on the two entries tell the same. -/
structure SameRemark (e e' : Entry) : Prop where
  file : e.file = e'.file
  anchorLine : e.report.anchorLine = e'.report.anchorLine
  lineCount : e.report.lineCount = e'.report.lineCount
  severity : e.report.severity = e'.report.severity

variable {e e' : Entry}

theorem remarkLine_inj : e.remarkLine = e'.remarkLine ↔ e.SameRemark e' := by
  have hcolon (n : Nat) : ':' ∉ Nat.toDigits 10 n := notMem_toDigits rfl n
  constructor
  · intro h
    obtain ⟨h, hcount, hseverity⟩ := FunctionReport.append_label_inj.1 h
    -- the name may hold colons, but the digits behind the last one do not
    obtain ⟨hfile, hline⟩ := (append_cons_inj_of_notMem_right (hcolon _) (hcolon _)).1 (List.append_cancel_right h)
    exact ⟨String.toList_inj.1 hfile, UInt32.toNat_inj.1 (toDigits_inj.1 hline), hcount, hseverity⟩
  · rintro ⟨hfile, hline, hcount, hseverity⟩
    rw [remarkLine, remarkLine, FunctionReport.append_label_inj, hfile, hline]
    exact ⟨rfl, hcount, hseverity⟩

theorem newline_notMem_remarkLine (h : '\n' ∉ e.file.toList) : '\n' ∉ e.remarkLine := by
  have hnumber (n : Nat) : '\n' ∉ Nat.toDigits 10 n := notMem_toDigits rfl n
  have hmark (s : Severity) : '\n' ∉ s.mark := s.notMem_mark (by decide)
  simp [remarkLine, FunctionReport.toList_label, h, hnumber, hmark]

end Entry

theorem Remark.toList_renderAll (p : Palette) (es : List Entry) :
    (renderAll (es.map (ofEntry p))).toList = unlines (es.map Entry.remarkLine) := by
  rw [renderAll, String.toList_join, unlines, List.map_map, List.flatMap_map, List.flatMap_map]
  apply List.flatMap_congr
  intro e _
  simp [render, ofEntry, Entry.remarkLine]

/-! ## Main theorem -/

/-- For files without newlines in their names, the remarks on two lists of entries are the same text if and only
if the lists are of one length and agree, index by index, in the file, the line of the remark, the number of lines
and the severity. The colors do not matter. -/
theorem Remark.renderAll_tells (p q : Palette) {a b : List Entry} (ha : ∀ e ∈ a, '\n' ∉ e.file.toList)
    (hb : ∀ e ∈ b, '\n' ∉ e.file.toList) :
    renderAll (a.map (ofEntry p)) = renderAll (b.map (ofEntry q)) ↔
      a.length = b.length ∧ ∀ i (hi : i < a.length) (hj : i < b.length), a[i].SameRemark b[i] := by
  have ha' : ∀ l ∈ a.map Entry.remarkLine, '\n' ∉ l :=
    List.forall_mem_map.2 fun e he => Entry.newline_notMem_remarkLine (ha e he)
  have hb' : ∀ l ∈ b.map Entry.remarkLine, '\n' ∉ l :=
    List.forall_mem_map.2 fun e he => Entry.newline_notMem_remarkLine (hb e he)
  calc renderAll (a.map (ofEntry p)) = renderAll (b.map (ofEntry q))
      ↔ unlines (a.map Entry.remarkLine) = unlines (b.map Entry.remarkLine) := by
        rw [← String.toList_inj, toList_renderAll, toList_renderAll]
    _ ↔ a.map Entry.remarkLine = b.map Entry.remarkLine := unlines_inj ha' hb'
    _ ↔ List.Forall₂ Entry.SameRemark a b := by
        rw [← List.forall₂_eq_eq_eq, List.forall₂_map_left_iff, List.forall₂_map_right_iff]
        simp only [Entry.remarkLine_inj]
    _ ↔ _ := List.forall₂_iff_get

/-- The name of a file looks like a remark on another file; and functions of different names in different colors. -/
theorem Remark.renderAll_tells_lookalike :
    let report : FunctionReport := ⟨"f", 1, 6, 7, 3, .neutral⟩
    let lookalike : List Entry := [⟨"a.c:7: —— FUNCTION LINES : 3 ——", report⟩]
    let named : List Entry := [⟨"a.c", report⟩]
    let renamed : List Entry := [⟨"a.c", { report with name := "g" }⟩]
    let colors : Palette := { neutral := .named .blue }
    (∀ e ∈ lookalike, '\n' ∉ e.file.toList) ∧ (∀ e ∈ named, '\n' ∉ e.file.toList) ∧
      (∀ e ∈ renamed, '\n' ∉ e.file.toList) ∧
      renderAll (lookalike.map (ofEntry {})) ≠ renderAll (named.map (ofEntry colors)) ∧
      renderAll (named.map (ofEntry {})) = renderAll (renamed.map (ofEntry colors)) := by
  intro report lookalike named renamed colors
  have hlookalike : ∀ e ∈ lookalike, '\n' ∉ e.file.toList := by decide
  have hnamed : ∀ e ∈ named, '\n' ∉ e.file.toList := by decide
  have hrenamed : ∀ e ∈ renamed, '\n' ∉ e.file.toList := by decide
  refine ⟨hlookalike, hnamed, hrenamed, ?_, ?_⟩
  · intro h
    obtain ⟨-, hagree⟩ := (renderAll_tells {} colors hlookalike hnamed).1 h
    exact absurd (hagree 0 Nat.one_pos Nat.one_pos).file (by decide)
  · refine (renderAll_tells {} colors hnamed hrenamed).2 ⟨rfl, ?_⟩
    intro i hi _
    obtain rfl := Nat.lt_one_iff.1 hi
    exact ⟨rfl, rfl, rfl, rfl⟩

end BodyLength
