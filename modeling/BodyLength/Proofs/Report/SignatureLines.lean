import BodyLength.Proofs.Report.FileOrder
import BodyLength.Proofs.Report.SourceOrder
import Mathlib.Data.List.Nodup
/-!
# The line of a signature

Several signatures may share a line, but at most the last of them has the newline behind it that an opening
brace on the next line calls for. So with such braces the lines of the signatures ascend strictly from report
to report (`pairwise_signatureLine`), and a function is known by its file and that line.
-/

namespace BodyLength

/-- Where an entry points to. -/
def Entry.line (e : Entry) : String × UInt32 := (e.file, e.report.signatureLine)

theorem pairwise_signatureLine {text : String} {options : ScanOptions}
    (h : (LineIndex.ofBytes (bytes text)).lineCount < 2 ^ 32) (hp : options.bracePlacement = .nextLine) :
    (scan text options).Pairwise (·.signatureLine < ·.signatureLine) := by
  rw [scan_eq, bodyReports, List.pairwise_map]
  apply List.Pairwise.imp_of_mem _ (bodies_pairwise text options)
  intro x y hx hy hxy
  exact (signatureLine_lt_iff h options.maxLines).2 (newlinesBefore_start_lt hx hy hxy hp)

/-- No two entries of a text point to the same line. -/
theorem nodup_line_analyzeText {text : String} {options : ScanOptions} (file : String)
    (h : (LineIndex.ofBytes (bytes text)).lineCount < 2 ^ 32) (hp : options.bracePlacement = .nextLine) :
    ((analyzeText file text options).map Entry.line).Nodup := by
  rw [analyzeText, List.map_map, List.nodup_iff_pairwise_ne, List.pairwise_map]
  apply (pairwise_signatureLine h hp).imp
  intro r r' hlt heq
  have hline : r.signatureLine = r'.signatureLine := congrArg Prod.snd heq
  exact UInt32.ne_of_lt hlt hline

/-- Nor do two entries of different texts. -/
theorem nodup_line_files {files : List (String × String)} {options : ScanOptions}
    (hd : (files.map Prod.fst).Nodup) (h : ∀ f ∈ files, (LineIndex.ofBytes (bytes f.2)).lineCount < 2 ^ 32)
    (hp : options.bracePlacement = .nextLine) :
    ((files.flatMap fun f => analyzeText f.1 f.2 options).map Entry.line).Nodup := by
  rw [List.map_flatMap, List.nodup_flatMap]
  refine ⟨fun f hf => nodup_line_analyzeText f.1 (h f hf) hp, ?_⟩
  apply (List.pairwise_map.1 (List.nodup_iff_pairwise_ne.1 hd)).imp
  intro f g hne k hf hg
  obtain ⟨e, he, rfl⟩ := List.mem_map.1 hf
  obtain ⟨e', he', heq⟩ := List.mem_map.1 hg
  have hfile : e'.file = e.file := congrArg Prod.fst heq
  rw [file_of_mem_analyzeText he, file_of_mem_analyzeText he'] at hfile
  exact hne hfile.symm

/-! ## Main theorem -/

/-- With opening braces on lines of their own, the lines of the signatures ascend strictly in the reports on a
text. Among the entries of some files, a function is known by its file and line. -/
theorem signatureLine_identifies (maxLines : UInt64) (mode : SignatureMode) :
    (∀ text : String, (LineIndex.ofBytes (bytes text)).lineCount < 2 ^ 32 →
      (scan text ⟨maxLines, .nextLine, mode⟩).Pairwise (·.signatureLine < ·.signatureLine)) ∧
    ∀ files : List (String × String), (files.map Prod.fst).Nodup →
      (∀ f ∈ files, (LineIndex.ofBytes (bytes f.2)).lineCount < 2 ^ 32) →
      let entries := files.flatMap fun f => analyzeText f.1 f.2 ⟨maxLines, .nextLine, mode⟩
      entries.Nodup ∧ ∀ e ∈ entries, ∀ e' ∈ entries,
        e.file = e'.file → e.report.signatureLine = e'.report.signatureLine → e = e' := by
  refine ⟨fun text h => pairwise_signatureLine h rfl, ?_⟩
  intro files hd h entries
  have hnodup : (entries.map Entry.line).Nodup := nodup_line_files hd h rfl
  refine ⟨hnodup.of_map _, ?_⟩
  intro e he e' he' hfile hline
  exact List.inj_on_of_nodup_map hnodup he he' (Prod.ext hfile hline)

/-- A parameter list of two lines, and a function inside another. -/
theorem signatureLine_identifies_nested :
    let text := "f(a,\nb)\n\x7b\ng()\n\x7b\n\x7d\n\x7d\n"
    let files := [("a", text), ("b", text)]
    (LineIndex.ofBytes (bytes text)).lineCount < 2 ^ 32 ∧
      (scan text ⟨25, .nextLine, .baseline⟩).Pairwise (·.signatureLine < ·.signatureLine) ∧
      (files.map Prod.fst).Nodup ∧ (∀ f ∈ files, (LineIndex.ofBytes (bytes f.2)).lineCount < 2 ^ 32) ∧
      (files.flatMap fun f => analyzeText f.1 f.2 ⟨25, .nextLine, .baseline⟩).Nodup := by
  intro text files
  have h : (LineIndex.ofBytes (bytes text)).lineCount < 2 ^ 32 := by decide +kernel
  have hd : (files.map Prod.fst).Nodup := by decide
  have hall : ∀ f ∈ files, (LineIndex.ofBytes (bytes f.2)).lineCount < 2 ^ 32 := by decide +kernel
  obtain ⟨hlines, hfiles⟩ := signatureLine_identifies 25 .baseline
  exact ⟨h, hlines text h, hd, hall, (hfiles files hd hall).1⟩

end BodyLength
